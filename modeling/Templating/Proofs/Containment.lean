import Mathlib.Data.List.Basic
import Mathlib.Tactic.ByContra
import Templating.Proofs.LoadedFiles
import Templating.Proofs.PlainSegments

/-!
# Names do not lead out of the search directories

A name is joined to each search directory, and may be any text: it comes from a
template, or from the values that the template is rendered with.  A name that is
empty, absolute or goes up is refused before any file is looked at
(`Path.LeadsOut`).

What other names stand for is below the directory in which they are found.  The
segments of the file are those of the directory and then those of the name, of which
at least one leads down and none goes up.  There is at least one since a path that
ends in an empty segment or in a dot is no file.

Main definition: `Loader.FirstIn`.  Main statement: `Loader.find?_stays_below`.
-/

namespace Templating

section Names

namespace Path

/-- A name that is empty, absolute, or goes up somewhere. -/
def LeadsOut (name : String) : Prop :=
  name = "" ∨ name.toList.head? = some '/' ∨ ".." ∈ segments name

theorem isContained_iff_not_leadsOut (name : String) :
    isContained name = true ↔ ¬ LeadsOut name := by
  rw [isContained_iff]
  simp [LeadsOut, isAbsolute]

theorem enter_of_not_isPlain {segment : String} (h : isPlain segment = false)
    (names : List String) : enter names segment = names :=
  if_pos (isPlain_eq_false_iff.1 h)

theorem foldl_enter_plain (segments names : List String) :
    segments.foldl enter names = (segments.filter isPlain).foldl enter names := by
  induction segments generalizing names with
  | nil => rfl
  | cons segment rest ih =>
      cases h : isPlain segment with
      | false =>
          rw [List.filter_cons_of_neg (by simp [h]), List.foldl_cons,
            enter_of_not_isPlain h]
          exact ih names
      | true =>
          rw [List.filter_cons_of_pos h, List.foldl_cons, List.foldl_cons]
          exact ih _

/-- Segments that do not go up lead down, one after another. -/
theorem foldl_enter_down {segments : List String}
    (hplain : ∀ segment ∈ segments, isPlain segment = true)
    (hup : ".." ∉ segments) (names : List String) :
    segments.foldl enter names = names ++ segments := by
  induction segments generalizing names with
  | nil => simp
  | cons segment rest ih =>
      obtain ⟨hsegment, hrest⟩ := List.forall_mem_cons.1 hplain
      have hne : segment ≠ ".." := fun h => hup (h ▸ List.mem_cons_self)
      have hrestUp : ".." ∉ rest := fun h => hup (List.mem_cons_of_mem _ h)
      have hlead : ¬ (segment = "" ∨ segment = ".") := by
        intro h
        rw [isPlain_eq_false_iff.2 h] at hsegment
        cases hsegment
      rw [List.foldl_cons, enter, if_neg hlead, if_neg hne, ih hrest hrestUp,
        List.append_assoc]
      rfl

theorem not_mem_plainSegments {name : String} (h : ".." ∉ segments name) :
    ".." ∉ plainSegments name :=
  fun hmem => h (List.mem_filter.1 hmem).1

/-- **A name leads below the directory** that it is joined to, from wherever the path
is seen. -/
theorem names_join {name : String} (hname : isAbsolute name = false)
    (hup : ".." ∉ segments name) (here : List String) (directory : String) :
    names here (join directory name) =
      names here directory ++ plainSegments name := by
  have horigin : origin here (join directory name) = origin here directory := by
    simp only [origin, isAbsolute_join directory hname]
  have hplain : ∀ segment ∈ plainSegments name, isPlain segment = true :=
    fun _ hmem => (List.mem_filter.1 hmem).2
  unfold names
  rw [horigin, foldl_enter_plain (segments (join directory name)),
    foldl_enter_plain (segments directory)]
  change (plainSegments (join directory name)).foldl _ _ = _
  rw [plainSegments_join directory hname, List.foldl_append,
    foldl_enter_down hplain (not_mem_plainSegments hup)]
  rfl

end Path

end Names

section Files

namespace FileTree

variable {t : FileTree}

/-- A name that stands for a file has a segment that leads somewhere. -/
theorem plainSegments_ne_nil {directory name : String}
    (hname : Path.isAbsolute name = false)
    (h : t.isFile (Path.join directory name) = true) :
    Path.plainSegments name ≠ [] := by
  obtain ⟨entry, hresolve, -⟩ := walk_of_isFile h
  unfold resolve at hresolve
  split at hresolve
  · cases hresolve
  · obtain ⟨last, hlast, hplain⟩ := walk_file_last _ _ hresolve
    -- the last segment of the path is the last one of the name
    obtain ⟨before, hsuffix⟩ := Path.segments_suffix_join directory hname
    rw [← hsuffix, List.getLast?_append_of_ne_nil _ (Path.segments_ne_nil name)]
      at hlast
    exact List.ne_nil_of_mem
      (List.mem_filter.2 ⟨List.mem_of_getLast? hlast, hplain⟩)

end FileTree

end Files

section Search

namespace Loader

/-- A name stands for a file in one of the search directories, and in none of those
before it. -/
structure FirstIn (loader : Loader) (files : FileTree) (name dir : String) :
    Prop where
  isFile : files.isFile (Path.join dir name) = true
  first : ∃ before after, loader.dirs = before ++ dir :: after ∧
    ∀ other ∈ before, files.isFile (Path.join other name) = false

variable {loader : Loader} {files : FileTree} {name : String}

theorem find?_candidates_eq_some_iff {path : String} :
    (loader.candidates name).find? files.isFile = some path ↔
      ∃ dir, loader.FirstIn files name dir ∧ path = Path.join dir name := by
  unfold candidates
  rw [List.find?_map, Option.map_eq_some_iff]
  simp only [List.find?_eq_some_iff_append, Function.comp]
  constructor
  · rintro ⟨dir, ⟨hfile, before, after, hdirs, hbefore⟩, rfl⟩
    exact ⟨dir, ⟨hfile, before, after, hdirs, by simpa using hbefore⟩, rfl⟩
  · rintro ⟨dir, ⟨hfile, before, after, hdirs, hbefore⟩, rfl⟩
    exact ⟨dir, ⟨hfile, before, after, hdirs, by simpa using hbefore⟩, rfl⟩

theorem find?_eq_some_iff {path : String} :
    loader.find? files name = some path ↔
      ¬ Path.LeadsOut name ∧
        ∃ dir, loader.FirstIn files name dir ∧ path = Path.join dir name := by
  unfold find?
  by_cases h : Path.isContained name = true
  · rw [if_pos h, find?_candidates_eq_some_iff]
    simp [(Path.isContained_iff_not_leadsOut name).1 h]
  · rw [if_neg h]
    simp only [reduceCtorEq, false_iff, not_and]
    exact fun hout => absurd ((Path.isContained_iff_not_leadsOut name).2 hout) h

theorem loadFile_ne_invalidName (loader : Loader) (files : FileTree)
    (path refused : String) :
    loader.loadFile files path ≠ .error (.invalidName refused) := by
  unfold loadFile
  split
  · simp
  · split <;> simp

theorem load_eq_invalidName_iff {refused : String} :
    loader.load files name = .error (.invalidName refused) ↔
      Path.LeadsOut name ∧ refused = name := by
  unfold load
  by_cases h : Path.isContained name = true
  · have hin : ¬ Path.LeadsOut name := (Path.isContained_iff_not_leadsOut name).1 h
    rw [if_pos h]
    simp only [hin, false_and, iff_false]
    cases loader.find? files name with
    | none => simp
    | some path =>
        intro hload
        cases hfile : loader.loadFile files path with
        | ok t =>
            simp [hfile, Except.map] at hload
        | error e =>
            simp only [hfile, Except.map, Except.error.injEq] at hload
            rw [hload] at hfile
            exact loadFile_ne_invalidName loader files path refused hfile
  · have hout : Path.LeadsOut name := by
      by_contra hin
      exact h ((Path.isContained_iff_not_leadsOut name).2 hin)
    rw [if_neg h]
    simp [hout, eq_comm]

/-- **Names stay below the search directories.** A name is refused exactly if it is
empty, absolute or goes up, and then stands for no file.  Any other name stands for
the file in the first directory that has one, and the segments of this file are those
of the directory and then those of the name: at least one, and none that goes up.  So
the file is below the directory, from wherever both are seen. -/
theorem find?_stays_below (loader : Loader) (files : FileTree) (name : String) :
    (∀ refused, loader.load files name = .error (.invalidName refused) ↔
      Path.LeadsOut name ∧ refused = name) ∧
    (Path.LeadsOut name → loader.find? files name = none) ∧
    (∀ path, loader.find? files name = some path ↔
      ¬ Path.LeadsOut name ∧
        ∃ dir, loader.FirstIn files name dir ∧ path = Path.join dir name) ∧
    ∀ path, loader.find? files name = some path →
      ∃ dir, loader.FirstIn files name dir ∧ path = Path.join dir name ∧
        Path.plainSegments path =
          Path.plainSegments dir ++ Path.plainSegments name ∧
        Path.plainSegments name ≠ [] ∧ ".." ∉ Path.plainSegments name ∧
        ∀ here, Path.names here path =
          Path.names here dir ++ Path.plainSegments name := by
  refine ⟨fun refused => load_eq_invalidName_iff, fun hout => ?_,
    fun path => find?_eq_some_iff, fun path hfind => ?_⟩
  · cases hfind : loader.find? files name with
    | none => rfl
    | some path => exact absurd hout (find?_eq_some_iff.1 hfind).1
  · obtain ⟨hin, dir, hfirst, rfl⟩ := find?_eq_some_iff.1 hfind
    obtain ⟨-, hname, hup⟩ := (Path.isContained_iff name).1
      ((Path.isContained_iff_not_leadsOut name).2 hin)
    exact ⟨dir, hfirst, rfl, Path.plainSegments_join dir hname,
      FileTree.plainSegments_ne_nil hname hfirst.isFile,
      Path.not_mem_plainSegments hup, fun here => Path.names_join hname hup here dir⟩

/-- Three dots, a dot and a repeated slash lead down; two dots lead out. -/
example :
    Path.plainSegments "./...//..a/" = ["...", "..a"] ∧
      Path.isContained "./...//..a/" = true ∧
      Path.isContained "a/./../b" = false := by
  refine ⟨rfl, rfl, rfl⟩

end Loader

end Search

end Templating
