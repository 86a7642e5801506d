import Templating.Proofs.ConfigText
import Templating.Proofs.FileWriting
import Templating.Proofs.PlainSegments

/-!
# Saved configurations

Loading turns the relative search directories of a configuration into directories seen
from the one of its file, and saving writes them as they stand.  A configuration that
is loaded again after it has been saved has thus been moved twice.

**One round.**  Saving and loading rebases the search directories once more.

**Fixed points.**  That changes nothing just when the file is given by a bare name, or
all search directories are absolute.  They are if the path of the file is.

**Spellings.**  A file that is given as `./x` has its directories spelled differently after
each round: they get a dot more in front.  They are the same directories still, as dots do
not count between the parts of a path (`Config.Alike`).

**Many rounds.**  After any number of rounds the directories have been rebased that
many times, so a configuration that one round leaves alone stays as it is.

Main definition: `Config.Alike`.  Main statements: `Config.load_of_save`,
`Config.load_of_rounds` and `Config.load_again_iff`.
-/

namespace Templating

section Paths

namespace Path

variable {base dir path : String}

theorem join_eq_self_iff : join base dir = dir ↔ base = "" ∨ isAbsolute dir = true := by
  constructor
  · intro h
    by_contra hne
    rw [not_or, Bool.not_eq_true] at hne
    obtain ⟨hbase, hdir⟩ := hne
    -- a longer path than the directory
    rcases join_cases base hdir with ⟨hempty, -⟩ | ⟨p, hjoin, -⟩
    · exact hbase hempty
    · rw [h] at hjoin
      have hlength := congrArg (fun s => s.toList.length) hjoin
      simp at hlength
      omega
  · intro h
    rw [join, if_pos h.symm]

theorem dropTail_suffix (segments : List String) : dropTail segments <:+ segments := by
  fun_induction dropTail segments with
  | case1 => exact List.suffix_refl _
  | case2 => exact List.nil_suffix
  | case3 => exact List.suffix_refl _
  | case4 s t rest _ ih => exact ih.trans (List.suffix_cons _ _)
  | case5 => exact List.suffix_refl _

theorem dropTail_ne_singleton (segments : List String) : dropTail segments ≠ [""] := by
  fun_induction dropTail segments with
  | case1 => simp
  | case2 => simp
  | case3 s hs => simpa using hs
  | case4 s t rest _ ih => exact ih
  | case5 => simp

theorem segments_of_isAbsolute (hpath : isAbsolute path = true) :
    ∃ more, segments path = "" :: more := by
  unfold isAbsolute at hpath
  match hcs : path.toList with
  | [] =>
      rw [hcs] at hpath
      cases hpath
  | c :: cs =>
      obtain rfl : c = '/' := by simpa [hcs] using hpath
      exact ⟨(Text.splitAt '/' cs).map String.ofList, by
        simp [segments, Text.splitString, hcs, Text.splitAt]⟩

/-- The directory of an absolute path is absolute. -/
theorem isAbsolute_of_parent? (hpath : isAbsolute path = true)
    (hbase : parent? path = some base) : isAbsolute base = true := by
  unfold parent? at hbase
  split at hbase
  · cases hbase
  · next last rest hcomponents =>
      split at hbase
      · rw [if_pos hpath] at hbase
        cases hbase
        rfl
      · next hne =>
          cases hbase
          -- what is left of the path still has the empty segment at its root
          obtain ⟨more, hmore⟩ := segments_of_isAbsolute hpath
          have hsuffix : dropTail rest <:+ more.reverse ++ [""] := by
            have hall := dropTail_suffix (segments path).reverse
            rw [← components, hcomponents, hmore, List.reverse_cons] at hall
            exact (dropTail_suffix rest).trans ((List.suffix_cons _ _).trans hall)
          obtain hnil | ⟨kept, hkept, -⟩ := List.suffix_concat_iff.1 hsuffix
          · exact absurd hnil hne
          · cases hreverse : kept.reverse with
            | nil =>
                rw [List.reverse_eq_nil_iff.1 hreverse] at hkept
                exact absurd hkept (dropTail_ne_singleton rest)
            | cons first names =>
                simp [ofReversed, hkept, hreverse, isAbsolute]

/-- A path whose last segment is a name lies in some directory. -/
theorem exists_parent? {last : String} (hlast : (segments path).getLast? = some last)
    (hplain : isPlain last = true) : ∃ base, parent? path = some base := by
  obtain ⟨hempty, hdot⟩ : last ≠ "" ∧ last ≠ "." := by simpa [isPlain] using hplain
  obtain ⟨before, hbefore⟩ := List.getLast?_eq_some_iff.1 hlast
  have hcomponents : components path = last :: before.reverse := by
    rw [components, hbefore, List.reverse_append, List.reverse_singleton]
    cases before.reverse with
    | nil => simp [dropTail, hempty]
    | cons segment rest => simp [dropTail, hempty, hdot]
  rw [parent?, hcomponents]
  split
  · next h => cases h
  · split
    · exact ⟨_, rfl⟩
    · exact ⟨_, rfl⟩

/-- The parts of a path behind what it starts with come from its plain segments. -/
theorem filterMap_ofSegment? (path : String) :
    (segments path).filterMap Part.ofSegment? =
      (plainSegments path).filterMap Part.ofSegment? := by
  rw [plainSegments, List.filterMap_filter]
  refine congrArg (List.filterMap · (segments path)) (funext fun segment => ?_)
  cases hplain : isPlain segment with
  | true => simp
  | false => simp [Part.ofSegment?, isPlain_eq_false_iff.1 hplain]

/-- Only a plain segment adds a part. -/
theorem filterMap_ofSegment?_eq_nil_iff :
    (segments path).filterMap Part.ofSegment? = [] ↔ plainSegments path = [] := by
  simp only [plainSegments, List.filterMap_eq_nil_iff, List.filter_eq_nil_iff,
    Bool.not_eq_true, isPlain_eq_false_iff]
  refine forall₂_congr fun segment _ => ?_
  unfold Part.ofSegment?
  split_ifs with hempty hup <;> simp [hempty]

/-- A path that is joined to a directory starts as the directory does. -/
theorem lead?_join (hbase : base ≠ "") (hdir : isAbsolute dir = false) :
    lead? (join base dir) = lead? base := by
  have hhead : (segments (join base dir)).head? = (segments base).head? := by
    rcases join_cases base hdir with ⟨hempty, -⟩ | ⟨p, hjoin, ⟨rfl, -⟩ | rfl⟩
    · exact absurd hempty hbase
    · rw [hjoin, head?_segments_slash]
    · rw [hjoin, head?_segments_slash, head?_segments_slash]
  simp only [lead?, isAbsolute_join base hdir, hhead]

/-- A relative directory that has been joined to a base has the same parts when it is
joined to it once more, just when the base has none to add. -/
theorem parts_join_join_iff (hdir : isAbsolute (join base dir) = false) :
    parts (join base (join base dir)) = parts (join base dir) ↔ plainSegments base = [] := by
  by_cases hbase : base = ""
  · subst hbase
    have hself : join "" (join "" dir) = join "" dir := join_eq_self_iff.2 (.inl rfl)
    rw [hself]
    exact iff_of_true rfl rfl
  · have hrelative : isAbsolute dir = false := by
      by_contra habsolute
      rw [join_eq_self_iff.2 (.inr (by simpa using habsolute))] at hdir
      exact habsolute hdir
    rw [parts, parts, lead?_join hbase hdir, lead?_join hbase hrelative,
      filterMap_ofSegment? (join base (join base dir)), plainSegments_join base hdir,
      List.filterMap_append, ← filterMap_ofSegment?, ← filterMap_ofSegment?,
      List.append_cancel_left_eq, List.append_left_eq_self,
      filterMap_ofSegment?_eq_nil_iff]

end Path

end Paths

section Rounds

namespace Config

variable {files files' : FileTree} {path : String} {c : Config}

theorem rebase_eq_self_iff {base : String} :
    c.rebase base = c ↔ base = "" ∨ ∀ dir ∈ c.dirs, Path.isAbsolute dir = true := by
  have hdirs : c.rebase base = c ↔ c.dirs.map (Path.join base) = c.dirs := by
    cases c
    simp [rebase]
  have hself : c.dirs.map (Path.join base) = c.dirs ↔
      ∀ dir ∈ c.dirs, Path.join base dir = dir := by
    simpa using List.map_inj_left (l := c.dirs) (f := Path.join base) (g := id)
  simp only [hdirs, hself, Path.join_eq_self_iff]
  by_cases hbase : base = "" <;> simp [hbase]

theorem exists_parent?_of_read {content : String} (h : files.read path = .ok content) :
    ∃ base, Path.parent? path = some base := by
  unfold FileTree.read at h
  split at h
  · next hresolve =>
      unfold FileTree.resolve at hresolve
      split at hresolve
      · cases hresolve
      · obtain ⟨last, hlast, hplain⟩ := FileTree.walk_file_last _ _ hresolve
        exact Path.exists_parent? hlast hplain
  all_goals cases h

/-- What is loaded is what the text of the file says, seen from the directory of the
file. -/
theorem load_eq_ok_iff : load files path = .ok c ↔ ∃ content c₀ base,
    files.read path = .ok content ∧ ofText? content = some c₀ ∧
      Path.parent? path = some base ∧ c = c₀.rebase base := by
  constructor
  · intro h
    unfold load at h
    split at h
    · cases h
    · next content hread =>
        obtain ⟨base, hbase⟩ := exists_parent?_of_read hread
        split at h
        · cases h
        · next c₀ htext =>
            rw [hbase] at h
            cases h
            exact ⟨content, c₀, base, hread, htext, hbase, rfl⟩
  · rintro ⟨content, c₀, base, hread, htext, hbase, rfl⟩
    rw [load, hread]
    simp only [htext, hbase]

/-- A file with the text of a configuration. -/
theorem load_of_read {base : String} (hbase : Path.parent? path = some base)
    (hread : files.read path = .ok c.text) : load files path = .ok (c.rebase base) := by
  refine load_eq_ok_iff.2 ⟨c.text, c, base, hread, ?_, hbase, rfl⟩
  rw [ofText?, read?_text, Option.bind_some, ofTable?_table]

/-- One round rebases the search directories once more. -/
theorem load_of_save {base : String} (hbase : Path.parent? path = some base)
    (hsave : c.save files path = .ok files') : load files' path = .ok (c.rebase base) := by
  unfold save at hsave
  split at hsave
  · cases hsave
  · next hwrite =>
      cases hsave
      exact load_of_read hbase (FileTree.read_of_write hwrite)

/-- Rounds of loading a configuration and saving it to the same file. -/
inductive Rounds (path : String) : Nat → FileTree → FileTree → Prop where
  | none (files : FileTree) : Rounds path 0 files files
  | more {n : Nat} {files files' files'' : FileTree} {c : Config}
      (h : Rounds path n files files') (hload : load files' path = .ok c)
      (hsave : c.save files' path = .ok files'') : Rounds path (n + 1) files files''

/-- After any number of rounds the search directories have been rebased that many times
more. -/
theorem load_of_rounds {base : String} {n : Nat} (hbase : Path.parent? path = some base)
    (hload : load files path = .ok c) (hrounds : Rounds path n files files') :
    load files' path = .ok ((rebase base)^[n] c) := by
  induction hrounds with
  | none files => exact hload
  | more _ hload' hsave ih =>
      have hnext := ih hload
      rw [hload', Except.ok.injEq] at hnext
      rw [load_of_save hbase hsave, hnext, Function.iterate_succ_apply']

/-- Seen from an absolute directory, all directories are absolute. -/
theorem isAbsolute_of_mem_rebase {base dir : String} (hbase : Path.isAbsolute base = true)
    (hdir : dir ∈ (c.rebase base).dirs) : Path.isAbsolute dir = true := by
  obtain ⟨dir, -, rfl⟩ := List.mem_map.1 hdir
  cases hdir' : Path.isAbsolute dir with
  | false => rw [Path.isAbsolute_join base hdir', hbase]
  | true => rwa [Path.join, if_pos (.inl hdir')]

/-- The same configuration up to the spelling of its search directories. -/
structure Alike (c c' : Config) : Prop where
  strict : c.strict = c'.strict
  dirs : c.dirs.map Path.parts = c'.dirs.map Path.parts

theorem Alike.refl (c : Config) : c.Alike c :=
  ⟨rfl, rfl⟩

theorem Alike.trans {c c' c'' : Config} (h : c.Alike c') (h' : c'.Alike c'') :
    c.Alike c'' :=
  ⟨h.strict.trans h'.strict, h.dirs.trans h'.dirs⟩

/-- What has been rebased stays the same up to spelling when it is rebased once more, just
when the base has no parts to add, or when nothing is joined to it. -/
theorem rebase_rebase_alike_iff (base : String) (c : Config) :
    ((c.rebase base).rebase base).Alike (c.rebase base) ↔
      Path.plainSegments base = [] ∨
        ∀ dir ∈ (c.rebase base).dirs, Path.isAbsolute dir = true := by
  have hdir : ∀ dir ∈ (c.rebase base).dirs,
      Path.parts (Path.join base dir) = Path.parts dir ↔
        Path.plainSegments base = [] ∨ Path.isAbsolute dir = true := by
    intro dir hmem
    obtain ⟨dir, -, rfl⟩ := List.mem_map.1 hmem
    cases habsolute : Path.isAbsolute (Path.join base dir) with
    | true => simp [Path.join_eq_self_iff.2 (.inr habsolute)]
    | false => simp [Path.parts_join_join_iff habsolute]
  have hall : ((c.rebase base).rebase base).Alike (c.rebase base) ↔
      ∀ dir ∈ (c.rebase base).dirs,
        Path.plainSegments base = [] ∨ Path.isAbsolute dir = true := by
    constructor
    · intro h dir hmem
      have hparts := h.dirs
      rw [rebase, List.map_map, List.map_inj_left] at hparts
      exact (hdir dir hmem).1 (hparts dir hmem)
    · intro h
      refine ⟨rfl, ?_⟩
      rw [rebase, List.map_map]
      exact List.map_congr_left fun dir hmem => (hdir dir hmem).2 (h dir hmem)
  rw [hall]
  by_cases hplain : Path.plainSegments base = [] <;> simp [hplain]

/-- Rebasing time and again changes no more than the spelling, if the first time does
not. -/
theorem iterate_rebase_alike {base : String}
    (h : ((c.rebase base).rebase base).Alike (c.rebase base)) (n : Nat) :
    ((rebase base)^[n] (c.rebase base)).Alike (c.rebase base) := by
  rcases (rebase_rebase_alike_iff base c).1 h with hplain | habsolute
  · induction n with
    | zero => exact .refl _
    | succ n ih =>
        -- each round is made after something that has been rebased
        have hlast : (rebase base)^[n] (c.rebase base) =
            ((rebase base)^[n] c).rebase base := by
          rw [← Function.iterate_succ_apply, Function.iterate_succ_apply']
        rw [hlast] at ih
        rw [Function.iterate_succ_apply', hlast]
        exact ((rebase_rebase_alike_iff base _).2 (.inl hplain)).trans ih
  · have hfixed : (c.rebase base).rebase base = c.rebase base :=
      rebase_eq_self_iff.2 (.inr habsolute)
    rw [Function.iterate_fixed hfixed]
    exact .refl _

/-- Whether a saved configuration is loaded again as it was hangs on the path and the
search directories alone.  This is said of the directories as they are written, and of the
directories up to their spelling.  Whatever one round keeps, any number of rounds keep. -/
theorem load_again_iff (hload : load files path = .ok c)
    (hsave : c.save files path = .ok files') :
    (load files' path = .ok c ↔
      Path.parent? path = some "" ∨ ∀ dir ∈ c.dirs, Path.isAbsolute dir = true) ∧
    ((∃ c', load files' path = .ok c' ∧ c'.Alike c) ↔
      (∃ base, Path.parent? path = some base ∧ Path.plainSegments base = []) ∨
        ∀ dir ∈ c.dirs, Path.isAbsolute dir = true) ∧
    (Path.isAbsolute path = true → load files' path = .ok c) ∧
    (load files' path = .ok c → ∀ n files'', Rounds path n files files'' →
      load files'' path = .ok c) ∧
    ((∃ c', load files' path = .ok c' ∧ c'.Alike c) → ∀ n files'',
      Rounds path n files files'' → ∃ c'', load files'' path = .ok c'' ∧ c''.Alike c) := by
  obtain ⟨content, c₀, base, hread, htext, hbase, hc⟩ := load_eq_ok_iff.1 hload
  have hround := load_of_save hbase hsave
  have hagain : load files' path = .ok c ↔
      Path.parent? path = some "" ∨ ∀ dir ∈ c.dirs, Path.isAbsolute dir = true := by
    rw [hround, Except.ok.injEq, rebase_eq_self_iff, hbase, Option.some.injEq]
  have halike : (∃ c', load files' path = .ok c' ∧ c'.Alike c) ↔
      (c.rebase base).Alike c := by
    simp [hround]
  refine ⟨hagain, ?_, fun hpath => hagain.2 (.inr ?_), fun hstable n files'' hrounds => ?_,
    fun hstable n files'' hrounds => ?_⟩
  · rw [halike, hc, rebase_rebase_alike_iff, hbase]
    simp
  · intro dir hdir
    rw [hc] at hdir
    exact isAbsolute_of_mem_rebase (Path.isAbsolute_of_parent? hpath hbase) hdir
  · have hfixed : c.rebase base = c := by
      simpa using hround.symm.trans hstable
    rw [load_of_rounds hbase hload hrounds, Function.iterate_fixed hfixed]
  · refine ⟨_, load_of_rounds hbase hload hrounds, ?_⟩
    rw [halike, hc] at hstable
    rw [hc]
    exact iterate_rebase_alike hstable n

/-- A tree with a configuration in a directory of its own. -/
def nestedConfig (c : Config) : FileTree :=
  ⟨[("conf", .directory [("stencil.toml", .text c.text)])], [[]]⟩

theorem load_nestedConfig (c : Config) :
    load (nestedConfig c) "conf/stencil.toml" = .ok (c.rebase "conf") :=
  load_of_read (by decide) rfl

theorem save_nestedConfig (c c' : Config) :
    c'.save (nestedConfig c) "conf/stencil.toml" = .ok (nestedConfig c') :=
  rfl

/-- An absolute search directory stays where it is. -/
theorem load_again_absoluteDirs :
    load (nestedConfig ⟨false, ["/t"]⟩) "conf/stencil.toml" = .ok ⟨false, ["/t"]⟩ ∧
      ∀ n files, Rounds "conf/stencil.toml" n (nestedConfig ⟨false, ["/t"]⟩) files →
        load files "conf/stencil.toml" = .ok ⟨false, ["/t"]⟩ := by
  have hload : load (nestedConfig ⟨false, ["/t"]⟩) "conf/stencil.toml" =
      .ok ⟨false, ["/t"]⟩ := load_nestedConfig ⟨false, ["/t"]⟩
  obtain ⟨-, -, -, hrounds, -⟩ :=
    load_again_iff hload (save_nestedConfig ⟨false, ["/t"]⟩ ⟨false, ["/t"]⟩)
  exact ⟨hload, hrounds hload⟩

/-- A relative one moves with each round, and not in its spelling only. -/
theorem load_again_relativeDirs :
    load (nestedConfig ⟨false, ["t"]⟩) "conf/stencil.toml" = .ok ⟨false, ["conf/t"]⟩ ∧
      save ⟨false, ["conf/t"]⟩ (nestedConfig ⟨false, ["t"]⟩) "conf/stencil.toml" =
        .ok (nestedConfig ⟨false, ["conf/t"]⟩) ∧
      load (nestedConfig ⟨false, ["conf/t"]⟩) "conf/stencil.toml" =
        .ok ⟨false, ["conf/conf/t"]⟩ ∧
      ¬ Alike ⟨false, ["conf/conf/t"]⟩ ⟨false, ["conf/t"]⟩ :=
  ⟨load_nestedConfig ⟨false, ["t"]⟩, save_nestedConfig _ _,
    load_nestedConfig ⟨false, ["conf/t"]⟩, fun h => absurd h.dirs (by decide)⟩

end Config

end Rounds

end Templating
