import Mathlib.Tactic.SplitIfs
import Templating.FileTree

/-!
# The segments of a path that lead somewhere

Empty segments and dots on the way to a file lead nowhere else.  Without them a path
has its plain segments, by which two spellings of one path can be told from two
paths, and which a name adds to those of the directory it is joined to.

Main definitions: `Path.plainSegments` and `Path.SameFile`.  Main statements:
`Path.plainSegments_join`, and `FileTree.read_eq_of_sameFile`: seen from the same
place, two spellings of one path are read alike.
-/

namespace Templating

open Text

section Segments

namespace Path

/-- Whether a segment leads somewhere else. -/
def isPlain (segment : String) : Bool :=
  segment ≠ "" ∧ segment ≠ "."

/-- The segments of a path without the empty ones and the dots. -/
def plainSegments (path : String) : List String :=
  (segments path).filter isPlain

/-- Two spellings of one path. -/
def SameFile (p q : String) : Prop :=
  plainSegments p = plainSegments q

instance (p q : String) : Decidable (SameFile p q) :=
  inferInstanceAs (Decidable (_ = _))

theorem isPlain_eq_false_iff {segment : String} :
    isPlain segment = false ↔ segment = "" ∨ segment = "." := by
  by_cases hempty : segment = "" <;> simp [isPlain, hempty]

theorem segments_slash (p q : List Char) :
    segments (String.ofList (p ++ '/' :: q)) =
      segments (String.ofList p) ++ segments (String.ofList q) := by
  simp [segments, splitString, splitAt_append_sep]

theorem segments_ne_nil (path : String) : segments path ≠ [] := by
  simp [segments, splitString, splitAt_ne_nil]

/-- What stands behind a slash does not change the first segment. -/
theorem head?_segments_slash (p q : List Char) :
    (segments (String.ofList (p ++ '/' :: q))).head? =
      (segments (String.ofList p)).head? := by
  rw [segments_slash]
  cases hp : segments (String.ofList p) with
  | nil => exact absurd hp (segments_ne_nil _)
  | cons segment more => rfl

theorem plainSegments_slash (p q : List Char) :
    plainSegments (String.ofList (p ++ '/' :: q)) =
      plainSegments (String.ofList p) ++ plainSegments (String.ofList q) := by
  simp only [plainSegments, segments_slash, List.filter_append]

end Path

end Segments

section Join

namespace Path

variable {directory name : String}

/-- A relative name stands behind a slash, unless the directory is empty. -/
theorem join_cases (directory : String) (hname : isAbsolute name = false) :
    (directory = "" ∧ join directory name = name) ∨
      ∃ p, join directory name = String.ofList (p ++ '/' :: name.toList) ∧
        (directory = String.ofList p ∧ p ≠ [] ∨
          directory = String.ofList (p ++ ['/'])) := by
  unfold join
  split_ifs with hempty hslash
  · rcases hempty with habsolute | hempty
    · rw [hname] at habsolute
      cases habsolute
    · exact .inl ⟨hempty, rfl⟩
  · obtain ⟨p, hp⟩ := List.getLast?_eq_some_iff.1 hslash
    have hdirectory : directory = String.ofList (p ++ ['/']) := by
      rw [← hp, String.ofList_toList]
    refine .inr ⟨p, ?_, .inr hdirectory⟩
    apply String.ext
    simp [hp]
  · refine .inr ⟨directory.toList, ?_, .inl ⟨String.ofList_toList.symm, ?_⟩⟩
    · apply String.ext
      simp
    · intro hnil
      refine hempty (.inr ?_)
      rw [← String.ofList_toList (s := directory), hnil]

/-- A relative name adds its segments to those of the directory. -/
theorem plainSegments_join (directory : String) {name : String}
    (hname : isAbsolute name = false) :
    plainSegments (join directory name) =
      plainSegments directory ++ plainSegments name := by
  rcases join_cases directory hname with
    ⟨rfl, hjoin⟩ | ⟨p, hjoin, ⟨rfl, -⟩ | rfl⟩
  · rw [hjoin]
    rfl
  · rw [hjoin, plainSegments_slash, String.ofList_toList]
  · rw [hjoin, plainSegments_slash, plainSegments_slash, String.ofList_toList]
    simp [plainSegments, segments, splitString, splitAt, isPlain]

/-- The segments of a relative name are the last ones of the path. -/
theorem segments_suffix_join (directory : String)
    (hname : isAbsolute name = false) :
    segments name <:+ segments (join directory name) := by
  rcases join_cases directory hname with ⟨-, hjoin⟩ | ⟨p, hjoin, -⟩
  · simp [hjoin]
  · rw [hjoin, segments_slash, String.ofList_toList]
    exact List.suffix_append _ _

theorem isAbsolute_join (directory : String) (hname : isAbsolute name = false) :
    isAbsolute (join directory name) = isAbsolute directory := by
  rcases join_cases directory hname with
    ⟨rfl, hjoin⟩ | ⟨p, hjoin, ⟨rfl, hp⟩ | rfl⟩
  · rw [hjoin, hname]
    rfl
  · obtain ⟨c, p, rfl⟩ := List.exists_cons_of_ne_nil hp
    rw [hjoin]
    simp [isAbsolute]
  · rw [hjoin]
    cases p <;> simp [isAbsolute]

end Path

end Join

section Walk

namespace FileTree

variable {t : FileTree}

/-- Empty segments and dots on the way to a file lead nowhere else. -/
theorem walk_plain {entry : Entry} :
    ∀ (segments : List String) (c : Cursor),
      t.walk c segments = .ok (.file entry) →
        t.walk c (segments.filter Path.isPlain) = .ok (.file entry)
  | [], _, h => h
  | segment :: rest, c, h => by
      cases hplain : Path.isPlain segment with
      | false =>
          have hstep : t.step c segment = .ok (.directory c) := by
            unfold step
            rw [if_pos (Path.isPlain_eq_false_iff.1 hplain)]
          rw [List.filter_cons_of_neg (by simp [hplain])]
          rw [walk, hstep] at h
          exact walk_plain rest c h
      | true =>
          rw [List.filter_cons_of_pos hplain]
          rw [walk] at h ⊢
          split at h
          · cases h
          · next d hstep => exact walk_plain rest d h
          · next e hstep =>
              split at h
              · next hrest =>
                  rw [List.isEmpty_iff.1 hrest]
                  exact h
              · cases h

/-- The last segment on the way to a file is the name of the file. -/
theorem walk_file_last {entry : Entry} :
    ∀ (segments : List String) (c : Cursor),
      t.walk c segments = .ok (.file entry) →
        ∃ last, segments.getLast? = some last ∧ Path.isPlain last = true
  | [], _, h => by
      cases h
  | segment :: rest, c, h => by
      rw [walk] at h
      split at h
      · cases h
      · next d hstep =>
          obtain ⟨last, hlast, hplain⟩ := walk_file_last rest d h
          refine ⟨last, ?_, hplain⟩
          rw [List.getLast?_cons, hlast]
          rfl
      · next e hstep =>
          split at h
          · next hrest =>
              refine ⟨segment, by rw [List.isEmpty_iff.1 hrest]; rfl, ?_⟩
              cases hplain : Path.isPlain segment with
              | true => rfl
              | false =>
                  rw [step, if_pos (Path.isPlain_eq_false_iff.1 hplain)] at hstep
                  cases hstep
          · cases h

theorem walk_of_isFile {path : String} (h : t.isFile path) :
    ∃ entry, t.resolve path = .ok (.file entry) ∧
      t.walk (t.origin path) (Path.plainSegments path) = .ok (.file entry) := by
  unfold isFile at h
  split at h
  · next entry hresolve =>
      refine ⟨entry, hresolve, walk_plain _ _ ?_⟩
      unfold resolve at hresolve
      split at hresolve
      · cases hresolve
      · exact hresolve
  · cases h

/-- Two spellings of one path, seen from the same place, are read alike. -/
theorem read_eq_of_sameFile {p q : String} (hp : t.isFile p) (hq : t.isFile q)
    (hsame : Path.SameFile p q) (horigin : t.origin p = t.origin q) :
    t.read p = t.read q := by
  obtain ⟨e, hresolve, hwalk⟩ := walk_of_isFile hp
  obtain ⟨e', hresolve', hwalk'⟩ := walk_of_isFile hq
  rw [hsame, horigin, hwalk'] at hwalk
  cases hwalk
  unfold read
  rw [hresolve, hresolve']

end FileTree

end Walk

end Templating
