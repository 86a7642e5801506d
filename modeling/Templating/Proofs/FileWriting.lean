import Mathlib.Tactic.SplitIfs
import Templating.FileTree

/-!
# What has been written can be read

A path is followed over directories that may be left again by `..`, also over the one
that is written to.  Writing replaces a file or adds one, and changes no directory to
something else.  So after it the path is followed through the same places, and what
lies at them is the directory with the new text.

**Places.**  A place in the tree before and the same place in the tree after are
related by `Alongside`: both are reached from the same level by the same names.

**Steps.**  A walk that goes from place to place before goes on to the same place
after, as long as what was a directory still is one.

**The place of the file.**  There the new directory is found that has been put back
into all those it was reached through.

Main statement: `FileTree.read_of_write`.
-/

namespace Templating

namespace FileTree

section Directories

/-- The directory that names lead to. -/
def descend? (dir : Directory) : List String → Option Directory
  | [] => some dir
  | name :: names =>
      match Keyed.find? name dir with
      | some (.directory d) => descend? d names
      | _ => none

/-- What is a directory stays a directory. -/
def Keeps (before after : Directory) : Prop :=
  ∀ names, (descend? before names).isSome → (descend? after names).isSome

variable {before after dir dir' : Directory} {name : String}

theorem Keeps.down (h : Keeps before after)
    (hname : Keyed.find? name before = some (.directory dir)) :
    ∃ dir', Keyed.find? name after = some (.directory dir') ∧ Keeps dir dir' := by
  have hfirst := h [name] (by simp [descend?, hname])
  simp only [descend?] at hfirst
  split at hfirst
  · next dir' hdir' =>
      refine ⟨dir', hdir', fun names hnames => ?_⟩
      have hnames' := h (name :: names) (by simpa [descend?, hname] using hnames)
      simpa [descend?, hdir'] using hnames'
  · cases hfirst

/-- A text in place of no directory. -/
theorem keeps_insert_text {content : String}
    (hname : ∀ d, Keyed.find? name dir ≠ some (.directory d)) :
    Keeps dir (Keyed.insert name (.text content) dir) := by
  intro names hnames
  cases names with
  | nil => rfl
  | cons first names =>
      by_cases hfirst : first = name
      · subst hfirst
        rw [descend?] at hnames
        split at hnames
        · next d hd => exact absurd hd (hname d)
        · cases hnames
      · simp only [descend?, Keyed.find?_insert_of_ne _ _ hfirst] at hnames ⊢
        exact hnames

/-- A directory in place of one that it keeps. -/
theorem keeps_insert_directory (hdir : Keyed.find? name before = some (.directory dir))
    (hkeeps : Keeps dir dir') :
    Keeps before (Keyed.insert name (.directory dir') before) := by
  intro names hnames
  cases names with
  | nil => rfl
  | cons first names =>
      by_cases hfirst : first = name
      · subst hfirst
        simp only [descend?, hdir] at hnames
        simpa only [descend?, Keyed.find?_insert_self] using hkeeps names hnames
      · simp only [descend?, Keyed.find?_insert_of_ne _ _ hfirst] at hnames ⊢
        exact hnames

end Directories

section Places

/-- The same place in two trees. -/
inductive Alongside (t t' : FileTree) : Cursor → Cursor → Prop where
  | start {level : Nat} (hlevel : level ≤ t.above.length) :
      Alongside t t' (t.start level) (t'.start level)
  | down {c c' : Cursor} {name : String} {d d' : Directory}
      (h : Alongside t t' c c')
      (hdown : Keyed.find? name c.dir = some (.directory d))
      (hdown' : Keyed.find? name c'.dir = some (.directory d')) :
      Alongside t t' ⟨d, (name, c.dir) :: c.passed, c.level⟩
        ⟨d', (name, c'.dir) :: c'.passed, c'.level⟩

variable {t t' : FileTree} {c c' : Cursor}

namespace Alongside

theorem level_le (h : Alongside t t' c c') : c.level ≤ t.above.length := by
  induction h with
  | start hlevel => exact hlevel
  | down _ _ _ ih => exact ih

theorem keeps (h : Alongside t t' c c')
    (htrees : ∀ level, Keeps (t.start level).dir (t'.start level).dir) :
    Keeps c.dir c'.dir := by
  induction h with
  | start _ => exact htrees _
  | down _ hdown hdown' ih =>
      obtain ⟨d, hd, hkeeps⟩ := ih.down hdown
      rw [hdown'] at hd
      cases hd
      exact hkeeps

theorem up (h : Alongside t t' c c') (habove : t'.above.length = t.above.length) :
    Alongside t t' (t.up c) (t'.up c') := by
  cases h with
  | @start level hlevel =>
      have hup (tree : FileTree) : tree.up (tree.start level) =
          if level < tree.above.length then tree.start (level + 1)
          else tree.start level := rfl
      rw [hup, hup, habove]
      split_ifs with hlt
      · exact .start hlt
      · exact .start hlevel
  | down h _ _ => exact h

/-- The places on the way back up have the changed directories in them. -/
theorem keeps_rebuild (h : Alongside t t' c c') {dir : Directory}
    (hkeeps : Keeps c.dir dir) : Keeps (t.start c.level).dir (rebuild c.passed dir) := by
  induction h generalizing dir with
  | start _ => exact hkeeps
  | down _ hdown _ ih => exact ih (keeps_insert_directory hdown hkeeps)

/-- On the way down again, the changed directory is found. -/
theorem dir_eq (h : Alongside t t' c c') {dir : Directory}
    (hstart : (t'.start c.level).dir = rebuild c.passed dir) : c'.dir = dir := by
  induction h generalizing dir with
  | start _ => exact hstart
  | down _ _ hdown' ih =>
      rw [ih hstart, Keyed.find?_insert_self] at hdown'
      cases hdown'
      rfl

end Alongside

end Places

section Walks

variable {t t' : FileTree} {c c' d : Cursor} {segment : String} {segments : List String}

/-- A tree in which the same levels exist, and what was a directory still is one. -/
structure KeptBy (t t' : FileTree) : Prop where
  above : t'.above.length = t.above.length
  levels : ∀ level, Keeps (t.start level).dir (t'.start level).dir

theorem KeptBy.refl (t : FileTree) : KeptBy t t :=
  ⟨rfl, fun _ _ h => h⟩

theorem step_alongside (hkept : KeptBy t t') (h : Alongside t t' c c')
    (hstep : t.step c segment = .ok (.directory d)) :
    ∃ d', t'.step c' segment = .ok (.directory d') ∧ Alongside t t' d d' := by
  unfold step at hstep ⊢
  split_ifs at hstep ⊢ with hplain hup hlong
  · cases hstep
    exact ⟨c', rfl, h⟩
  · cases hstep
    exact ⟨t'.up c', rfl, h.up hkept.above⟩
  · split at hstep
    · cases hstep
    · next dir hdir =>
        cases hstep
        obtain ⟨dir', hdir', -⟩ := (h.keeps hkept.levels).down hdir
        rw [hdir']
        exact ⟨_, rfl, .down h hdir hdir'⟩
    · cases hstep

/-- A walk that ends in a directory has gone from directory to directory. -/
theorem walk_cons_cases (hwalk : t.walk c (segment :: segments) = .ok (.directory d)) :
    ∃ e, t.step c segment = .ok (.directory e) ∧ t.walk e segments = .ok (.directory d) := by
  rw [walk] at hwalk
  split at hwalk
  · cases hwalk
  · next e hstep => exact ⟨e, hstep, hwalk⟩
  · split_ifs at hwalk
    cases hwalk

theorem walk_alongside (hkept : KeptBy t t') (h : Alongside t t' c c')
    (hwalk : t.walk c segments = .ok (.directory d)) :
    ∃ d', t'.walk c' segments = .ok (.directory d') ∧ Alongside t t' d d' := by
  induction segments generalizing c c' with
  | nil =>
      cases hwalk
      exact ⟨c', rfl, h⟩
  | cons segment segments ih =>
      obtain ⟨e, hstep, hrest⟩ := walk_cons_cases hwalk
      obtain ⟨e', hstep', he⟩ := step_alongside hkept h hstep
      obtain ⟨d', hrest', hd⟩ := ih he hrest
      exact ⟨d', by rw [walk, hstep']; exact hrest', hd⟩

theorem walk_append (hwalk : t.walk c segments = .ok (.directory d)) (more : List String) :
    t.walk c (segments ++ more) = t.walk d more := by
  induction segments generalizing c with
  | nil =>
      cases hwalk
      rfl
  | cons segment segments ih =>
      obtain ⟨e, hstep, hrest⟩ := walk_cons_cases hwalk
      rw [List.cons_append, walk, hstep]
      exact ih hrest

end Walks

section Replace

variable {t : FileTree} {c : Cursor} {dir : Directory}

theorem length_above_replace : (t.replace c dir).above.length = t.above.length := by
  unfold replace
  split <;> simp

theorem start_replace (hlevel : c.level ≤ t.above.length) (level : Nat) :
    ((t.replace c dir).start level).dir =
      if level = c.level then rebuild c.passed dir else (t.start level).dir := by
  unfold replace
  split
  · next hzero =>
      cases level with
      | zero => simp [start, levels, hzero]
      | succ level => simp [start, levels, hzero]
  · next n hsucc =>
      cases level with
      | zero => simp [start, levels, hsucc]
      | succ level =>
          by_cases heq : level = n
          · subst heq
            have hlt : level < t.above.length := by omega
            simp [start, levels, hsucc, List.getD, hlt]
          · simp [start, levels, hsucc, heq, List.getD, Ne.symm heq]

/-- Writing a text in place of no directory keeps all directories. -/
theorem keptBy_replace {c' : Cursor} (h : Alongside t t c c') (hkeeps : Keeps c.dir dir) :
    KeptBy t (t.replace c dir) where
  above := length_above_replace
  levels level := by
    rw [start_replace h.level_le]
    split_ifs with hlevel
    · rw [hlevel]
      exact h.keeps_rebuild hkeeps
    · exact fun _ hnames => hnames

end Replace

section LastSegment

theorem splitAt_concat {sep c : Char} (hc : c ≠ sep) (cs : List Char) :
    ∃ pieces piece, Text.splitAt sep (cs ++ [c]) = pieces ++ [piece ++ [c]] := by
  induction cs with
  | nil => exact ⟨[], [], by simp [Text.splitAt, hc]⟩
  | cons x cs ih =>
      obtain ⟨pieces, piece, hpieces⟩ := ih
      rw [List.cons_append, Text.splitAt, hpieces]
      split_ifs with hx
      · exact ⟨[] :: pieces, piece, rfl⟩
      · cases pieces with
        | nil => exact ⟨[], x :: piece, rfl⟩
        | cons first pieces => exact ⟨(x :: first) :: pieces, piece, rfl⟩

/-- The last segment is empty only if the path is, or ends in a slash. -/
theorem exists_last_segment {path : String} (hpath : path ≠ "")
    (hslash : path.toList.getLast? ≠ some '/') :
    ∃ segments last, Path.segments path = segments ++ [last] ∧ last ≠ "" := by
  have hne : path.toList ≠ [] := fun h => hpath (String.toList_eq_nil_iff.1 h)
  obtain ⟨cs, c, hcs⟩ : ∃ cs c, path.toList = cs ++ [c] :=
    ⟨_, _, (List.dropLast_concat_getLast hne).symm⟩
  have hc : c ≠ '/' := by simpa [hcs] using hslash
  obtain ⟨pieces, piece, hpieces⟩ := splitAt_concat hc cs
  refine ⟨pieces.map String.ofList, String.ofList (piece ++ [c]), ?_, ?_⟩
  · rw [Path.segments, Text.splitString, hcs, hpieces, List.map_append]
    rfl
  · intro h
    have hnil : piece ++ [c] = [] := by simpa using congrArg String.toList h
    simp at hnil

end LastSegment

section Write

variable {t t' : FileTree} {path content : String}

theorem ne_empty_of_refusal? (h : refusal? path = none) : path ≠ "" := by
  rintro rfl
  cases h

/-- A file is written under the last segment of its path, in the directory that the
others lead to. -/
theorem write_cases (h : t.write path content = .ok t') :
    refusal? path = none ∧ ∃ segments last c,
      Path.segments path = segments ++ [last] ∧
      t.walk (t.origin path) segments = .ok (.directory c) ∧
      last ≠ "" ∧ last ≠ "." ∧ last ≠ ".." ∧ last.utf8ByteSize ≤ maxNameBytes ∧
      (∀ d, Keyed.find? last c.dir ≠ some (.directory d)) ∧
      t' = t.replace c (Keyed.insert last (.text content) c.dir) := by
  unfold write at h
  split at h
  · cases h
  · next hrefusal =>
      refine ⟨hrefusal, ?_⟩
      split at h
      · cases h
      · next last before hlast =>
          split at h
          · cases h
          · cases h
          · next c hwalk =>
              split_ifs at h with hdots hlong
              obtain ⟨hdot, hup, hslash⟩ : last ≠ "." ∧ last ≠ ".." ∧ _ := by
                simpa only [not_or] using hdots
              obtain ⟨segments, last', hsegments, hempty⟩ :=
                exists_last_segment (ne_empty_of_refusal? hrefusal) hslash
              rw [hsegments, List.reverse_append, List.reverse_singleton,
                List.singleton_append, List.dropWhile_cons_of_neg (by simpa using hempty)]
                at hlast
              cases hlast
              rw [List.reverse_reverse] at hwalk
              split at h
              · cases h
              · next hfree =>
                  cases h
                  exact ⟨segments, last, c, hsegments, hwalk, hempty, hdot, hup,
                    Nat.le_of_not_lt hlong, hfree, rfl⟩

theorem origin_alongside (t t' : FileTree) (path : String)
    (habove : t'.above.length = t.above.length) :
    Alongside t t' (t.origin path) (t'.origin path) := by
  unfold origin
  rw [habove]
  split_ifs
  · exact .start (Nat.le_refl _)
  · exact .start (Nat.zero_le _)

/-- What has been written to a file is read from it. -/
theorem read_of_write (h : t.write path content = .ok t') : t'.read path = .ok content := by
  obtain ⟨hrefusal, segments, last, c, hsegments, hwalk, hempty, hdot, hup, hlong, hfree,
    htree⟩ := write_cases h
  -- the place of the directory in the tree before, and then in the tree after
  obtain ⟨_, -, hplace⟩ :=
    walk_alongside (KeptBy.refl t) (origin_alongside t t path rfl) hwalk
  have hkept : KeptBy t t' := htree ▸ keptBy_replace hplace (keeps_insert_text hfree)
  obtain ⟨c', hwalk', hplace'⟩ :=
    walk_alongside hkept (origin_alongside t t' path hkept.above) hwalk
  have hdir : c'.dir = Keyed.insert last (.text content) c.dir :=
    hplace'.dir_eq (by rw [htree, start_replace hplace.level_le, if_pos rfl])
  have hstep : t'.step c' last = .ok (.file (.text content)) := by
    rw [step, if_neg (by simp [hempty, hdot]), if_neg hup, if_neg (Nat.not_lt.2 hlong),
      hdir, Keyed.find?_insert_self]
  have hresolve : t'.resolve path = .ok (.file (.text content)) := by
    rw [resolve, hrefusal, hsegments]
    simp only [walk_append hwalk', walk, hstep]
    rfl
  rw [read, hresolve]

end Write

end FileTree

end Templating
