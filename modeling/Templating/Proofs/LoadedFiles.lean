import Mathlib.Tactic.SplitIfs
import Templating.Template

/-!
# The files that templates are loaded from

Following a path never leaves the tree: every directory that it passes is below
one of the directories that the tree shows, so that what is read is one of the
texts of the tree.  A template that has been loaded is what such a text is parsed
to.

Main statements: `FileTree.mem_texts_of_read` and `Loader.load_eq_ok`.
-/

namespace Templating

section Files

/-- All texts below the directories that a cursor has passed are in the tree. -/
structure Cursor.Within (t : FileTree) (c : Cursor) : Prop where
  dir : ∀ text ∈ textsOf c.dir, text ∈ t.texts
  passed : ∀ p ∈ c.passed, ∀ text ∈ textsOf p.2, text ∈ t.texts

theorem mem_textsOf {entries : List (String × Entry)} {name text : String}
    {entry : Entry} (h : (name, entry) ∈ entries) (htext : text ∈ entry.texts) :
    text ∈ textsOf entries := by
  induction entries with
  | nil => simp at h
  | cons head rest ih =>
      rcases List.mem_cons.1 h with rfl | hrest
      · exact List.mem_append_left _ htext
      · exact List.mem_append_right _ (ih hrest)

namespace FileTree

variable {t : FileTree}

theorem start_within (level : Nat) : (t.start level).Within t := by
  refine ⟨?_, ?_⟩
  · intro text htext
    simp only [start, List.getD_eq_getElem?_getD] at htext
    cases hlevel : t.levels[level]? with
    | none => simp [hlevel, textsOf] at htext
    | some dir =>
        simp only [hlevel, Option.getD_some] at htext
        exact List.mem_flatMap.2 ⟨dir, List.mem_of_getElem? hlevel, htext⟩
  · rintro p ⟨⟩

theorem up_within {c : Cursor} (h : c.Within t) : (t.up c).Within t := by
  unfold up
  split
  · next p rest hpassed =>
      have hmem : ∀ q ∈ rest, q ∈ c.passed := fun q hq => by
        rw [hpassed]
        exact List.mem_cons_of_mem _ hq
      refine ⟨?_, fun q hq => h.passed q (hmem q hq)⟩
      exact h.passed _ (by rw [hpassed]; exact List.mem_cons_self)
  · split
    · exact start_within _
    · exact h

/-- A step leads to a directory in the tree, or to an entry of it. -/
theorem step_within {c : Cursor} (h : c.Within t) {segment : String}
    {found : Found} (hstep : t.step c segment = .ok found) :
    match found with
    | .directory d => d.Within t
    | .file entry => ∀ text ∈ entry.texts, text ∈ t.texts := by
  unfold step at hstep
  split_ifs at hstep
  · cases hstep
    exact h
  · cases hstep
    exact up_within h
  · split at hstep
    · cases hstep
    · next d hfind =>
        cases hstep
        refine ⟨fun text htext => ?_, ?_⟩
        · exact h.dir text (mem_textsOf (mem_of_find? hfind) htext)
        · rintro p (_ | ⟨_, hp⟩)
          · exact h.dir
          · exact h.passed p hp
    · next entry _ hfind =>
        cases hstep
        exact fun text htext =>
          h.dir text (mem_textsOf (mem_of_find? hfind) htext)

theorem walk_within {entry : Entry} :
    ∀ (segments : List String) {c : Cursor}, c.Within t →
      t.walk c segments = .ok (.file entry) →
        ∀ text ∈ entry.texts, text ∈ t.texts
  | [], _, _, hwalk => by
      simp [walk] at hwalk
  | segment :: rest, c, h, hwalk => by
      simp only [walk] at hwalk
      split at hwalk
      · cases hwalk
      · next d hstep => exact walk_within rest (step_within h hstep) hwalk
      · next e hstep =>
          split_ifs at hwalk
          cases hwalk
          exact step_within h hstep

/-- What is read from a tree is one of its texts. -/
theorem mem_texts_of_read {path content : String}
    (h : t.read path = .ok content) : content ∈ t.texts := by
  unfold read at h
  split at h
  · next text hresolve =>
      cases h
      unfold resolve at hresolve
      split at hresolve
      · cases hresolve
      · exact walk_within _ (start_within _) hresolve _
          (List.mem_singleton.2 rfl)
  · cases h
  · cases h
  · cases h

end FileTree

/-- A template that has been loaded is that of a file that the name stands
for. -/
theorem Loader.load_eq_ok {loader : Loader} {files : FileTree} {name : String}
    {template : Template} (h : loader.load files name = .ok template) :
    ∃ path source, loader.find? files name = some path ∧
      files.read path = .ok source ∧
      parseTokens loader.strict (Token.tokenize source) = .ok template.nodes := by
  unfold load at h
  split at h
  · split at h
    · cases h
    · next path hfind =>
        unfold loadFile at h
        cases hread : files.read path with
        | error e => simp [hread, Except.map] at h
        | ok source =>
            simp only [hread, Template.parse] at h
            cases hparse : parseTokens loader.strict (Token.tokenize source) with
            | error e => simp [hparse, Except.map] at h
            | ok nodes =>
                simp only [hparse, Except.map, Except.ok.injEq] at h
                subst h
                exact ⟨path, source, hfind, hread, hparse⟩
  · cases h

/-- A file that the name stands for is loaded if it can be read and parsed. -/
theorem Loader.load_eq_of_find? {loader : Loader} {files : FileTree}
    {name path source : String} {nodes : List Node}
    (hfind : loader.find? files name = some path)
    (hread : files.read path = .ok source)
    (hparse : parseTokens loader.strict (Token.tokenize source) = .ok nodes) :
    loader.load files name = .ok ⟨some name, nodes⟩ := by
  have hcontained : Path.isContained name := by
    unfold find? at hfind
    split_ifs at hfind with h
    exact h
  simp [load, hcontained, hfind, loadFile, hread, Template.parse, hparse,
    Except.map, Template.named]

end Files

end Templating
