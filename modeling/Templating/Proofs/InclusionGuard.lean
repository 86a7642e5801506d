import Templating.Proofs.Concatenation
import Templating.Proofs.TwoRuns

/-!
# The guard against recursion only adds errors

An inclusion is refused if its name is in the chain of names being included.  The
chain is read for nothing else: with a longer chain, the same nodes give the same
result, or are stopped by a refusal.

**Two runs.**  The contexts have the same scopes and the same loader, and the chain
of the second has all names of the first (`LongerChain`).  Both sides resolve the
same names.  Where both let an inclusion begin, the name is added to both chains, so
that the second chain stays the longer one; where only the second refuses it, the
second rendering ends with this error.

Main definition: `LongerChain`.  Main statement:
`renderResult_eq_or_recursiveInclude`.
-/

namespace Templating

section Defs

/-- The refusal of an inclusion that is going on already. -/
def RenderError.IsRecursion (e : RenderError) : Prop :=
  ∃ name including, e = .recursiveInclude name including

/-- Two contexts that differ at most in the names being included, where those of the
first are among those of the second. -/
structure LongerChain (c c' : Context) : Prop where
  scopes : c.scopes = c'.scopes
  loader : c.loader = c'.loader
  includes : c.includes ⊆ c'.includes

end Defs

section Agreement

variable {c c' : Context}

namespace LongerChain

theorem push (h : LongerChain c c') (scope : Scope) :
    LongerChain (c.push scope) (c'.push scope) where
  scopes := congrArg (scope :: ·) h.scopes
  loader := h.loader
  includes := h.includes

theorem pushInclude (h : LongerChain c c') (name : String) :
    LongerChain (c.pushInclude name) (c'.pushInclude name) where
  scopes := h.scopes
  loader := h.loader
  includes := List.append_subset.2
    ⟨List.Subset.trans h.includes (List.subset_append_left _ _),
      List.subset_append_right _ _⟩

theorem of_pushInclude (c : Context) (name : String) :
    LongerChain c (c.pushInclude name) where
  scopes := rfl
  loader := rfl
  includes := List.subset_append_left _ _

theorem resolve?_eq (h : LongerChain c c') (e : Expression) :
    e.resolve? c = e.resolve? c' := by
  have hget : ∀ name, c.get? name = c'.get? name := by
    intro name
    simp only [Context.get?, h.scopes]
  simp only [Expression.resolve?, hget]

/-- The longer chain refuses what the shorter one refuses, and perhaps more. -/
theorem inclusionLoader_cases (h : LongerChain c c') (name : String) :
    inclusionLoader c' name = inclusionLoader c name ∨
      ∃ e, e.IsRecursion ∧ inclusionLoader c' name = .error e := by
  unfold inclusionLoader
  rw [← h.loader]
  cases c.loader with
  | none => exact .inl rfl
  | some loader =>
      by_cases hmem : name ∈ c'.includes
      · refine .inr ⟨_, ⟨name, c'.includes, rfl⟩, ?_⟩
        simp [hmem]
      · have hmem' : name ∉ c.includes := fun hname => hmem (h.includes hname)
        refine .inl ?_
        simp [hmem, hmem']

end LongerChain

theorem agreement_longerChain :
    Agreement LongerChain fun _ => True where
  push h scope := h.push scope
  resolve? h e _ := h.resolve?_eq e

end Agreement

section Renderings

variable {env : Environment}

theorem LongerChain.renderInclusion_sideBySide
    {included : List Node → Context → Rendered}
    (hincluded : ∀ nodes, AllBuiltin nodes →
      SideBySide LongerChain RenderError.IsRecursion (included nodes))
    (name : String) :
    SideBySide LongerChain RenderError.IsRecursion
      (renderInclusion env.files included name) := by
  intro c c' h
  unfold renderInclusion
  rcases h.inclusionLoader_cases name with hsame | ⟨e, he, herror⟩
  · rw [hsame]
    cases inclusionLoader c name with
    | error e => exact .refl _
    | ok loader =>
        cases hload : loader.load env.files name with
        | error e =>
            simp only [hload]
            exact .refl _
        | ok template =>
            obtain ⟨path, source, -, -, hparse⟩ := Loader.load_eq_ok hload
            simp only [hload]
            exact hincluded template.nodes (parseTokens_builtin hparse)
              _ _ (h.pushInclude name)
  · rw [herror]
    exact .of_error he

theorem renderWithin_longerChain (env : Environment) (depth : Nat) :
    ∀ nodes, AllBuiltin nodes →
      SideBySide LongerChain RenderError.IsRecursion
        (renderWithin env depth nodes) := by
  induction depth with
  | zero => exact fun _ _ _ _ _ => .refl _
  | succ depth ih =>
      intro nodes hbuiltin
      exact renderNodes_sideBySide agreement_longerChain
        (context_renderWithin env depth)
        (LongerChain.renderInclusion_sideBySide ih) nodes hbuiltin
        fun _ _ => trivial

/-- An inclusion that gives an output has found a template, whose nodes have given
this output under the chain with the name added. -/
theorem renderInclusion_eq_ok {included : List Node → Context → Rendered}
    {files : FileTree} {name output : String} {c : Context}
    (h : (renderInclusion files included name c).outcome = .ok output) :
    ∃ loader template, c.loader = some loader ∧
      loader.load files name = .ok template ∧
      (included template.nodes (c.pushInclude name)).outcome = .ok output := by
  unfold renderInclusion at h
  cases hguard : inclusionLoader c name with
  | error e =>
      rw [hguard] at h
      cases h
  | ok loader =>
      rw [hguard] at h
      cases hload : loader.load files name with
      | error e =>
          simp only [hload] at h
          cases h
      | ok template =>
          simp only [hload] at h
          exact ⟨loader, template, (inclusionLoader_eq_ok_iff.1 hguard).1, hload, h⟩

end Renderings

section Results

variable {env : Environment} {c c' : Context} {depth : Nat}

theorem outcome_renderInclusion {name : Expression}
    (hdepth : (includableNames env.files [.inclusion name] c).length ≤ depth) :
    (renderInclusion env.files (renderWithin env depth)
      (name.outputText c) c).outcome =
        .ofExcept (renderResult env [.inclusion name] c) := by
  rw [← outcome_renderWithin (Nat.lt_succ_of_le hdepth), renderWithin, renderNodes,
    outcome_followedBy_nil, Node.render]

theorem renderResult_longerChain {nodes : List Node} (hbuiltin : AllBuiltin nodes)
    (h : LongerChain c c') :
    renderResult env nodes c' = renderResult env nodes c ∨
      ∃ name including,
        renderResult env nodes c' = .error (.recursiveInclude name including) := by
  let count c := (includableNames env.files nodes c).length
  -- one bound that is above the number of names on both sides
  have hdepth : count c < count c + count c' + 1 := by omega
  have hdepth' : count c' < count c + count c' + 1 := by omega
  have hsides :=
    renderWithin_longerChain env (count c + count c' + 1) nodes hbuiltin c c' h
  rw [outcome_renderWithin hdepth, outcome_renderWithin hdepth'] at hsides
  rcases hsides with hsame | ⟨e, ⟨name, including, rfl⟩, herror⟩
  · exact .inl (Outcome.ofExcept_injective hsame)
  · exact .inr ⟨name, including, Outcome.ofExcept_injective herror⟩

/-- **The guard only adds errors.** Under a longer chain, nodes of built-in tags give
the result that they give under the shorter one, or the refusal of an inclusion.  So
what an inclusion gives is also what its template gives without the inclusion. -/
theorem renderResult_eq_or_recursiveInclude (env : Environment) :
    (∀ nodes c c', AllBuiltin nodes → LongerChain c c' →
      renderResult env nodes c' = renderResult env nodes c ∨
        ∃ name including,
          renderResult env nodes c' = .error (.recursiveInclude name including)) ∧
    ∀ (name : Expression) (c : Context) (output : String),
      renderResult env [.inclusion name] c = .ok output →
        ∃ loader template, c.loader = some loader ∧
          loader.load env.files (name.outputText c) = .ok template ∧
          template.result env c = .ok output := by
  refine ⟨fun nodes c c' => renderResult_longerChain, fun name c output h => ?_⟩
  let count nodes c := (includableNames env.files nodes c).length
  have hends : ∀ depth, count [.inclusion name] c ≤ depth →
      (renderInclusion env.files (renderWithin env depth)
        (name.outputText c) c).outcome = .ok output := by
    intro depth hdepth
    rw [outcome_renderInclusion hdepth, h]
    rfl
  obtain ⟨loader, template, hloader, hload, -⟩ :=
    renderInclusion_eq_ok (hends _ (Nat.le_refl _))
  refine ⟨loader, template, hloader, hload, ?_⟩
  -- with the template at hand, a bound that is large enough for it, too
  let inner := c.pushInclude (name.outputText c)
  obtain ⟨loader', template', hloader', hload', hrendered⟩ := renderInclusion_eq_ok
    (hends (count [.inclusion name] c + count template.nodes inner + 1) (by omega))
  cases hloader.symm.trans hloader'
  cases hload.symm.trans hload'
  have hinner : renderResult env template.nodes inner = .ok output :=
    (renderResult_eq_iff (by simp only [count]; omega)).2 hrendered
  obtain ⟨path, source, -, -, hparse⟩ := Loader.load_eq_ok hload
  have hsides : renderResult env template.nodes inner = _ ∨ _ :=
    renderResult_longerChain (parseTokens_builtin hparse)
      (.of_pushInclude c (name.outputText c))
  rcases hsides with hsame | ⟨other, including, herror⟩
  · exact hsame.symm.trans hinner
  · rw [hinner] at herror
    cases herror

/-- The file `h`, a headline, includes the file `t`, its text. -/
def headlineFiles : Environment where
  files :=
    ⟨[("h", .text "\x7b% include 't' %\x7d!"), ("t", .text "News")], []⟩
  clock := ⟨0, 0, 0⟩

/-- A context in which the given names are being included. -/
def includingContext (names : List String) : Context :=
  ⟨[], [], some ⟨["."], false⟩, names⟩

/-- The headline is shown if nothing is being included, and refused inside its own
text; its template alone shows the same. -/
theorem renderResult_headline :
    AllBuiltin [.inclusion ⟨"'h'"⟩] ∧
      LongerChain (includingContext []) (includingContext ["t"]) ∧
      renderResult headlineFiles [.inclusion ⟨"'h'"⟩]
        (includingContext []) = .ok "News!" ∧
      (∃ name including,
        renderResult headlineFiles [.inclusion ⟨"'h'"⟩]
          (includingContext ["t"]) = .error (.recursiveInclude name including)) ∧
      ∃ loader template, (includingContext []).loader = some loader ∧
        loader.load headlineFiles.files "h" = .ok template ∧
        template.result headlineFiles (includingContext []) = .ok "News!" := by
  have hbuiltin : AllBuiltin [.inclusion ⟨"'h'"⟩] := ⟨trivial, trivial⟩
  have hlonger : LongerChain (includingContext []) (includingContext ["t"]) :=
    ⟨rfl, rfl, List.nil_subset _⟩
  have hshown : renderResult headlineFiles [.inclusion ⟨"'h'"⟩]
      (includingContext []) = .ok "News!" :=
    renderResult_of_outcome (by cbv)
  obtain ⟨hsides, hdirect⟩ := renderResult_eq_or_recursiveInclude headlineFiles
  refine ⟨hbuiltin, hlonger, hshown, ?_, hdirect _ _ _ hshown⟩
  rcases hsides _ _ _ hbuiltin hlonger with hsame | hrefused
  · have hother : renderResult headlineFiles [.inclusion ⟨"'h'"⟩]
        (includingContext ["t"]) =
          .error (.recursiveInclude "t" ["t", "h"]) :=
      renderResult_of_outcome (by cbv)
    rw [hshown, hother] at hsame
    cases hsame
  · exact hrefused

end Results

end Templating
