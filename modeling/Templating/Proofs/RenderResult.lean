import Mathlib.Logic.Relation
import Templating.Proofs.RenderTermination

/-!
# The result of a rendering

A rendering ends with an output or an error, and never at its bound.  The bound
comes from the names that can be included, and so from the nodes and the context;
what the rendering gives does not: from one start, the steps come to one end only,
and the outcome of a template is the one that its last stage has.

So the results of different templates, or in different contexts, can be compared
under one bound that is large enough for both.

Main definitions: `renderResult` and `Template.result`.  Main statements:
`Template.exists_last`, and `renderResult_eq_iff`, which reads the result off any
rendering with a large bound.
-/

namespace Templating

section Final

variable {env : Environment}

/-- Whatever a stage leads to, its last stage can still be reached from there. -/
theorem Stage.leads_final_of_leads {m n last : Stage} (h : m.Leads env n)
    (hleads : m.Leads env last) (hlast : last.step env = none) : n.Leads env last := by
  have hunique : Relator.RightUnique fun m n : Stage => m.step env = some n := by
    intro m n n' hn hn'
    exact Option.some.inj (hn.symm.trans hn')
  rcases Relation.ReflTransGen.total_of_right_unique hunique h hleads with hon | hback
  · exact hon
  · rcases hback.cases_head with rfl | ⟨n', hstep, -⟩
    · exact .refl
    · rw [hlast] at hstep
      cases hstep

/-- The steps of a rendering come to one last stage only. -/
theorem Stage.final_unique {m first second : Stage}
    (hfirst : m.Leads env first) (hsecond : m.Leads env second)
    (hlast : first.step env = none) (hlast' : second.step env = none) :
    first = second := by
  rcases (Stage.leads_final_of_leads hfirst hsecond hlast').cases_head with
    heq | ⟨n, hstep, -⟩
  · exact heq
  · rw [hlast] at hstep
    cases hstep

namespace Template

variable {t : Template} {c : Context} {m : Stage}

/-- **The last stage has the outcome of the rendering.** -/
theorem exists_last (env : Environment) (t : Template) (c : Context) :
    ∃ last, (Stage.start t.nodes c).Leads env last ∧ last.step env = none ∧
      (t.render env c).outcome = .ofExcept last.output := by
  obtain ⟨last, hleads, hlast, houtcome, -⟩ := leads_final env t.nodes c
  exact ⟨last, hleads, hlast, houtcome⟩

/-- A stage without a next step is the last one. -/
theorem outcome_of_leads (h : (Stage.start t.nodes c).Leads env m)
    (hlast : m.step env = none) : (t.render env c).outcome = .ofExcept m.output := by
  obtain ⟨last, hleads, hlast', houtcome⟩ := exists_last env t c
  rw [Stage.final_unique h hleads hlast hlast', houtcome]

end Template

end Final

section Sequence

variable {r : Rendered} {next : Context → Rendered}

theorem Rendered.outcome_followedBy_of_ok {s : String} (h : r.outcome = .ok s) :
    (r.followedBy next).outcome = (next r.context).outcome.map (s ++ ·) := by
  simp only [followedBy, h]

theorem Rendered.outcome_followedBy_of_error {e : RenderError}
    (h : r.outcome = .error e) : (r.followedBy next).outcome = .error e := by
  simp only [followedBy, h]

/-- A node alone ends as it does in front of no others. -/
theorem outcome_followedBy_nil {env : Environment}
    {included : List Node → Context → Rendered} (r : Rendered) :
    (r.followedBy (renderNodes env included [])).outcome = r.outcome := by
  unfold Rendered.followedBy
  cases hout : r.outcome with
  | ok s => simp [renderNodes, Rendered.ok, Outcome.map]
  | error e => exact hout
  | exhausted => exact hout

end Sequence

section Result

/-- The output of the nodes, or the error that they raise. -/
def renderResult (env : Environment) (nodes : List Node) (c : Context) :
    Except RenderError String :=
  (render env nodes c).outcome.toExcept (render_ne_exhausted env nodes c)

/-- The output of a template, or the error that it raises. -/
def Template.result (env : Environment) (t : Template) (c : Context) :
    Except RenderError String :=
  renderResult env t.nodes c

theorem outcome_render (env : Environment) (nodes : List Node) (c : Context) :
    (render env nodes c).outcome = .ofExcept (renderResult env nodes c) :=
  (Outcome.ofExcept_toExcept _ _).symm

variable {env : Environment} {nodes : List Node} {c : Context} {depth : Nat}

theorem renderResult_of_outcome {r : Except RenderError String}
    (h : (render env nodes c).outcome = .ofExcept r) : renderResult env nodes c = r :=
  Outcome.toExcept_eq_of_eq_ofExcept h _

/-- A larger bound changes nothing. -/
theorem outcome_renderWithin
    (hdepth : (includableNames env.files nodes c).length < depth) :
    (renderWithin env depth nodes c).outcome =
      .ofExcept (renderResult env nodes c) := by
  obtain ⟨last, hleads, hlast, houtcome, -⟩ := leads_final_within hdepth
  obtain ⟨last', hleads', hlast', houtcome', -⟩ := leads_final env nodes c
  have hsame : last = last' := Stage.final_unique hleads hleads' hlast hlast'
  rw [houtcome, hsame, ← houtcome', outcome_render]

/-- The result can be read off a rendering with any bound above the number of
names. -/
theorem renderResult_eq_iff {r : Except RenderError String}
    (hdepth : (includableNames env.files nodes c).length < depth) :
    renderResult env nodes c = r ↔
      (renderWithin env depth nodes c).outcome = .ofExcept r := by
  rw [outcome_renderWithin hdepth]
  exact ⟨congrArg _, Outcome.ofExcept_injective⟩

/-- A single placeholder renders as its expression. -/
theorem renderResult_placeholder (env : Environment) (e : Expression) (c : Context) :
    renderResult env [.placeholder e] c = .ok (e.outputText c) := by
  refine renderResult_of_outcome ?_
  simp [render, renderWithin, renderNodes, Node.render, Rendered.ok, Rendered.followedBy,
    Outcome.map, Outcome.ofExcept]

end Result

end Templating
