import Templating.Proofs.RenderSteps

/-!
# The scopes that are open

Every scope above those that were there when rendering began is taken away by a task that
is still to be done, and the bottom scope is never written to.  Outside all loops and other
bodies with a scope of their own, a rendering therefore sees the variables that it began
with, however much has been rendered before.

Main definition: `Grounded`, which holds at every stage of a rendering
(`grounded_of_leads`).
-/

namespace Templating

section Grounded

/-- How a stage stands to the context in which rendering began: above the scopes of that
there is one for each that is open, and the bottom scope is the same. -/
structure Grounded (c : Context) (m : Stage) : Prop where
  inner : m.context.inner.length = c.inner.length + m.openScopes
  bottom : m.context.bottom = c.bottom

variable {env : Environment} {c : Context} {m n : Stage}

theorem grounded_start (nodes : List Node) (c : Context) :
    Grounded c (.start nodes c) :=
  ⟨rfl, rfl⟩

theorem Grounded.step (h : Grounded c m) (hstep : m.step env = some n) :
    Grounded c n := by
  have hinner := h.inner
  cases Stage.change_of_step hstep with
  | keep context names scopes =>
      refine ⟨?_, by rw [context, h.bottom]⟩
      rw [context, scopes, hinner]
  | pushScope context names scopes =>
      refine ⟨?_, by rw [context]; exact h.bottom⟩
      rw [context, scopes, Context.push, List.length_cons, hinner, Nat.add_assoc]
  | popScope context names scopes =>
      refine ⟨?_, by rw [context, Context.pop_bottom, h.bottom]⟩
      rw [context, Context.pop_inner, List.length_tail, hinner, scopes]
      omega
  | enterInclusion guard loaded context names scopes =>
      refine ⟨?_, by rw [context]; exact h.bottom⟩
      rw [context, scopes]
      exact hinner
  | leaveInclusion context names scopes =>
      refine ⟨?_, by rw [context]; exact h.bottom⟩
      rw [context, scopes]
      exact hinner

/-- Every stage of a rendering is grounded in its context. -/
theorem grounded_of_leads {nodes : List Node}
    (h : (Stage.start nodes c).Leads env m) : Grounded c m := by
  induction h with
  | refl => exact grounded_start nodes c
  | tail _ hstep ih => exact ih.step hstep

/-- **Where no scope is open**, a rendering that began with the bottom scope only sees its
variables. -/
theorem Grounded.get?_eq (h : Grounded c m) (hc : c.inner = []) (hm : m.openScopes = 0)
    (name : String) : m.context.get? name = Keyed.find? name c.bottom := by
  have hlength := h.inner
  rw [hc, hm] at hlength
  rw [Context.get?, Context.scopes, List.eq_nil_of_length_eq_zero hlength, h.bottom]
  simp

end Grounded

end Templating
