import Templating.Proofs.BuiltinNodes
import Templating.Proofs.ContextRestored

/-!
# Two renderings side by side

The same nodes are rendered in two contexts that agree in some way.  Both
renderings take the same branches and go through the same items as long as their
expressions have the same values, so that they can be followed together: the second
one ends as the first one does, unless it is stopped by an error of a kind that the
agreement allows.

What agreeing means is left open.  It must be kept by scopes that are pushed on both
sides (`Agreement`), and inclusions must end alike on both sides; the rest is the
same for every agreement.

Main definitions: `expressionsOf`, `SameOr`, `SideBySide` and `Agreement`.  Main
statement: `renderNodes_sideBySide`.
-/

namespace Templating

section Expressions

mutual

/-- All expressions in a node. -/
def Node.expressions : Node → List Expression
  | .text _ => []
  | .placeholder expression => [expression]
  | .loop _ source body otherwise =>
      source :: (expressionsOf body ++ expressionsOf otherwise)
  | .branch condition whenTrue whenFalse =>
      condition :: (expressionsOf whenTrue ++ expressionsOf whenFalse)
  | .inclusion name => [name]
  | .now format => [format]
  | .simple _ => []
  | .enclosed _ body => expressionsOf body

/-- All expressions in nodes. -/
def expressionsOf : List Node → List Expression
  | [] => []
  | node :: rest => node.expressions ++ expressionsOf rest

end

end Expressions

section Outcomes

/-- The second outcome is the first one, or an error of the kind. -/
def SameOr (kind : RenderError → Prop) (o o' : Outcome RenderError String) :
    Prop :=
  o' = o ∨ ∃ e, kind e ∧ o' = .error e

variable {kind : RenderError → Prop}

theorem SameOr.refl (o : Outcome RenderError String) : SameOr kind o o :=
  .inl rfl

theorem SameOr.of_error {o : Outcome RenderError String} {e : RenderError}
    (he : kind e) : SameOr kind o (.error e) :=
  .inr ⟨e, he, rfl⟩

theorem SameOr.map {o o' : Outcome RenderError String} (h : SameOr kind o o')
    (f : String → String) : SameOr kind (o.map f) (o'.map f) := by
  rcases h with rfl | ⟨e, he, rfl⟩
  · exact .refl _
  · exact .of_error he

theorem sameOr_false_iff {o o' : Outcome RenderError String} :
    SameOr (fun _ => False) o o' ↔ o = o' := by
  constructor
  · rintro (rfl | ⟨e, he, -⟩)
    · rfl
    · exact he.elim
  · rintro rfl
    exact .refl _

/-- An error that stops the second rendering early stops what follows, too. -/
theorem SameOr.followedBy {r r' : Rendered} {next : Context → Rendered}
    (hr : SameOr kind r.outcome r'.outcome)
    (hnext : SameOr kind (next r.context).outcome (next r'.context).outcome) :
    SameOr kind (r.followedBy next).outcome (r'.followedBy next).outcome := by
  unfold Rendered.followedBy
  rcases hr with hsame | ⟨e, he, herror⟩
  · rw [hsame]
    cases hout : r.outcome with
    | ok s => exact hnext.map _
    | error e =>
        rw [hout] at hsame
        rw [hout, hsame]
        exact .refl _
    | exhausted =>
        rw [hout] at hsame
        rw [hout, hsame]
        exact .refl _
  · rw [herror]
    exact .inr ⟨e, he, herror⟩

end Outcomes

section Pieces

/-- In contexts that agree, the second rendering ends as the first one or with an
error of the kind. -/
def SideBySide (agree : Context → Context → Prop) (kind : RenderError → Prop)
    (body : Context → Rendered) : Prop :=
  ∀ c c', agree c c' → SameOr kind (body c).outcome (body c').outcome

variable {agree : Context → Context → Prop} {kind : RenderError → Prop}

theorem SideBySide.followedBy {body next : Context → Rendered}
    (hbody : SideBySide agree kind body) (hnext : SideBySide agree kind next)
    (hkeeps : ∀ c, (body c).context = c) :
    SideBySide agree kind fun c => (body c).followedBy next := by
  intro c c' h
  refine (hbody c c' h).followedBy ?_
  -- both bodies have left their contexts as they were
  rw [hkeeps c, hkeeps c']
  exact hnext c c' h

theorem SideBySide.renderEach {body : Context → Rendered}
    (hpush : ∀ {c c'}, agree c c' → ∀ scope, agree (c.push scope) (c'.push scope))
    (hbody : SideBySide agree kind body) (hkeeps : ∀ c, (body c).context = c)
    (scopes : List Scope) : SideBySide agree kind (renderEach body scopes) := by
  induction scopes with
  | nil => exact fun _ _ _ => .refl _
  | cons scope rest ih =>
      have hfirst : SideBySide agree kind
          fun c => (body (c.push scope)).leaveScope :=
        fun c c' h => hbody (c.push scope) (c'.push scope) (hpush h scope)
      exact hfirst.followedBy ih fun c =>
        Rendered.context_leaveScope (hkeeps (c.push scope))

end Pieces

section Nodes

/-- A way in which contexts can agree: it is kept when both are given the same new
scope, and certain expressions have the same value on both sides. -/
structure Agreement (agree : Context → Context → Prop)
    (readable : Expression → Prop) : Prop where
  push : ∀ {c c'}, agree c c' → ∀ scope, agree (c.push scope) (c'.push scope)
  resolve? : ∀ {c c'}, agree c c' → ∀ e, readable e →
    e.resolve? c = e.resolve? c'

variable {env : Environment} {included : List Node → Context → Rendered}
  {agree : Context → Context → Prop} {readable : Expression → Prop}
  {kind : RenderError → Prop}

mutual

theorem Node.render_sideBySide
    (hagree : Agreement agree readable)
    (hkeeps : ∀ nodes c, (included nodes c).context = c)
    (hinclusion : ∀ name,
      SideBySide agree kind (renderInclusion env.files included name)) :
    ∀ node : Node, node.IsBuiltin → (∀ e ∈ node.expressions, readable e) →
      SideBySide agree kind (node.render env included)
  | .text content, _, _ => fun _ _ _ => by
      simp only [Node.render]
      exact .refl _
  | .placeholder expression, _, hreads => fun c c' h => by
      have hresolve := hagree.resolve? h expression (List.forall_mem_cons.1 hreads).1
      simp only [Node.render, Expression.outputText, hresolve]
      exact .refl _
  | .loop item source body otherwise, hbuiltin, hreads => fun c c' h => by
      obtain ⟨hsource, hparts⟩ := List.forall_mem_cons.1 hreads
      obtain ⟨hbody, hotherwise⟩ := List.forall_mem_append.1 hparts
      -- the same items give the same scopes, whatever lies below them
      have hitems : loopItems source c = loopItems source c' := by
        simp only [loopItems, hagree.resolve? h source hsource]
      simp only [Node.render, ← hitems]
      cases loopItems source c with
      | nil =>
          exact renderNodes_sideBySide hagree hkeeps hinclusion otherwise
            hbuiltin.2 hotherwise c c' h
      | cons v items =>
          have hparallel := renderNodes_sideBySide hagree hkeeps hinclusion body
            hbuiltin.1 hbody
          have heach := hparallel.renderEach hagree.push
            (context_renderNodes env hkeeps body)
          exact heach (Node.loopFrames item (v :: items)) c c' h
  | .branch condition whenTrue whenFalse, hbuiltin, hreads => fun c c' h => by
      obtain ⟨hcondition, hparts⟩ := List.forall_mem_cons.1 hreads
      obtain ⟨htrue, hfalse⟩ := List.forall_mem_append.1 hparts
      -- the condition has one value, so that both sides take the same branch
      simp only [Node.render, ← hagree.resolve? h condition hcondition]
      split
      · exact renderNodes_sideBySide hagree hkeeps hinclusion whenTrue hbuiltin.1
          htrue c c' h
      · exact renderNodes_sideBySide hagree hkeeps hinclusion whenFalse hbuiltin.2
          hfalse c c' h
  | .inclusion name, _, hreads => fun c c' h => by
      have hresolve := hagree.resolve? h name (List.forall_mem_cons.1 hreads).1
      simp only [Node.render, Expression.outputText, ← hresolve]
      exact hinclusion _ c c' h
  | .now format, _, hreads => fun c c' h => by
      have hresolve := hagree.resolve? h format (List.forall_mem_cons.1 hreads).1
      simp only [Node.render, renderNow, ← hresolve]
      split <;> exact .refl _

/-- **Built-in nodes are rendered alike in contexts that agree**, if inclusions
are. -/
theorem renderNodes_sideBySide
    (hagree : Agreement agree readable)
    (hkeeps : ∀ nodes c, (included nodes c).context = c)
    (hinclusion : ∀ name,
      SideBySide agree kind (renderInclusion env.files included name)) :
    ∀ nodes : List Node, AllBuiltin nodes →
      (∀ e ∈ expressionsOf nodes, readable e) →
        SideBySide agree kind (renderNodes env included nodes)
  | [], _, _ => fun _ _ _ => by
      simp only [renderNodes]
      exact .refl _
  | node :: rest, hbuiltin, hreads => by
      obtain ⟨hnode, hrest⟩ := List.forall_mem_append.1 hreads
      have hfirst := Node.render_sideBySide hagree hkeeps hinclusion node
        hbuiltin.1 hnode
      have hnext := renderNodes_sideBySide hagree hkeeps hinclusion rest
        hbuiltin.2 hrest
      intro c c' h
      simp only [renderNodes]
      exact hfirst.followedBy hnext (Node.context_render env hkeeps node) c c' h

end

end Nodes

end Templating
