import Templating.Render

/-!
# Rendering restores the context

Loops and enclosed bodies push a scope, inclusions push a name.  Each of them is
taken away again when the body or the template has been rendered, whether it has
given an output or an error, so that the context that is left is the one that
rendering started with: the same scopes, the same loader and the same chain.

One lemma for each piece says that the piece keeps the context if what it is made
of does.  `context_renderNodes` puts them together by recursion on the nodes, and
`context_renderWithin` by induction on the nesting of inclusions.

Main statement: `render_restores_context`.
-/

namespace Templating

section Pieces

namespace Rendered

/-- One rendering after another keeps the context if both do. -/
theorem context_followedBy {r : Rendered} {next : Context → Rendered}
    {c : Context} (hr : r.context = c) (hnext : (next c).context = c) :
    (r.followedBy next).context = c := by
  unfold followedBy
  split
  · simp only [hr, hnext]
  · exact hr
  · exact hr

@[simp] theorem context_ofExcept
    (result : Except RenderError String) (c : Context) :
    (ofExcept result c).context = c := by
  cases result <;> rfl

@[simp] theorem context_mapOutput (f : String → String) (r : Rendered) :
    (r.mapOutput f).context = r.context := rfl

/-- A scope that is left as it was pushed is gone afterwards. -/
theorem context_leaveScope {r : Rendered} {c : Context} {scope : Scope}
    (h : r.context = c.push scope) : r.leaveScope.context = c := by
  simp only [leaveScope, h, Context.pop_push]

theorem context_leaveInclude {r : Rendered} {c : Context} {name : String}
    (h : r.context = c.pushInclude name) : r.leaveInclude.context = c := by
  simp only [leaveInclude, h, Context.popInclude_pushInclude]

end Rendered

theorem context_renderEach {body : Context → Rendered}
    (hbody : ∀ c, (body c).context = c) :
    ∀ (scopes : List Scope) (c : Context),
      (renderEach body scopes c).context = c
  | [], _ => rfl
  | scope :: rest, c =>
      Rendered.context_followedBy
        (Rendered.context_leaveScope (hbody (c.push scope)))
        (context_renderEach hbody rest c)

theorem context_renderInclusion {included : List Node → Context → Rendered}
    (hincluded : ∀ nodes c, (included nodes c).context = c)
    (files : FileTree) (name : String) (c : Context) :
    (renderInclusion files included name c).context = c := by
  unfold renderInclusion
  split
  · rfl
  · next loader _ =>
      simp only [Rendered.afterInclusion]
      split
      · rfl
      · exact Rendered.context_leaveInclude (hincluded _ _)

end Pieces

section Nodes

mutual

/-- A node keeps the context if the templates that it includes do. -/
theorem Node.context_render
    (env : Environment) {included : List Node → Context → Rendered}
    (hincluded : ∀ nodes c, (included nodes c).context = c) :
    ∀ (node : Node) (c : Context), (node.render env included c).context = c
  | .text _, _ => rfl
  | .placeholder _, _ => rfl
  | .loop item source body otherwise, c => by
      simp only [Node.render]
      split
      · exact context_renderNodes env hincluded otherwise c
      · exact context_renderEach (context_renderNodes env hincluded body) _ c
  | .branch condition whenTrue whenFalse, c => by
      simp only [Node.render]
      split
      · exact context_renderNodes env hincluded whenTrue c
      · exact context_renderNodes env hincluded whenFalse c
  | .inclusion name, c => by
      simp only [Node.render]
      exact context_renderInclusion hincluded _ _ c
  | .now _, c => by simp only [Node.render, Rendered.context_ofExcept]
  | .simple _, c => by simp only [Node.render, Rendered.context_ofExcept]
  | .enclosed frame body, c => by
      simp only [Node.render, Rendered.context_mapOutput]
      split
      · exact context_renderNodes env hincluded body c
      · exact Rendered.context_leaveScope
          (context_renderNodes env hincluded body _)

theorem context_renderNodes
    (env : Environment) {included : List Node → Context → Rendered}
    (hincluded : ∀ nodes c, (included nodes c).context = c) :
    ∀ (nodes : List Node) (c : Context),
      (renderNodes env included nodes c).context = c
  | [], _ => rfl
  | node :: rest, c => by
      simp only [renderNodes]
      exact Rendered.context_followedBy
        (Node.context_render env hincluded node c)
        (context_renderNodes env hincluded rest c)

end

end Nodes

section Render

theorem context_renderWithin (env : Environment) :
    ∀ (depth : Nat) (nodes : List Node) (c : Context),
      (renderWithin env depth nodes c).context = c
  | 0, _, _ => rfl
  | depth + 1, nodes, c =>
      context_renderNodes env (context_renderWithin env depth) nodes c

/-- **Rendering restores the context**, with whatever outcome it ends. -/
theorem render_restores_context (env : Environment) (nodes : List Node) (c : Context) :
    (render env nodes c).context = c :=
  context_renderWithin env _ nodes c

end Render

end Templating
