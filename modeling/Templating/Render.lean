import Templating.Calendar.Format
import Templating.Template

/-!
# Rendering

Nodes are rendered one after another against a context, up to the first error.
A loop and an enclosed body have a scope of their own while they are rendered;
an included template is rendered in the context of the directive, under its name
in the chain of names being included.

A template that is being included cannot be included again, so that inclusions
are nested no deeper than there are names for an inclusion to resolve to. These
are quoted names, and texts that come from the values of the context.

Main definitions:

* `Environment`, the files and the clock;
* `Node.render` and `renderNodes`, where inclusions are rendered by a function;
* `includableNames`, the names that an inclusion can resolve to;
* `render` and `Template.render`.
-/

namespace Templating

section Environment

/-- What rendering sees besides the context. -/
structure Environment where
  files : FileTree
  clock : Clock

/-- The output or an error, the context that is left, and the names of the
inclusions that have been begun, in order. -/
structure Rendered where
  outcome : Outcome RenderError String
  context : Context
  inclusions : List String

namespace Rendered

/-- An output that leaves the context as it is. -/
def ok (output : String) (c : Context) : Rendered :=
  ⟨.ok output, c, []⟩

/-- An error that leaves the context as it is. -/
def error (cause : RenderError) (c : Context) : Rendered :=
  ⟨.error cause, c, []⟩

/-- Goes on in the context that is left, and puts the outputs together. -/
def followedBy (r : Rendered) (next : Context → Rendered) : Rendered :=
  match r.outcome with
  | .ok s =>
      let rest := next r.context
      ⟨rest.outcome.map (s ++ ·), rest.context, r.inclusions ++ rest.inclusions⟩
  | .error _ => r
  | .exhausted => r

/-- Changes the output. -/
def mapOutput (f : String → String) (r : Rendered) : Rendered :=
  { r with outcome := r.outcome.map f }

/-- Takes away the innermost scope of the context that is left. -/
def leaveScope (r : Rendered) : Rendered :=
  { r with context := r.context.pop.2 }

/-- Takes the last name off the chain of the context that is left. -/
def leaveInclude (r : Rendered) : Rendered :=
  { r with context := r.context.popInclude.2 }

/-- An inclusion of the given name has been begun before. -/
def afterInclusion (name : String) (r : Rendered) : Rendered :=
  { r with inclusions := name :: r.inclusions }

/-- An outcome that leaves the context as it is. -/
def ofExcept (result : Except RenderError String) (c : Context) : Rendered :=
  match result with
  | .ok s => ok s c
  | .error e => error e c

end Rendered

end Environment

section Leaves

/-- The current date and time. An absent format stands for the default one. -/
def renderNow (clock : Clock) (format : Expression) (c : Context) :
    Except RenderError String :=
  let text := ((format.resolve? c).map Value.outputText).getD Tag.defaultFormat
  match clock.moment.format? text with
  | some s => .ok s
  | none => .error (.invalidFormat text)

/-- The loader for an inclusion of the given name, which must not be going on. -/
def inclusionLoader (c : Context) (name : String) : Except RenderError Loader :=
  match c.loader with
  | none => .error (.missingLoader name)
  | some loader =>
      if c.includes.contains name then
        .error (.recursiveInclude name c.includes)
      else
        .ok loader

/-- Another template, rendered by `included` under its name. -/
def renderInclusion
    (files : FileTree) (included : List Node → Context → Rendered)
    (name : String) (c : Context) : Rendered :=
  match inclusionLoader c name with
  | .error e => .error e c
  | .ok loader =>
      Rendered.afterInclusion name
        (match loader.load files name with
        | .error e => .error (.inclusion name e) c
        | .ok template =>
            (included template.nodes (c.pushInclude name)).leaveInclude)

/-- A body once in each of the given scopes. -/
def renderEach (body : Context → Rendered) : List Scope → Context → Rendered
  | [], c => .ok "" c
  | scope :: rest, c =>
      (body (c.push scope)).leaveScope.followedBy (renderEach body rest)

/-- The items of a loop: those of an array. -/
def loopItems (source : Expression) (c : Context) : List Value :=
  match source.resolve? c with
  | some (.array items) => items
  | _ => []

end Leaves

section Nodes

variable (env : Environment) (included : List Node → Context → Rendered)

mutual

/-- Renders a node. -/
def Node.render : Node → Context → Rendered
  | .text content, c => .ok content c
  | .placeholder expression, c => .ok (expression.outputText c) c
  | .loop item source body otherwise, c =>
      match loopItems source c with
      | [] => renderNodes otherwise c
      | v :: rest => renderEach (renderNodes body) (Node.loopFrames item (v :: rest)) c
  | .branch condition whenTrue whenFalse, c =>
      if ((condition.resolve? c).map Value.isTruthy).getD false then
        renderNodes whenTrue c
      else
        renderNodes whenFalse c
  | .inclusion name, c =>
      renderInclusion env.files included (name.outputText c) c
  | .now format, c => .ofExcept (renderNow env.clock format c) c
  | .simple handler, c => .ofExcept (handler c) c
  | .enclosed frame body, c =>
      let r :=
        match frame.bindings with
        | none => renderNodes body c
        | some bindings => (renderNodes body (c.push bindings)).leaveScope
      r.mapOutput fun s => frame.opening ++ s ++ frame.closing

/-- Renders nodes one after another, up to the first error. -/
def renderNodes : List Node → Context → Rendered
  | [], c => .ok "" c
  | node :: rest, c => (node.render c).followedBy (renderNodes rest)

end

end Nodes

section Names

/-- The positions of the iterations over an array, as values. -/
def Value.positions : Value → List Value
  | .array items =>
      (List.range items.length).map (Node.loopPosition · items.length)
  | _ => []

/-- The parts of a value and of the positions in its arrays. -/
def Value.reachable (v : Value) : List Value :=
  v.parts ++ (v.parts.flatMap Value.positions).flatMap Value.parts

/-- The texts that a value and its number of items can give. -/
def Value.spellings (v : Value) : List String :=
  v.outputText :: (v.count?.map Value.outputText).toList

mutual

/-- The scopes that a node binds around a body. -/
def Node.bindings : Node → List Scope
  | .enclosed frame body => frame.bindings.toList ++ bindingsOf body
  | .loop _ _ body otherwise => bindingsOf body ++ bindingsOf otherwise
  | .branch _ whenTrue whenFalse => bindingsOf whenTrue ++ bindingsOf whenFalse
  | .text _ => []
  | .placeholder _ => []
  | .inclusion _ => []
  | .now _ => []
  | .simple _ => []

/-- The scopes that nodes bind around bodies. -/
def bindingsOf : List Node → List Scope
  | [] => []
  | node :: rest => node.bindings ++ bindingsOf rest

end

/-- The quoted names in all files that can be parsed. -/
def fileLiterals (files : FileTree) (strict : Bool) : List String :=
  files.texts.flatMap fun source =>
    match Template.parse strict source with
    | .ok t => literalsOf t.nodes
    | .error _ => []

/-- The names that an inclusion can resolve to while the nodes are rendered. -/
def includableNames (files : FileTree) (nodes : List Node) (c : Context) :
    List String :=
  let strict := (c.loader.map Loader.strict).getD false
  let values := (c.scopes ++ bindingsOf nodes).flatMap (List.map Prod.snd)
  "" :: literalsOf nodes ++ fileLiterals files strict ++
    (values.flatMap Value.reachable).flatMap Value.spellings

end Names

section Render

/-- Renders nodes with inclusions nested less deep than the bound. -/
def renderWithin (env : Environment) : Nat → List Node → Context → Rendered
  | 0, _, c => ⟨.exhausted, c, []⟩
  | depth + 1, nodes, c => renderNodes env (renderWithin env depth) nodes c

/-- Renders nodes. The bound is above the number of names that can be in the
chain at once. -/
def render (env : Environment) (nodes : List Node) (c : Context) : Rendered :=
  renderWithin env ((includableNames env.files nodes c).length + 1) nodes c

/-- Renders a template. -/
def Template.render (env : Environment) (t : Template) (c : Context) :
    Rendered :=
  Templating.render env t.nodes c

end Render

end Templating
