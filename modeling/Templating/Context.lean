import Templating.Loader
import Templating.Value

/-!
# Contexts

What a template is rendered against: a stack of scopes, a loader, and the names
of the templates being included. A variable is looked up from the innermost
scope outwards and set in the innermost one. The bottom scope is never taken
away.

Main definitions:

* `Context`, and `Context.ofValue`, a context from the fields of an object;
* `get?`, `set`, `push` and `pop` on the scopes;
* `pushInclude` and `popInclude` on the names being included.
-/

namespace Templating

section Context

/-- Scopes from the innermost to the outermost above a bottom scope; a loader;
and the names being included, the outermost first. -/
structure Context where
  inner : List Scope
  bottom : Scope
  loader : Option Loader
  includes : List String

namespace Context

/-- A context with the given bottom scope and nothing else. -/
def ofScope (bottom : Scope) : Context :=
  ⟨[], bottom, none, []⟩

/-- The context without any variables. -/
def empty : Context :=
  ofScope []

/-- All scopes, the innermost first. -/
def scopes (c : Context) : List Scope :=
  c.inner ++ [c.bottom]

/-- The number of scopes. -/
def depth (c : Context) : Nat :=
  c.inner.length + 1

/-- The value of a variable: its binding in the innermost scope that has one. -/
def get? (c : Context) (name : String) : Option Value :=
  c.scopes.findSome? (Keyed.find? name)

/-- Binds a variable in the innermost scope. -/
def set (c : Context) (name : String) (value : Value) : Context :=
  match c.inner with
  | [] => { c with bottom := Keyed.insert name value c.bottom }
  | s :: rest => { c with inner := Keyed.insert name value s :: rest }

/-- Adds an innermost scope. -/
def push (c : Context) (scope : Scope) : Context :=
  { c with inner := scope :: c.inner }

/-- Takes the innermost scope away, unless it is the bottom one. -/
def pop (c : Context) : Option Scope × Context :=
  match c.inner with
  | [] => (none, c)
  | s :: rest => (some s, { c with inner := rest })

/-- The context with a loader attached. -/
def withLoader (c : Context) (loader : Loader) : Context :=
  { c with loader := some loader }

/-- Records that a template is being included. -/
def pushInclude (c : Context) (name : String) : Context :=
  { c with includes := c.includes ++ [name] }

/-- Leaves the innermost inclusion. -/
def popInclude (c : Context) : Option String × Context :=
  (c.includes.getLast?, { c with includes := c.includes.dropLast })

end Context

end Context

section OfValue

/-- A value that is no object cannot hold variables. -/
structure InvalidContext where
  found : Value

/-- A value as a message speaks of it: by the word for its type, with an article
unless there is only one such value. -/
def Value.description (v : Value) : String :=
  match v with
  | .null => v.typeName
  | .bool _ => "a boolean"
  | .number _ | .string _ => "a " ++ v.typeName
  | .array _ | .object _ => "an " ++ v.typeName

/-- The wording, which says what was found instead. -/
def InvalidContext.message (e : InvalidContext) : String :=
  "context root must be an object, found " ++ e.found.description

/-- A context whose variables are the fields of an object. -/
def Context.ofValue : Value → Except InvalidContext Context
  | .object fields => .ok (.ofScope fields)
  | v => .error ⟨v⟩

end OfValue

section Lemmas

namespace Context

@[simp] theorem pop_push (c : Context) (scope : Scope) :
    (c.push scope).pop = (some scope, c) := rfl

@[simp] theorem depth_push (c : Context) (scope : Scope) :
    (c.push scope).depth = c.depth + 1 := rfl

@[simp] theorem pop_inner (c : Context) : c.pop.2.inner = c.inner.tail := by
  unfold pop
  split
  · next hinner => simp [hinner]
  · next hinner => simp [hinner]

@[simp] theorem pop_bottom (c : Context) : c.pop.2.bottom = c.bottom := by
  unfold pop
  split <;> rfl

@[simp] theorem pop_includes (c : Context) : c.pop.2.includes = c.includes := by
  unfold pop
  split <;> rfl

@[simp] theorem pop_loader (c : Context) : c.pop.2.loader = c.loader := by
  unfold pop
  split <;> rfl

@[simp] theorem popInclude_pushInclude (c : Context) (name : String) :
    (c.pushInclude name).popInclude = (some name, c) := by
  simp [pushInclude, popInclude]

@[simp] theorem get?_ofScope (fields : Scope) (name : String) :
    (ofScope fields).get? name = Keyed.find? name fields := by
  simp [get?, scopes, ofScope]

/-- An innermost scope hides the scopes around it. -/
theorem get?_push (c : Context) (scope : Scope) (name : String) :
    (c.push scope).get? name =
      (Keyed.find? name scope).or (c.get? name) := by
  simp only [get?, push, scopes, List.cons_append, List.findSome?_cons]
  cases Keyed.find? name scope <;> rfl

/-- A variable that has been set has its value. -/
@[simp] theorem get?_set_self (c : Context) (name : String) (value : Value) :
    (c.set name value).get? name = some value := by
  cases hinner : c.inner <;> simp [get?, set, scopes, hinner]

/-- Setting a variable leaves the others as they are. -/
theorem get?_set_of_ne (c : Context) {name other : String} (value : Value)
    (h : other ≠ name) : (c.set name value).get? other = c.get? other := by
  cases hinner : c.inner <;>
    simp [get?, set, scopes, hinner, List.findSome?_cons, Keyed.find?_insert_of_ne _ _ h]

end Context

end Lemmas

end Templating
