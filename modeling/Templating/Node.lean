import Templating.Error
import Templating.Expression

/-!
# Nodes

A parsed template is a list of nodes. Bodies and branches are lists of nodes in
turn.

Main definitions:

* `Node`, with `Handler` and `Enclosure` for what registered tags add;
* `Node.loopFrame`, the variables of one iteration;
* `inclusionLiterals`, the names that a node list includes literally.
-/

namespace Templating

section Node

/-- What a registered tag puts in its place, given the context. -/
abbrev Handler := Context → Except RenderError String

/-- How the body of a registered tag is put in its place: between two texts, and
in a scope of its own if it has bindings. -/
structure Enclosure where
  bindings : Option Scope
  opening : String
  closing : String

/-- A piece of a parsed template. -/
inductive Node where
  /-- Literal text. -/
  | text (content : String)
  /-- The value of an expression. -/
  | placeholder (expression : Expression)
  /-- A body for each item of an array, or the other branch if there is none. -/
  | loop (item : String) (source : Expression) (body otherwise : List Node)
  /-- One of two branches. -/
  | branch (condition : Expression) (whenTrue whenFalse : List Node)
  /-- Another template. -/
  | inclusion (name : Expression)
  /-- The current date and time. -/
  | now (format : Expression)
  /-- What a registered tag computes. -/
  | simple (handler : Handler)
  /-- A body that a registered tag encloses. -/
  | enclosed (frame : Enclosure) (body : List Node)

namespace Node

/-- The position of an iteration as a value: the count from one, and whether it
is the first or the last. -/
def loopPosition (index count : Nat) : Value :=
  .object
    [("counter", .ofNat (index + 1)),
     ("first", .bool (index = 0)),
     ("last", .bool (index + 1 = count))]

/-- The variables of an iteration: the item, and the position as `forloop`. -/
def loopFrame (item : String) (index count : Nat) (value : Value) : Scope :=
  Keyed.insert "forloop" (loopPosition index count) [(item, value)]

/-- The variables of all iterations, in order. -/
def loopFrames (item : String) (values : List Value) : List Scope :=
  values.mapIdx fun index value => loopFrame item index values.length value

end Node

end Node

section Literals

mutual

/-- The quoted names that a node includes. -/
def Node.inclusionLiterals : Node → List String
  | .inclusion name => name.literal?.toList
  | .loop _ _ body otherwise => literalsOf body ++ literalsOf otherwise
  | .branch _ whenTrue whenFalse => literalsOf whenTrue ++ literalsOf whenFalse
  | .enclosed _ body => literalsOf body
  | .text _ => []
  | .placeholder _ => []
  | .now _ => []
  | .simple _ => []

/-- The quoted names that nodes include. -/
def literalsOf : List Node → List String
  | [] => []
  | node :: rest => node.inclusionLiterals ++ literalsOf rest

end

end Literals

end Templating
