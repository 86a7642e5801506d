import Templating.Parser.Builtin

/-!
# Registered tags

Tags that a program can register next to the built-in ones or in place of them:
fixed texts, tags around a body, tags that take tokens or put tokens back, and
tags that register further tags.

Main definitions: the tags in the namespace `Tag`, the frames around their
bodies in `Enclosure`, and the handlers of simple tags in `Handler`.
-/

namespace Templating

section Enclosures

namespace Enclosure

/-- Brackets around a body. -/
def brackets : Enclosure :=
  ⟨none, "[", "]"⟩

/-- Bindings for a body. -/
def scope (bindings : Scope) : Enclosure :=
  ⟨some bindings, "", ""⟩

end Enclosure

end Enclosures

section Tags

namespace Tag

/-- A fixed text. -/
def const (content : String) : Tag := fun _ =>
  .done (.text content)

/-- A component of the directive, counted from its name. -/
def argument (name : String) (index : Nat) : Tag := fun token =>
  match token.components[index]? with
  | some component => .done (.text component)
  | none => .fail (.misuse name (.other ("no argument " ++ index.repr)))

/-- A body up to a closing directive. -/
def enclosing (name closing : String) (frame : Enclosure) : Tag := fun _ =>
  Script.body [closing] fun body =>
    Script.expectEnd name closing (.done (.enclosed frame body))

/-- All remaining tokens as a body. -/
def rest (frame : Enclosure) : Tag := fun _ =>
  .parse .never fun
    | .ok body => .done (.enclosed frame body)
    | .error e => .fail e

/-- Takes tokens up to a closing directive, at most so many. -/
def takeVerbatim (name closing : String) : Nat → List Token → Script
  | 0, _ => .fail (.unclosed name closing)
  | fuel + 1, taken =>
      .next fun
        | none => .fail (.unclosed name closing)
        | some token =>
            if token.tagName? = some closing then
              .done (.text (Token.displayAll taken.reverse))
            else
              takeVerbatim name closing fuel (token :: taken)

/-- The tokens up to a closing directive as text. -/
def verbatim (name closing : String) : Tag := fun _ =>
  .inspect fun view => takeVerbatim name closing view.queue.length []

/-- Takes tokens, and gives their number as text. -/
def takeTokens : Nat → Nat → Script
  | 0, taken => .done (.text taken.repr)
  | count + 1, taken =>
      .next fun
        | none => .done (.text taken.repr)
        | some _ => takeTokens count (taken + 1)

/-- Drops up to so many tokens and leaves the number of those dropped. -/
def skip (count : Nat) : Tag := fun _ =>
  takeTokens count 0

/-- Puts tokens in front of the queue, and leaves an empty text. -/
def expand (tokens : List Token) : Tag := fun _ =>
  tokens.foldl (fun script token => .prepend token script) (.done (.text ""))

/-- The source of the next token, which stays in the queue. -/
def peek : Tag := fun _ =>
  .inspect fun view =>
    .done (.text ((view.queue.head?.map Token.display).getD ""))

/-- Registers a tag, and leaves an empty text. -/
def define (name : String) (tag : Tag) : Tag := fun _ =>
  .register name tag (.done (.text ""))

/-- Whether the parser is strict, as text. -/
def strictness : Tag := fun _ =>
  .inspect fun view => .done (.text (if view.strict then "true" else "false"))

/-- Always fails. -/
def failing (name reason : String) : Tag := fun _ =>
  .fail (.misuse name (.other reason))

/-- A tag whose text is computed when the template is rendered. -/
def simple (handler : Handler) : Tag := fun _ =>
  .done (.simple handler)

end Tag

end Tags

section Handlers

namespace Handler

/-- A fixed text. -/
def const (content : String) : Handler := fun _ =>
  .ok content

/-- The value of an expression. -/
def value (expression : Expression) : Handler := fun context =>
  .ok (expression.outputText context)

/-- The number of scopes. -/
def depth : Handler := fun context =>
  .ok context.depth.repr

/-- The names being included, with commas between them. -/
def includes : Handler := fun context =>
  .ok (",".intercalate context.includes)

/-- Always fails. -/
def failing (reason : String) : Handler := fun _ =>
  .error (.handler reason)

end Handler

end Handlers

end Templating
