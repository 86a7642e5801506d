import Templating.Node
import Templating.Outcome
import Templating.Token.Components

/-!
# The parser

A parser holds a queue of tokens and a table of tags. Text and placeholders
become nodes; a directive is handed to the tag of its name, which may take
further tokens, put tokens back, parse a body, or register other tags.

What a tag does is a `Script`: one operation after another, where each may
depend on what the ones before have shown. The parser runs the script.

Tags that put tokens back can keep a parser busy for ever, so that a parse has a
bound: the number of tokens in a row, each with the tokens of its tag nested in
it.

Main definitions:

* `Stop`, the test that ends a body;
* `Script` and `Tag`;
* `Parser`, `Script.run` and `Parser.parseUntil`.
-/

namespace Templating

section Script

/-- What a tag can see of a parser without changing it. -/
structure View where
  queue : List Token
  tagNames : List String
  strict : Bool

/-- Which directive ends a body. The view is that of the parser after the
directive has been taken from the queue. -/
abbrev Stop := View → Token → Bool

/-- Ends a body at the directives with the given names. -/
def Stop.named (names : List String) : Stop := fun _ token =>
  match token.tagName? with
  | some name => names.contains name
  | none => false

/-- Ends a body at no directive. -/
def Stop.never : Stop := fun _ _ => false

/-- Ends a body at the directive that has so many tokens behind it. -/
def Stop.remaining (count : Nat) : Stop := fun view _ =>
  view.queue.length == count

/-- What a tag does to the parser, step by step, until it gives a node or an
error. -/
inductive Script where
  | done (node : Node)
  | fail (error : ParseError)
  /-- Takes the next token, if there is one. -/
  | next (cont : Option Token → Script)
  /-- Puts a token in front of the queue. -/
  | prepend (token : Token) (cont : Script)
  | inspect (cont : View → Script)
  /-- Registers a tag, in place of one of the same name. -/
  | register (name : String) (tag : Token → Script) (cont : Script)
  /-- Parses a body; the directive that ends it stays in the queue. -/
  | parse (stop : Stop) (cont : Except ParseError (List Node) → Script)

/-- A tag: what is done for a directive. -/
abbrev Tag := Token → Script

end Script

section Parser

/-- Tokens to be parsed, tags by name, and whether a directive without a tag is
an error. -/
structure Parser where
  queue : List Token
  tags : List (String × Tag)
  strict : Bool

/-- The outcome of a parse and the parser it leaves. -/
abbrev Parsed (α : Type) := Outcome ParseError α × Parser

namespace Parser

/-- The parser as tags and stops see it. -/
def view (p : Parser) : View :=
  ⟨p.queue, Keyed.keys p.tags, p.strict⟩

/-- Takes the next token, if there is one. -/
def next (p : Parser) : Option Token × Parser :=
  match p.queue with
  | [] => (none, p)
  | token :: rest => (some token, { p with queue := rest })

/-- Puts a token in front of the queue. -/
def prepend (p : Parser) (token : Token) : Parser :=
  { p with queue := token :: p.queue }

/-- Registers a tag, in place of one of the same name. -/
def register (p : Parser) (name : String) (tag : Tag) : Parser :=
  { p with tags := Keyed.insert name tag p.tags }

/-- Takes the next token, which must be the directive that closes `tag`. Any
other token stays in the queue. -/
def expectEnd (p : Parser) (tag closing : String) :
    Except ParseError Token × Parser :=
  match p.queue with
  | token :: rest =>
      if token.tagName? = some closing then
        (.ok token, { p with queue := rest })
      else
        (.error (.unclosed tag closing), p)
  | [] => (.error (.unclosed tag closing), p)

end Parser

end Parser

section Run

/-- Runs a script; `body` parses the bodies it asks for. -/
def Script.run (body : Stop → Parser → Parsed (List Node)) :
    Script → Parser → Parsed Node
  | .done node, p => (.ok node, p)
  | .fail error, p => (.error error, p)
  | .next cont, p => (cont p.next.1).run body p.next.2
  | .prepend token cont, p => cont.run body (p.prepend token)
  | .inspect cont, p => (cont p.view).run body p
  | .register name tag cont, p => cont.run body (p.register name tag)
  | .parse stop cont, p =>
      match body stop p with
      | (.ok nodes, p) => (cont (.ok nodes)).run body p
      | (.error e, p) => (cont (.error e)).run body p
      | (.exhausted, p) => (.exhausted, p)

/-- A node in front of the nodes that follow. -/
def Parsed.cons (node : Node) (r : Parsed (List Node)) : Parsed (List Node) :=
  (r.1.map (node :: ·), r.2)

namespace Parser

/-- Parses up to a directive that ends the body, or to the end of the queue. The
directive stays in the queue. -/
def parseUntil : Nat → Stop → Parser → Parsed (List Node)
  | 0, _, p => (.exhausted, p)
  | fuel + 1, stop, p =>
      match p.queue with
      | [] => (.ok [], p)
      | token :: rest =>
          let p' : Parser := { p with queue := rest }
          match token.kind with
          | .text =>
              Parsed.cons (.text token.payload) (parseUntil fuel stop p')
          | .placeholder =>
              Parsed.cons (.placeholder (.ofSource token.payload))
                (parseUntil fuel stop p')
          | .comment => parseUntil fuel stop p'
          | .block =>
              if stop p'.view token then
                (.ok [], p)
              else
                match token.tagName? with
                | none => parseUntil fuel stop p'
                | some name =>
                    match Keyed.find? name p'.tags with
                    | some tag =>
                        match (tag token).run (parseUntil fuel) p' with
                        | (.ok node, q) => Parsed.cons node (parseUntil fuel stop q)
                        | (.error e, q) => (.error e, q)
                        | (.exhausted, q) => (.exhausted, q)
                    | none =>
                        if p'.strict then
                          (.error (.unknownTag name), p')
                        else
                          parseUntil fuel stop p'

/-- Parses to the end of the queue. -/
def parse (fuel : Nat) (p : Parser) : Parsed (List Node) :=
  parseUntil fuel .never p

end Parser

end Run

end Templating
