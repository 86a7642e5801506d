import Templating.Parser

/-!
# The built-in tags

Loops, conditions, inclusions and dates. Each is an ordinary tag: it checks the
arguments of its directive first, and parses its bodies if there are any.

Main definitions:

* `Script.body`, `Script.alternative` and `Script.expectEnd`, from which paired
  tags are made;
* `Tag.loop`, `Tag.branch`, `Tag.inclusion` and `Tag.now`;
* `Tag.builtin`, the table of all of them, and `Parser.ofTokens`.
-/

namespace Templating

section Pieces

namespace Script

/-- Parses a body up to a directive of one of the given names. -/
def body (names : List String) (cont : List Node → Script) : Script :=
  .parse (.named names) fun
    | .ok nodes => cont nodes
    | .error e => .fail e

/-- If the next directive has the given name, takes it and parses the body
after it; otherwise the body is empty. -/
def alternative
    (name : String) (stops : List String) (cont : List Node → Script) :
    Script :=
  .inspect fun view =>
    if view.queue.head?.bind Token.tagName? = some name then
      .next fun _ => body stops cont
    else
      cont []

/-- Takes the directive that closes `tag`. Any other token goes back. -/
def expectEnd (tag closing : String) (cont : Script) : Script :=
  .next fun
    | some token =>
        if token.tagName? = some closing then cont
        else .prepend token (.fail (.unclosed tag closing))
    | none => .fail (.unclosed tag closing)

/-- The failure of a directive with the wrong number of arguments. -/
def wrongCount (token : Token) (expected : Nat) (usage : String) : Script :=
  .fail (.misuse (token.components.headD "")
    (.argumentCount expected token.arguments.length usage))

variable {parse : Stop → Parser → Parsed (List Node)} {p q : Parser}
  {name : String} {names : List String} {cont : List Node → Script}

/-- The error of a body ends the tag that has asked for it. -/
theorem run_body_error {e : ParseError}
    (h : parse (.named names) p = (.error e, q)) :
    (body names cont).run parse p = (.error e, q) := by
  simp only [body, run, h]

theorem run_body_ok {nodes : List Node}
    (h : parse (.named names) p = (.ok nodes, q)) :
    (body names cont).run parse p = (cont nodes).run parse q := by
  simp only [body, run, h]

theorem run_alternative_of_front
    (h : p.queue.head?.bind Token.tagName? = some name) :
    (alternative name names cont).run parse p =
      (body names cont).run parse p.next.2 := by
  simp only [alternative, run, Parser.view, h, if_true]

theorem run_alternative_of_not_front
    (h : p.queue.head?.bind Token.tagName? ≠ some name) :
    (alternative name names cont).run parse p = (cont []).run parse p := by
  simp only [alternative, run, Parser.view, h, if_false]

variable {tag : String} {script : Script}

theorem run_expectEnd_of_front
    (h : p.queue.head?.bind Token.tagName? = some name) :
    (expectEnd tag name script).run parse p = script.run parse p.next.2 := by
  obtain ⟨queue, tags, strict⟩ := p
  cases queue with
  | nil => cases h
  | cons token rest =>
      have hclosing : token.tagName? = some name := h
      simp only [expectEnd, run, Parser.next, if_pos hclosing]

/-- Where a tag is not closed, the tokens stay as they are. -/
theorem run_expectEnd_of_not_front
    (h : p.queue.head?.bind Token.tagName? ≠ some name) :
    (expectEnd tag name script).run parse p =
      (.error (.unclosed tag name), p) := by
  obtain ⟨queue, tags, strict⟩ := p
  cases queue with
  | nil => rfl
  | cons token rest =>
      have hother : token.tagName? ≠ some name := h
      simp only [expectEnd, run, Parser.next, if_neg hother, Parser.prepend]

end Script

end Pieces

section Tags

namespace Tag

/-- How a loop is written. -/
def loopUsage : String :=
  "\x7b% for item in items %\x7d"

/-- A loop with an optional branch for when there is nothing to loop over. -/
def loop : Tag := fun token =>
  match token.arguments with
  | [item, word, source] =>
      if word = "in" then
        Script.body ["endfor", "empty"] fun body =>
          Script.alternative "empty" ["endfor"] fun otherwise =>
            Script.expectEnd "for" "endfor"
              (.done (.loop item (.ofSource source) body otherwise))
      else
        .fail (.misuse "for" (.missingIn word loopUsage))
  | _ => Script.wrongCount token 3 loopUsage

/-- How a condition is written. -/
def branchUsage (name : String) : String :=
  "\x7b% " ++ name ++ " variable %\x7d"

/-- A condition with an optional second branch. The node is made from the
condition, the first branch and the second. -/
def branch
    (name : String) (make : Expression → List Node → List Node → Node) : Tag :=
  fun token =>
    match token.arguments with
    | [condition] =>
        Script.body ["else", "endif"] fun first =>
          Script.alternative "else" ["endif"] fun second =>
            Script.expectEnd name "endif"
              (.done (make (.ofSource condition) first second))
    | _ => Script.wrongCount token 1 (branchUsage name)

/-- The first branch if the condition holds. -/
def when : Tag :=
  branch "if" fun condition first second => .branch condition first second

/-- The first branch if the condition does not hold. -/
def whenNot : Tag :=
  branch "ifnot" fun condition first second => .branch condition second first

/-- How an inclusion is written. -/
def inclusionUsage : String :=
  "\x7b% include \"template.html\" %\x7d"

/-- Another template in place of the directive. -/
def inclusion : Tag := fun token =>
  match token.arguments with
  | [name] => .done (.inclusion (.ofSource name))
  | _ => Script.wrongCount token 1 inclusionUsage

/-- The format of a date when none is given. -/
def defaultFormat : String :=
  "%Y-%m-%d at %H:%M"

/-- How a date is written. -/
def nowUsage : String :=
  "\x7b% now \"%Y-%m-%d\" %\x7d"

/-- The current date, with a format or in the default one. -/
def now : Tag := fun token =>
  match token.components with
  | [_] => .done (.now (.ofSource ("\"" ++ defaultFormat ++ "\"")))
  | [_, format] => .done (.now (.ofSource format))
  | _ => .fail (.misuse "now" (.tooMany nowUsage))

/-- The built-in tags by name. -/
def builtin : List (String × Tag) :=
  [("for", loop), ("if", when), ("ifnot", whenNot), ("include", inclusion),
    ("now", now)]

end Tag

end Tags

section Parser

/-- A parser for tokens with the built-in tags. -/
def Parser.ofTokens (strict : Bool) (tokens : List Token) : Parser :=
  ⟨tokens, Tag.builtin, strict⟩

end Parser

end Templating
