import Mathlib.Tactic.SplitIfs
import Templating.Parser.Builtin

/-!
# One pass over the tokens

The built-in tags can be parsed in one pass from left to right, with a stack of
the tags that are open and no recursion.

**State.**  The nodes read so far outside all tags, and for each open tag the
nodes of the part that is being read: the first part, or the part behind the
divider together with the completed first part.

**Step.**  Text and placeholders are leaves of the innermost part.  A directive
that the innermost open tag waits for divides or closes it.  Any other directive
of a built-in tag has its arguments checked, and is then a leaf or opens a tag.
What remains is skipped, or is an error if the pass is strict.

**End.**  A tag that is open when the tokens are used up is an error.

Main definitions: `Paired`, `OpenTag`, `Pass`, `Pass.step`, `Pass.run` and
`Pass.through`, the pass behind some tokens.  All that a step can do is in
`Pass.Takes` (`Pass.step_eq_ok_iff`).
-/

namespace Templating

section Paired

/-- A tag that has a closing directive, with its arguments. -/
inductive Paired where
  | loop (item : String) (source : Expression)
  | branch (negated : Bool) (condition : Expression)

namespace Paired

/-- The name of the directive that opens the tag. -/
def tag : Paired → String
  | .loop _ _ => "for"
  | .branch negated _ => if negated then "ifnot" else "if"

/-- The name of the directive between the two parts. -/
def divider : Paired → String
  | .loop _ _ => "empty"
  | .branch _ _ => "else"

/-- The name of the directive that closes the tag. -/
def closing : Paired → String
  | .loop _ _ => "endfor"
  | .branch _ _ => "endif"

/-- What ends the first part. -/
def stops : Paired → List String
  | .loop _ _ => ["endfor", "empty"]
  | .branch _ _ => ["else", "endif"]

/-- The node of the tag with its two parts. The first part of a negated
condition is for when the condition does not hold. -/
def node : Paired → List Node → List Node → Node
  | .loop item source, first, second => .loop item source first second
  | .branch negated condition, first, second =>
      if negated then .branch condition second first
      else .branch condition first second

theorem mem_stops_iff (t : Paired) (name : String) :
    name ∈ t.stops ↔ name = t.closing ∨ name = t.divider := by
  cases t with
  | loop item source => simp [stops, closing, divider]
  | branch negated condition => simp [stops, closing, divider, or_comm]

theorem divider_ne_closing (t : Paired) : t.divider ≠ t.closing := by
  cases t <;> simp [divider, closing]

end Paired

end Paired

section OpenTag

/-- A tag that is open: its first part if that is complete, and the nodes of the
part that is being read. -/
structure OpenTag where
  paired : Paired
  first : Option (List Node)
  nodes : List Node

namespace OpenTag

/-- A tag that has just been opened. -/
def opened (t : Paired) : OpenTag :=
  ⟨t, none, []⟩

/-- What ends the part that is being read. -/
def stops (f : OpenTag) : List String :=
  match f.first with
  | none => f.paired.stops
  | some _ => [f.paired.closing]

/-- The tag behind its divider. -/
def divide (f : OpenTag) : OpenTag :=
  ⟨f.paired, some f.nodes, []⟩

/-- The node of the tag, closed where it stands. -/
def node (f : OpenTag) : Node :=
  match f.first with
  | none => f.paired.node f.nodes []
  | some first => f.paired.node first f.nodes

end OpenTag

end OpenTag

section Directives

/-- What a directive of a built-in tag does. -/
inductive Directive where
  | leaf (node : Node)
  | opens (tag : Paired)

namespace Directive

/-- The arguments of a directive, which must be so many. -/
def arguments (token : Token) (expected : Nat) (usage : String) :
    Except ParseError (List String) :=
  if token.arguments.length = expected then
    .ok token.arguments
  else
    .error (.misuse (token.components.headD "")
      (.argumentCount expected token.arguments.length usage))

/-- A loop: an item, the word `in`, and what is looped over. -/
def loop (token : Token) : Except ParseError Directive :=
  match arguments token 3 Tag.loopUsage with
  | .error e => .error e
  | .ok args =>
      if args.getD 1 "" = "in" then
        .ok (.opens (.loop (args.getD 0 "") (.ofSource (args.getD 2 ""))))
      else
        .error (.misuse "for" (.missingIn (args.getD 1 "") Tag.loopUsage))

/-- A condition. -/
def branch (negated : Bool) (token : Token) : Except ParseError Directive :=
  (arguments token 1
      (Tag.branchUsage (if negated then "ifnot" else "if"))).map fun args =>
    .opens (.branch negated (.ofSource (args.getD 0 "")))

/-- An inclusion. -/
def inclusion (token : Token) : Except ParseError Directive :=
  (arguments token 1 Tag.inclusionUsage).map fun args =>
    .leaf (.inclusion (.ofSource (args.getD 0 "")))

/-- A date, in the given format or in the default one. -/
def now (token : Token) : Except ParseError Directive :=
  if token.arguments.length ≤ 1 then
    .ok (.leaf (.now (.ofSource
      (token.arguments.headD ("\"" ++ Tag.defaultFormat ++ "\"")))))
  else
    .error (.misuse "now" (.tooMany Tag.nowUsage))

/-- The directive of a built-in tag, whose arguments are checked; nothing for a
name that is no built-in tag. -/
def builtin? (name : String) (token : Token) :
    Option (Except ParseError Directive) :=
  if name = "for" then some (loop token)
  else if name = "if" then some (branch false token)
  else if name = "ifnot" then some (branch true token)
  else if name = "include" then some (inclusion token)
  else if name = "now" then some (now token)
  else none

end Directive

end Directives

section Leaf

/-- A piece of a template that is put in place as it stands. -/
inductive Leaf where
  | text (content : String)
  | placeholder (expression : Expression)
deriving DecidableEq, Repr

/-- The leaf as a node. -/
def Leaf.node : Leaf → Node
  | .text content => .text content
  | .placeholder expression => .placeholder expression

/-- The leaf that a token stands for; directives and comments are none. -/
def Token.leaf? (token : Token) : Option Leaf :=
  match token.kind with
  | .text => some (.text token.payload)
  | .placeholder => some (.placeholder (.ofSource token.payload))
  | .block => none
  | .comment => none

end Leaf

section Pass

/-- How far a pass has come: the nodes outside all tags, and the tags that are
open, the innermost first. -/
structure Pass where
  bottom : List Node
  tags : List OpenTag

namespace Pass

/-- Before the first token. -/
def start : Pass :=
  ⟨[], []⟩

/-- Adds nodes to the part that is being read. -/
def add (s : Pass) (nodes : List Node) : Pass :=
  match s.tags with
  | [] => ⟨s.bottom ++ nodes, []⟩
  | f :: outer => ⟨s.bottom, { f with nodes := f.nodes ++ nodes } :: outer⟩

/-- Goes on inside a tag. -/
def enter (s : Pass) (f : OpenTag) : Pass :=
  ⟨s.bottom, f :: s.tags⟩

/-- What ends the part that is being read. -/
def stops (s : Pass) : List String :=
  match s.tags with
  | [] => []
  | f :: _ => f.stops

/-- Closes or divides the innermost tag. -/
def stop (s : Pass) (name : String) : Pass :=
  match s.tags with
  | [] => s
  | f :: outer =>
      let below : Pass := ⟨s.bottom, outer⟩
      if name = f.paired.closing then below.add [f.node]
      else below.enter f.divide

/-- Does what a directive says. -/
def follow (s : Pass) : Directive → Pass
  | .leaf node => s.add [node]
  | .opens tag => s.enter (.opened tag)

/-- The pass after a directive. -/
def block (strict : Bool) (s : Pass) (token : Token) : Except ParseError Pass :=
  match token.tagName? with
  | none => .ok s
  | some name =>
      if name ∈ s.stops then
        .ok (s.stop name)
      else
        match Directive.builtin? name token with
        | some directive => directive.map s.follow
        | none => if strict then .error (.unknownTag name) else .ok s

/-- The pass after one more token. -/
def step (strict : Bool) (s : Pass) (token : Token) : Except ParseError Pass :=
  match token.kind with
  | .text => .ok (s.add [.text token.payload])
  | .placeholder => .ok (s.add [.placeholder (.ofSource token.payload)])
  | .comment => .ok s
  | .block => s.block strict token

/-- How a pass comes past a token, and where it stands then. -/
inductive Takes (strict : Bool) (s : Pass) (token : Token) : Pass → Prop where
  | leaf {leaf : Leaf} (hleaf : token.leaf? = some leaf) :
      Takes strict s token (s.add [leaf.node])
  /-- A comment, or a directive without words. -/
  | blank (hleaf : token.leaf? = none) (hname : token.tagName? = none) :
      Takes strict s token s
  | stop {name : String} (hname : token.tagName? = some name)
      (hstop : name ∈ s.stops) : Takes strict s token (s.stop name)
  | follow {name : String} {directive : Directive}
      (hname : token.tagName? = some name) (hstop : name ∉ s.stops)
      (htag : Directive.builtin? name token = some (.ok directive)) :
      Takes strict s token (s.follow directive)
  /-- Only a pass that is not strict drops a directive. -/
  | drop {name : String} (hstrict : strict = false)
      (hname : token.tagName? = some name) (hstop : name ∉ s.stops)
      (htag : Directive.builtin? name token = none) : Takes strict s token s

/-- What a pass over all tokens gives: the nodes, unless a tag is still open. -/
def finish (s : Pass) : Except ParseError (List Node) :=
  match s.tags with
  | [] => .ok s.bottom
  | f :: _ => .error (.unclosed f.paired.tag f.paired.closing)

/-- Passes over tokens up to the first error. What is behind the token with the
error is left over. -/
def run (strict : Bool) (s : Pass) :
    List Token → Except ParseError (List Node) × List Token
  | [] => (s.finish, [])
  | token :: rest =>
      match s.step strict token with
      | .ok s => s.run strict rest
      | .error e => (.error e, rest)

/-- The pass behind the tokens, unless one of them is an error. -/
def through (strict : Bool) (s : Pass) : List Token → Except ParseError Pass
  | [] => .ok s
  | token :: rest => (s.step strict token).bind (through strict · rest)

end Pass

end Pass

section Lemmas

/-- Only directives have the name of a tag. -/
theorem Token.kind_of_tagName? {token : Token} {name : String}
    (h : token.tagName? = some name) : token.kind = .block := by
  unfold Token.tagName? at h
  split at h
  · next hkind => exact hkind
  · simp at h

/-- A part ends at most at two directives. -/
theorem OpenTag.eq_of_mem_stops {f : OpenTag} {name : String} (h : name ∈ f.stops) :
    name = f.paired.closing ∨ name = f.paired.divider := by
  unfold stops at h
  split at h
  · exact (f.paired.mem_stops_iff name).1 h
  · exact .inl (List.mem_singleton.1 h)

/-- Directives are not put in place as they stand. -/
theorem Token.leaf?_of_tagName? {token : Token} {name : String}
    (h : token.tagName? = some name) : token.leaf? = none := by
  rw [leaf?, kind_of_tagName? h]

namespace Directive

/-- The built-in tags that are leaves are inclusions and dates. -/
theorem leaf_cases {name : String} {token : Token} {node : Node}
    (h : builtin? name token = some (.ok (.leaf node))) :
    (∃ e, node = .inclusion e) ∨ ∃ e, node = .now e := by
  have hmap : ∀ count usage (f : List String → Directive),
      (arguments token count usage).map f = .ok (.leaf node) →
        ∃ args, f args = .leaf node := by
    intro count usage f hf
    cases hargs : arguments token count usage with
    | ok args =>
        rw [hargs] at hf
        exact ⟨args, Except.ok.inj hf⟩
    | error e =>
        rw [hargs] at hf
        cases hf
  unfold builtin? at h
  split_ifs at h
  · -- a loop opens a tag
    have hloop : loop token = .ok (.leaf node) := Option.some.inj h
    unfold loop at hloop
    split at hloop
    · cases hloop
    · split at hloop <;> cases hloop
  · obtain ⟨args, hargs⟩ := hmap _ _ _ (Option.some.inj h)
    cases hargs
  · obtain ⟨args, hargs⟩ := hmap _ _ _ (Option.some.inj h)
    cases hargs
  · obtain ⟨args, hargs⟩ := hmap _ _ _ (Option.some.inj h)
    cases hargs
    exact .inl ⟨_, rfl⟩
  · have hnow : now token = .ok (.leaf node) := Option.some.inj h
    unfold now at hnow
    split at hnow
    · cases hnow
      exact .inr ⟨_, rfl⟩
    · cases hnow

end Directive

namespace Pass

@[simp] theorem stops_start : start.stops = [] := rfl

@[simp] theorem finish_start_add (nodes : List Node) :
    (start.add nodes).finish = .ok nodes := rfl

theorem stop_enter (s : Pass) (f : OpenTag) (name : String) :
    (s.enter f).stop name =
      if name = f.paired.closing then s.add [f.node]
      else s.enter f.divide := rfl

@[simp] theorem add_nil (s : Pass) : s.add [] = s := by
  obtain ⟨bottom, tags⟩ := s
  cases tags <;> simp [add]

@[simp] theorem add_add (s : Pass) (first second : List Node) :
    (s.add first).add second = s.add (first ++ second) := by
  obtain ⟨bottom, tags⟩ := s
  cases tags <;> simp [add]

@[simp] theorem stops_add (s : Pass) (nodes : List Node) :
    (s.add nodes).stops = s.stops := by
  obtain ⟨bottom, tags⟩ := s
  cases tags <;> rfl

@[simp] theorem run_nil (strict : Bool) (s : Pass) :
    s.run strict [] = (s.finish, []) := rfl

theorem run_cons {strict : Bool} {s t : Pass} {token : Token}
    (h : s.step strict token = .ok t) (rest : List Token) :
    s.run strict (token :: rest) = t.run strict rest := by
  simp only [run, h]

theorem run_cons_error {strict : Bool} {s : Pass} {token : Token}
    {e : ParseError} (h : s.step strict token = .error e) (rest : List Token) :
    s.run strict (token :: rest) = (.error e, rest) := by
  simp only [run, h]

theorem run_append {strict : Bool} {s t : Pass} {tokens : List Token}
    (h : s.through strict tokens = .ok t) (rest : List Token) :
    s.run strict (tokens ++ rest) = t.run strict rest := by
  induction tokens generalizing s with
  | nil =>
      cases h
      rfl
  | cons token tokens ih =>
      cases hstep : s.step strict token with
      | ok next =>
          rw [through, hstep] at h
          rw [List.cons_append, run_cons hstep]
          exact ih h
      | error e =>
          rw [through, hstep] at h
          cases h

theorem through_append {strict : Bool} (s : Pass) (tokens more : List Token) :
    s.through strict (tokens ++ more) =
      (s.through strict tokens).bind (through strict · more) := by
  induction tokens generalizing s with
  | nil => rfl
  | cons token tokens ih =>
      simp only [List.cons_append, through]
      cases s.step strict token with
      | ok next => exact ih next
      | error e => rfl

theorem through_cons {strict : Bool} {s t : Pass} {token : Token}
    (h : s.step strict token = .ok t) (rest : List Token) :
    s.through strict (token :: rest) = t.through strict rest := by
  simp only [through, h, Except.bind]

theorem through_append_of_eq_ok {strict : Bool} {s t : Pass} {tokens : List Token}
    (h : s.through strict tokens = .ok t) (more : List Token) :
    s.through strict (tokens ++ more) = t.through strict more := by
  rw [through_append, h]
  rfl

/-- A directive at which the part being read ends. -/
theorem step_of_mem_stops (strict : Bool) {s : Pass} {token : Token}
    {name : String} (hname : token.tagName? = some name)
    (hstop : name ∈ s.stops) :
    s.step strict token = .ok (s.stop name) := by
  have hkind : token.kind = .block := Token.kind_of_tagName? hname
  simp only [step, hkind, block, hname, if_pos hstop]

/-- **All that a step can do**, unless it is an error. -/
theorem step_eq_ok_iff {strict : Bool} {s t : Pass} {token : Token} :
    s.step strict token = .ok t ↔ s.Takes strict token t := by
  constructor
  · intro h
    unfold step at h
    split at h
    · next hkind =>
        cases h
        exact .leaf (by rw [Token.leaf?, hkind])
    · next hkind =>
        cases h
        exact .leaf (by rw [Token.leaf?, hkind])
    · next hkind =>
        cases h
        exact .blank (by rw [Token.leaf?, hkind]) (by simp [Token.tagName?, hkind])
    · next hkind =>
        unfold block at h
        split at h
        · next hname =>
            cases h
            exact .blank (by rw [Token.leaf?, hkind]) hname
        · next name hname =>
            split at h
            · next hstop =>
                cases h
                exact .stop hname hstop
            · next hstop =>
                split at h
                · next directive htag =>
                    cases directive with
                    | ok directive =>
                        cases h
                        exact .follow hname hstop htag
                    | error e => cases h
                · next htag =>
                    cases strict with
                    | true => cases h
                    | false =>
                        cases h
                        exact .drop rfl hname hstop htag
  · intro h
    cases h with
    | leaf hleaf =>
        unfold Token.leaf? at hleaf
        split at hleaf
        · next hkind =>
            cases hleaf
            simp only [step, hkind, Leaf.node]
        · next hkind =>
            cases hleaf
            simp only [step, hkind, Leaf.node]
        · cases hleaf
        · cases hleaf
    | blank hleaf hname =>
        unfold step
        split
        · next hkind => simp [Token.leaf?, hkind] at hleaf
        · next hkind => simp [Token.leaf?, hkind] at hleaf
        · rfl
        · simp only [block, hname]
    | stop hname hstop => exact step_of_mem_stops strict hname hstop
    | follow hname hstop htag =>
        have hkind := Token.kind_of_tagName? hname
        simp only [step, hkind, block, hname, if_neg hstop, htag, Except.map]
    | drop hstrict hname hstop htag =>
        have hkind := Token.kind_of_tagName? hname
        simp [step, hkind, block, hname, hstop, htag, hstrict]

end Pass

end Lemmas

end Templating
