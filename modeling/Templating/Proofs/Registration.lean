import Templating.Parser.Custom
import Templating.Proofs.ParserSimulation

/-!
# Tags that are registered while parsing

A tag may register another tag.  Bodies are parsed by calls that are inside each other, but
there is one table of tags for all of them.  This module shows that a registration is in
force for the tokens behind it, wherever it is made: inside a loop or a branch, and also
for what follows when that is closed.

**Two parsers side by side.**  One has the tag that registers and the tokens as they are.
The other has both tags from the start, and the tokens without the directives that come too
early (`Registration.inForce`).  Where the first passes over a directive that means nothing
yet, the second does nothing (`Registration.takesTurns`).

**Invariant.**  Up to the first directive that registers, the second parser has the tokens
of the first without those that come too early.  From there on the two parsers are the same
(`Registration.Stands`), so that it makes no difference what the tags do.

Main definitions: `Registration` and `Registration.inForce`.  Main statements:
`Registration.parse_alike`, and `Registration.parse_registered`.
-/

namespace Templating

section Registration

/-- A tag that registers another tag, and then does something more.  No part of a built-in
tag ends at a directive of either tag. -/
structure Registration where
  /-- The name of the tag that registers. -/
  registrar : String
  /-- What it does when the other tag is registered. -/
  rest : Token → Script
  /-- The name that is registered. -/
  name : String
  /-- What is registered under the name. -/
  tag : Tag
  registrar_ne_name : registrar ≠ name
  registrar_not_mem_ends : registrar ∉ Paired.ends
  name_not_mem_ends : name ∉ Paired.ends
  /-- Before it is registered, the name means nothing. -/
  name_not_builtin : Keyed.find? name Tag.builtin = none

namespace Registration

variable (R : Registration)

/-- The tag that registers. -/
def define : Tag := fun token =>
  .register R.name R.tag (R.rest token)

/-- A lenient parser with the built-in tags and the one that registers. -/
def parser (tokens : List Token) : Parser :=
  (Parser.ofTokens false tokens).register R.registrar R.define

/-- The same with the other tag registered from the start. -/
def equipped (tokens : List Token) : Parser :=
  (R.parser tokens).register R.name R.tag

/-- Whether the token is a directive of the tag that registers. -/
def registers (token : Token) : Bool :=
  token.tagName? == some R.registrar

/-- Whether the token is a directive of the tag that is registered. -/
def calls (token : Token) : Bool :=
  token.tagName? == some R.name

/-- The tokens without the directives of the tag that stand in front of the first
directive that registers it. -/
def inForce (tokens : List Token) : List Token :=
  (tokens.takeWhile (!R.registers ·)).filter (!R.calls ·) ++
    tokens.dropWhile (!R.registers ·)

/-- Both tags put back at most as many tokens as they take, as tags do that give a text. -/
structure Frugal : Prop where
  rest : ∀ token, (R.rest token).Frugal 0
  tag : ∀ token, (R.tag token : Script).Frugal 0

variable {R} {token : Token}

theorem inForce_of_registers (h : token.tagName? = some R.registrar) (rest : List Token) :
    R.inForce (token :: rest) = token :: rest := by
  simp [inForce, registers, h]

theorem inForce_of_calls (h : token.tagName? = some R.name) (rest : List Token) :
    R.inForce (token :: rest) = R.inForce rest := by
  simp [inForce, registers, calls, h, R.registrar_ne_name.symm]

theorem inForce_of_ne (hregistrar : token.tagName? ≠ some R.registrar)
    (hname : token.tagName? ≠ some R.name) (rest : List Token) :
    R.inForce (token :: rest) = token :: R.inForce rest := by
  simp [inForce, registers, calls, hregistrar, hname]

end Registration

end Registration

section Turns

namespace Registration

variable {R : Registration} {fuel : Nat} {names : List String} {token : Token}

/-- Nothing has been registered yet, or the parsers are the same. -/
inductive Stands (R : Registration) : Parser → Parser → Prop
  | before (queue : List Token) : Stands R (R.parser queue) (R.equipped (R.inForce queue))
  | after (p : Parser) : Stands R p p

theorem find?_registering {name : String} (h : name ≠ R.registrar) (tokens : List Token) :
    Keyed.find? name (R.parser tokens).tags = Keyed.find? name Tag.builtin :=
  Keyed.find?_insert_of_ne R.define Tag.builtin h

theorem find?_equipped {name : String} (hregistrar : name ≠ R.registrar)
    (hname : name ≠ R.name) (tokens : List Token) :
    Keyed.find? name (R.equipped tokens).tags = Keyed.find? name Tag.builtin :=
  (Keyed.find?_insert_of_ne R.tag _ hname).trans (find?_registering hregistrar tokens)

/-- No directive at which a part ends comes too early. -/
theorem looksAhead (R : Registration) : LooksAhead R.Stands := by
  rintro p p' (queue | p) hends
  · cases queue with
    | nil => exact ⟨rfl, .before []⟩
    | cons token rest =>
        obtain ⟨name, hname, hmem⟩ := hends
        have hne {other : String} (hother : other ∉ Paired.ends) :
            token.tagName? ≠ some other := by
          rw [hname]
          exact fun h => hother (Option.some.inj h ▸ hmem)
        rw [inForce_of_ne (hne R.registrar_not_mem_ends) (hne R.name_not_mem_ends)]
        exact ⟨rfl, .before rest⟩
  · exact ⟨rfl, .after p.next.2⟩

/-- A directive that comes too early is dropped. -/
theorem turn?_calls (hnames : R.name ∉ names) (h : token.tagName? = some R.name)
    (rest : List Token) :
    (R.parser (token :: rest)).turn? fuel (.named names) =
      some (.skip, R.parser rest) := by
  have hgoesOn (view : View) : Stop.named names view token = false := by
    simpa [Stop.named, h] using hnames
  have hfind := (find?_registering R.registrar_ne_name.symm rest).trans R.name_not_builtin
  have hfind' : Keyed.find? R.name
      (Keyed.insert R.registrar R.define Tag.builtin) = none := hfind
  simp [Parser.turn?, parser, Parser.ofTokens, Parser.register, Token.kind_of_tagName? h,
    hgoesOn, h, hfind']

/-- **From the first registration on, both parsers are the same.** -/
theorem turn?_registers (hnames : R.registrar ∉ names)
    (h : token.tagName? = some R.registrar) (rest : List Token) :
    (R.equipped (token :: rest)).turn? fuel (.named names) =
      (R.parser (token :: rest)).turn? fuel (.named names) := by
  have hgoesOn (view : View) : Stop.named names view token = false := by
    simpa [Stop.named, h] using hnames
  have hfind : Keyed.find? R.registrar (R.parser rest).tags = some R.define :=
    Keyed.find?_insert_self R.registrar R.define Tag.builtin
  have hfind' : Keyed.find? R.registrar (R.equipped rest).tags = some R.define :=
    (Keyed.find?_insert_of_ne R.tag _ R.registrar_ne_name).trans hfind
  -- what is registered twice is registered once
  have hrun : (R.define token).run (Parser.parseUntil fuel) (R.equipped rest) =
      (R.define token).run (Parser.parseUntil fuel) (R.parser rest) := by
    simp only [define, Script.run, equipped, Parser.register, Keyed.insert_insert]
  have hturn {p : Parser} (hregistered : Keyed.find? R.registrar p.tags = some R.define) :
      Parser.turn? fuel (.named names) { p with queue := token :: rest } =
        some (.dispatch token
          ((R.define token).run (Parser.parseUntil fuel) { p with queue := rest }).1,
          ((R.define token).run (Parser.parseUntil fuel) { p with queue := rest }).2) := by
    simp [Parser.turn?, Token.kind_of_tagName? h, hgoesOn, h, hregistered]
  exact (hturn hfind').trans ((congrArg
    (fun r => some (Turn.dispatch token r.1, r.2)) hrun).trans (hturn hfind).symm)

/-- A parser stands beside itself. -/
theorem turnsAlike_refl (p' : Parser) (next : Option (Turn × Parser)) :
    TurnsAlike R.Stands True p' next next := by
  cases next with
  | none => exact .none
  | some step => exact .both rfl (.after step.2)

/-- **One turn each**, but for the directives that come too early. -/
theorem takesTurns (R : Registration) : TakesTurns R.Stands True := by
  rintro fuel hparts names p p' hends (queue | p)
  · have hregistrar : R.registrar ∉ names := fun h => R.registrar_not_mem_ends (hends _ h)
    have hname : R.name ∉ names := fun h => R.name_not_mem_ends (hends _ h)
    cases queue with
    | nil => exact .none
    | cons token rest =>
        by_cases hregisters : token.tagName? = some R.registrar
        · rw [inForce_of_registers hregisters, turn?_registers hregistrar hregisters]
          exact turnsAlike_refl _ _
        · by_cases hcalls : token.tagName? = some R.name
          · rw [inForce_of_calls hcalls, turn?_calls hname hcalls]
            exact .skip trivial (.before rest) _
          · rw [inForce_of_ne hregisters hcalls]
            refine turnsAlike_front R.looksAhead hparts (.before rest) ?_ names
            intro name hnamed
            have hne : name ≠ R.registrar := fun h => hregisters (h ▸ hnamed)
            have hne' : name ≠ R.name := fun h => hcalls (h ▸ hnamed)
            exact ⟨find?_registering hne rest, find?_equipped hne hne' rest⟩
  · exact turnsAlike_refl p _

end Registration

end Turns

section Runs

namespace Registration

/-- **Whatever the tags do**, a parse that does not come to its bound ends as one with the
tag registered from the start, on the tokens without the directives that come too early. -/
theorem parse_alike (R : Registration) (fuel : Nat) (tokens : List Token) :
    EndsAlike R.Stands True (Parser.parse fuel (R.parser tokens))
      (Parser.parse fuel (R.equipped (R.inForce tokens))) := by
  unfold Parser.parse
  rw [← Stop.named_nil]
  exact R.takesTurns.partsAlike fuel [] _ _ (by simp) (.before tokens)

variable {R : Registration} {tokens : List Token} {bound : Nat}

theorem outcome_eq {α : Type} {r r' : Parsed α} (h : EndsAlike R.Stands True r r')
    (hne : r.1 ≠ .exhausted) : r'.1 = r.1 := by
  cases h with
  | same outcome h => rfl
  | exhausted hlax p r' => exact absurd rfl hne

/-- With frugal tags, a bound above the number of tokens is not reached. -/
theorem Frugal.not_exhausted (hfrugal : R.Frugal) (h : tokens.length < bound) :
    (Parser.parse bound (R.parser tokens)).1 ≠ .exhausted := by
  have htags : FrugalTags (R.parser tokens).tags := Tag.builtin_frugal.insert fun token =>
    .register hfrugal.tag (hfrugal.rest token)
  exact (Parser.parseUntil_terminates bound .never (R.parser tokens) htags h).1

/-- **A registration is in force for the tokens behind it, and for no others**, wherever
it is made.  A parse ends, in nodes or in an error, as it does if the tag is registered
from the start and its directives in front of the registration are left out; for frugal
tags a bound above the number of tokens is not reached. -/
theorem parse_registered (hfrugal : R.Frugal) (h : tokens.length < bound) :
    ∃ result : Except ParseError (List Node),
      (Parser.parse bound (R.parser tokens)).1 = .ofExcept result ∧
        (Parser.parse bound (R.equipped (R.inForce tokens))).1 = .ofExcept result := by
  have hne := hfrugal.not_exhausted h
  have hparse := Outcome.ofExcept_toExcept _ hne
  exact ⟨_, hparse.symm, (outcome_eq (R.parse_alike bound tokens) hne).trans hparse.symm⟩

/-- A tag that registers a text under a name, and leaves an empty text. -/
def later : Registration where
  registrar := "define"
  rest := fun _ => .done (.text "")
  name := "late"
  tag := .const "late"
  registrar_ne_name := by decide
  registrar_not_mem_ends := by decide
  name_not_mem_ends := by decide
  name_not_builtin := by decide

/-- The registration stands inside a loop. -/
def acrossLoop : List Token :=
  [.block "late", .block "for x in xs", .block "late", .block "define", .block "late",
    .block "endfor", .block "late"]

/-- What is registered inside the loop is in force behind the directive, and also behind
the loop. -/
theorem parse_acrossLoop :
    (later.Frugal ∧ acrossLoop.length < 8) ∧
      (Parser.parse 8 (later.equipped
        [.block "for x in xs", .block "define", .block "late", .block "endfor",
          .block "late"])).1 =
        .ok [.loop "x" ⟨"xs"⟩ [.text "", .text "late"] [], .text "late"] := by
  have hfrugal : later.Frugal := ⟨fun _ => .done 0 _, fun _ => .done 0 _⟩
  have hlength : acrossLoop.length < 8 := by decide
  have hinForce : later.inForce acrossLoop =
      [.block "for x in xs", .block "define", .block "late", .block "endfor",
        .block "late"] := by cbv
  have hparse : (Parser.parse 8 (later.parser acrossLoop)).1 =
      .ok [.loop "x" ⟨"xs"⟩ [.text "", .text "late"] [], .text "late"] := by cbv
  obtain ⟨result, hresult, hequipped⟩ := parse_registered hfrugal hlength
  rw [hinForce] at hequipped
  exact ⟨⟨hfrugal, hlength⟩, hequipped.trans (hresult.symm.trans hparse)⟩

end Registration

end Runs

end Templating
