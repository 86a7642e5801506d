import Templating.Proofs.ParserTurns

/-!
# Two parsers side by side

Parsers with different queues or different tags may still parse alike.  This module takes
two of them through their turns together and says when they come to the same nodes or the
same error.

**Standing alike.**  How the two parsers are related between turns is left open; it is a
relation on parsers.  Where a part of a built-in tag has come to its end, parsers that
stand alike must look ahead at the same directive (`LooksAhead`).

**Turns.**  Both take a turn with the same outcome and stand alike again, or there is no
turn for either of them; or the first passes over a token that the second one does not
have (`TurnsAlike`).  In the last case the first may come to its bound before the second
does, which a relation can allow.

**Parts.**  The induction is on the bound.  It covers the parts of the built-in tags, to
which a parse comes back from inside, and what follows these tags.

Main definitions: `EndsAlike`, `LooksAhead`, `TurnsAlike` and `TakesTurns`.  Main
statement: `TakesTurns.partsAlike`.
-/

namespace Templating

section Ends

/-- The directives at which the parts of the built-in tags end. -/
def Paired.ends : List String :=
  ["endfor", "empty", "else", "endif"]

theorem Paired.divider_mem_ends (t : Paired) : t.divider ∈ ends := by
  cases t <;> simp [divider, ends]

theorem Paired.closing_mem_ends (t : Paired) : t.closing ∈ ends := by
  cases t <;> simp [closing, ends]

theorem Paired.mem_ends_of_mem_stops {t : Paired} {name : String} (h : name ∈ t.stops) :
    name ∈ ends := by
  rcases (t.mem_stops_iff name).1 h with rfl | rfl
  · exact t.closing_mem_ends
  · exact t.divider_mem_ends

theorem EndsAt.mono {names names' : List String} {queue : List Token}
    (h : EndsAt names queue) (hnames : ∀ name ∈ names, name ∈ names') :
    EndsAt names' queue := by
  cases queue with
  | nil => trivial
  | cons token rest =>
      obtain ⟨name, hname, hmem⟩ := h
      exact ⟨name, hname, hnames name hmem⟩

/-- A part that is parsed to nodes has come to one of its ends. -/
theorem Parser.endsAt_of_parseUntil {fuel : Nat} {names : List String} {p q : Parser}
    {nodes : List Node} (h : parseUntil fuel (.named names) p = (.ok nodes, q)) :
    EndsAt names q.queue := by
  obtain ⟨⟨depth, hend⟩, -⟩ := parseUntil_eq_ok h
  exact turn?_named_eq_none hend

end Ends

section Defs

variable (alike : Parser → Parser → Prop) (lax : Prop) (fuel : Nat)

/-- Two parses end alike: with the same outcome, and in parsers that stand alike.  If this
is allowed, the first may instead have come to its bound. -/
inductive EndsAlike {α : Type} : Parsed α → Parsed α → Prop
  | same {p p' : Parser} (outcome : Outcome ParseError α) (h : alike p p') :
      EndsAlike (outcome, p) (outcome, p')
  | exhausted (hlax : lax) (p : Parser) (r' : Parsed α) : EndsAlike (.exhausted, p) r'

/-- At the end of a part, parsers that stand alike look ahead at the same directive, and
stand alike behind it. -/
def LooksAhead : Prop :=
  ∀ p p', alike p p' → EndsAt Paired.ends p.queue →
    p'.queue.head?.bind Token.tagName? = p.queue.head?.bind Token.tagName? ∧
      alike p.next.2 p'.next.2

/-- A script ends alike in both parsers. -/
def RunsAlike (script : Script) (p p' : Parser) : Prop :=
  EndsAlike alike lax (script.run (Parser.parseUntil fuel) p)
    (script.run (Parser.parseUntil fuel) p')

/-- The parts of built-in tags end alike in parsers that stand alike. -/
def PartsAlike : Prop :=
  ∀ names p p', (∀ name ∈ names, name ∈ Paired.ends) → alike p p' →
    EndsAlike alike lax (Parser.parseUntil fuel (.named names) p)
      (Parser.parseUntil fuel (.named names) p')

/-- The next turns of two parsers, the second of which is `p'`. -/
inductive TurnsAlike (p' : Parser) :
    Option (Turn × Parser) → Option (Turn × Parser) → Prop
  | none : TurnsAlike p' none none
  | both {turn turn' : Turn} {q q' : Parser} (houtcome : turn.outcome = turn'.outcome)
      (h : alike q q') : TurnsAlike p' (some (turn, q)) (some (turn', q'))
  /-- The first passes over a token, and the second stays where it is. -/
  | skip (hlax : lax) {q : Parser} (h : alike q p') (next' : Option (Turn × Parser)) :
      TurnsAlike p' (some (.skip, q)) next'
  | exhausted (hlax : lax) {turn : Turn} (h : turn.outcome = .exhausted) (q : Parser)
      (next' : Option (Turn × Parser)) : TurnsAlike p' (some (turn, q)) next'

/-- If the parts inside the next turn end alike, so does the turn. -/
def TakesTurns : Prop :=
  ∀ fuel, PartsAlike alike lax fuel → ∀ names p p',
    (∀ name ∈ names, name ∈ Paired.ends) → alike p p' →
      TurnsAlike alike lax p' (p.turn? fuel (.named names)) (p'.turn? fuel (.named names))

end Defs

section Scripts

variable {alike : Parser → Parser → Prop} {lax : Prop} {fuel : Nat} {p p' : Parser}

theorem EndsAlike.map {α β : Type} {r r' : Parsed α} (h : EndsAlike alike lax r r')
    (f : α → β) : EndsAlike alike lax (r.1.map f, r.2) (r'.1.map f, r'.2) := by
  cases h with
  | same outcome h => exact .same (outcome.map f) h
  | exhausted hlax p r' => exact .exhausted hlax p _

/-- In front of the end of a part, both parsers find the closing directive or neither
does. -/
theorem runsAlike_expectEnd (hlook : LooksAhead alike) (h : alike p p')
    (hends : EndsAt Paired.ends p.queue) (tag closing : String) (node : Node) :
    RunsAlike alike lax fuel (Script.expectEnd tag closing (.done node)) p p' := by
  obtain ⟨hfront, hnext⟩ := hlook p p' h hends
  unfold RunsAlike
  by_cases hclosing : p.queue.head?.bind Token.tagName? = some closing
  · rw [Script.run_expectEnd_of_front hclosing,
      Script.run_expectEnd_of_front (hfront.trans hclosing)]
    exact .same (.ok node) hnext
  · rw [Script.run_expectEnd_of_not_front hclosing,
      Script.run_expectEnd_of_not_front fun hc => hclosing (hfront.symm.trans hc)]
    exact .same (.error (.unclosed tag closing)) h

variable {names : List String} {cont : List Node → Script}

/-- A part, and what is done with it. -/
theorem runsAlike_body (hparts : PartsAlike alike lax fuel)
    (hnames : ∀ name ∈ names, name ∈ Paired.ends) (h : alike p p')
    (hcont : ∀ nodes q q', alike q q' → EndsAt Paired.ends q.queue →
      RunsAlike alike lax fuel (cont nodes) q q') :
    RunsAlike alike lax fuel (Script.body names cont) p p' := by
  have hpart := hparts names p p' hnames h
  unfold RunsAlike
  generalize hr : Parser.parseUntil fuel (.named names) p = r at hpart
  generalize hr' : Parser.parseUntil fuel (.named names) p' = r' at hpart
  cases hpart with
  | exhausted hlax q r' =>
      simp only [Script.body, Script.run, hr]
      exact .exhausted hlax q _
  | same outcome hq =>
      cases outcome with
      | ok nodes =>
          rw [Script.run_body_ok hr, Script.run_body_ok hr']
          exact hcont nodes _ _ hq ((Parser.endsAt_of_parseUntil hr).mono hnames)
      | error e =>
          rw [Script.run_body_error hr, Script.run_body_error hr']
          exact .same (.error e) hq
      | exhausted =>
          simp only [Script.body, Script.run, hr, hr']
          exact .same .exhausted hq

theorem runsAlike_alternative (hlook : LooksAhead alike)
    (hparts : PartsAlike alike lax fuel) (hnames : ∀ name ∈ names, name ∈ Paired.ends)
    (h : alike p p') (hends : EndsAt Paired.ends p.queue) (name : String)
    (hcont : ∀ nodes q q', alike q q' → EndsAt Paired.ends q.queue →
      RunsAlike alike lax fuel (cont nodes) q q') :
    RunsAlike alike lax fuel (Script.alternative name names cont) p p' := by
  obtain ⟨hfront, hnext⟩ := hlook p p' h hends
  unfold RunsAlike
  by_cases hname : p.queue.head?.bind Token.tagName? = some name
  · rw [Script.run_alternative_of_front hname,
      Script.run_alternative_of_front (hfront.trans hname)]
    exact runsAlike_body hparts hnames hnext hcont
  · rw [Script.run_alternative_of_not_front hname,
      Script.run_alternative_of_not_front fun hn => hname (hfront.symm.trans hn)]
    exact hcont [] p p' h hends

/-- A paired tag, from behind its opening directive to its closing one. -/
theorem runsAlike_paired (hlook : LooksAhead alike) (hparts : PartsAlike alike lax fuel)
    (h : alike p p') (t : Paired) : RunsAlike alike lax fuel t.script p p' := by
  have hclosing : ∀ name ∈ [t.closing], name ∈ Paired.ends := by
    simpa using t.closing_mem_ends
  refine runsAlike_body hparts (fun _ => Paired.mem_ends_of_mem_stops) h ?_
  intro first q q' hq hends
  refine runsAlike_alternative hlook hparts hclosing hq hends _ ?_
  intro second r r' hr hends'
  exact runsAlike_expectEnd hlook hr hends' _ _ _

/-- The built-in tags run alike if the parts that they ask for end alike. -/
theorem runsAlike_directive (hlook : LooksAhead alike)
    (hparts : PartsAlike alike lax fuel) (h : alike p p')
    (directive : Except ParseError Directive) :
    RunsAlike alike lax fuel (Directive.script directive) p p' := by
  cases directive with
  | error e => exact .same (.error e) h
  | ok directive =>
      cases directive with
      | leaf node => exact .same (.ok node) h
      | opens t => exact runsAlike_paired hlook hparts h t

end Scripts

section Turns

variable {alike : Parser → Parser → Prop} {lax : Prop} {fuel : Nat}

theorem TurnsAlike.dispatch {p' : Parser} {token : Token} {r r' : Parsed Node}
    (h : EndsAlike alike lax r r') :
    TurnsAlike alike lax p' (some (.dispatch token r.1, r.2))
      (some (.dispatch token r'.1, r'.2)) := by
  cases h with
  | same outcome h => exact .both rfl h
  | exhausted hlax p r' => exact .exhausted hlax rfl _ _

/-- Both parsers have the same token in front, which means to both what it means to a
parser with the built-in tags, and they stand alike behind it. -/
theorem turnsAlike_front (hlook : LooksAhead alike) (hparts : PartsAlike alike lax fuel)
    {token : Token} {rest rest' : List Token} {tags tags' : List (String × Tag)}
    {strict : Bool} (h : alike ⟨rest, tags, strict⟩ ⟨rest', tags', strict⟩)
    (htags : ∀ name, token.tagName? = some name →
      Keyed.find? name tags = Keyed.find? name Tag.builtin ∧
        Keyed.find? name tags' = Keyed.find? name Tag.builtin)
    (names : List String) :
    TurnsAlike alike lax ⟨token :: rest', tags', strict⟩
      (Parser.turn? fuel (.named names) ⟨token :: rest, tags, strict⟩)
      (Parser.turn? fuel (.named names) ⟨token :: rest', tags', strict⟩) := by
  simp only [Parser.turn?]
  cases token.kind with
  | text => exact .both rfl h
  | placeholder => exact .both rfl h
  | comment => exact .both rfl h
  | block =>
      simp only [Stop.named_eq_true_iff]
      split
      · exact .none
      · cases hname : token.tagName? with
        | none => exact .both rfl h
        | some name =>
            obtain ⟨hfind, hfind'⟩ := htags name hname
            have htable := Directive.find?_builtin hname
            simp only [hfind, hfind']
            cases hbuiltin : Keyed.find? name Tag.builtin with
            | none =>
                cases strict with
                | true => exact .both rfl h
                | false => exact .both rfl h
            | some tag =>
                rw [hbuiltin] at htable
                obtain ⟨directive, -, hscript⟩ := Option.map_eq_some_iff.1 htable.symm
                have hrun := runsAlike_directive hlook hparts h directive
                rw [hscript] at hrun
                exact .dispatch hrun

/-- Nothing is added by a token that is passed over. -/
theorem Turn.skip_followedBy (next : Parser → Parsed (List Node)) (p : Parser) :
    skip.followedBy next p = next p :=
  Prod.ext (Outcome.map_id (next p).1) rfl

/-- **Parts end alike if the turns do.** -/
theorem TakesTurns.partsAlike (hturns : TakesTurns alike lax) (fuel : Nat) :
    PartsAlike alike lax fuel := by
  induction fuel with
  | zero => exact fun names p p' _ h => .same .exhausted h
  | succ fuel ih =>
      intro names p p' hnames h
      have hturn := hturns fuel ih names p p' hnames h
      have hmono := Parser.parseUntil_mono (Nat.le_succ fuel) (.named names) p'
      rw [Parser.parseUntil_succ] at hmono
      rw [Parser.parseUntil_succ, Parser.parseUntil_succ]
      generalize p.turn? fuel (.named names) = next at hturn ⊢
      generalize p'.turn? fuel (.named names) = next' at hturn hmono ⊢
      cases hturn with
      | none => exact .same (.ok []) h
      | @both turn turn' q q' houtcome hq =>
          simp only [Turn.followedBy, ← houtcome]
          cases turn.outcome with
          | ok nodes => exact (ih names q q' hnames hq).map (nodes ++ ·)
          | error e => exact .same (.error e) hq
          | exhausted => exact .same .exhausted hq
      | exhausted hlax hexhausted q =>
          simp only [Turn.followedBy, hexhausted]
          exact .exhausted hlax _ _
      | @skip hlax q hq =>
          -- the second parser has one turn more than the induction gives it
          have hrest := ih names q p' hnames hq
          simp only [Turn.skip_followedBy]
          generalize Parser.parseUntil fuel (.named names) q = r at hrest ⊢
          generalize Parser.parseUntil fuel (.named names) p' = r' at hrest hmono
          cases hrest with
          | exhausted hlax p r' => exact .exhausted hlax p _
          | same outcome hr =>
              cases outcome with
              | ok nodes => rw [hmono (by simp)]; exact .same (.ok nodes) hr
              | error e => rw [hmono (by simp)]; exact .same (.error e) hr
              | exhausted => exact .exhausted hlax _ _

end Turns

end Templating
