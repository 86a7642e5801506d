import Templating.Parser.Builtin

/-!
# Parsing comes to an end

A script that puts back at most as many tokens as it has taken, and registers
only tags of that kind, leaves a queue that is no longer than before. If all tags
of a parser are like that, they stay like that, and a bound above the length of
the queue is never reached. The built-in tags are.

Main definitions: `Script.Frugal` and `FrugalTags`. Main statements:
`parseUntil_terminates`, and `ofTokens_not_exhausted` for the built-in tags.
-/

namespace Templating

section Frugal

/-- A script that puts back at most `credit` tokens more than it takes, and
registers only tags that put back no more than they take. -/
inductive Script.Frugal : Nat → Script → Prop where
  | done (credit : Nat) (node : Node) : Frugal credit (.done node)
  | fail (credit : Nat) (error : ParseError) : Frugal credit (.fail error)
  | next {credit : Nat} {cont : Option Token → Script}
      (some : ∀ token, Frugal (credit + 1) (cont (some token)))
      (none : Frugal credit (cont none)) :
      Frugal credit (.next cont)
  | prepend {credit : Nat} {token : Token} {cont : Script}
      (rest : Frugal credit cont) :
      Frugal (credit + 1) (.prepend token cont)
  | inspect {credit : Nat} {cont : View → Script}
      (rest : ∀ view, Frugal credit (cont view)) :
      Frugal credit (.inspect cont)
  | register {credit : Nat} {name : String} {tag : Token → Script} {cont : Script}
      (registered : ∀ token, Frugal 0 (tag token)) (rest : Frugal credit cont) :
      Frugal credit (.register name tag cont)
  | parse {credit : Nat} {stop : Stop}
      {cont : Except ParseError (List Node) → Script}
      (rest : ∀ result, Frugal credit (cont result)) :
      Frugal credit (.parse stop cont)

/-- Tags that put back no more than they take. -/
def FrugalTags (tags : List (String × Tag)) : Prop :=
  ∀ name tag, (name, tag) ∈ tags → ∀ token, (tag token : Script).Frugal 0

theorem FrugalTags.insert {tags : List (String × Tag)} {name : String} {tag : Tag}
    (htags : FrugalTags tags) (htag : ∀ token, (tag token : Script).Frugal 0) :
    FrugalTags (Keyed.insert name tag tags) := by
  intro other found h
  rcases Keyed.mem_insert_cases h with heq | hmem
  · cases heq
    exact htag
  · exact htags other found hmem

/-- What a parse leaves: no bound was reached, the tags are frugal, and the queue has
at most `length` tokens. -/
def Parsed.Settled {α : Type} (length : Nat) (r : Parsed α) : Prop :=
  r.1 ≠ .exhausted ∧ FrugalTags r.2.tags ∧ r.2.queue.length ≤ length

theorem Parsed.Settled.mono {α : Type} {m n : Nat} {r : Parsed α}
    (h : r.Settled m) (hmn : m ≤ n) : r.Settled n :=
  ⟨h.1, h.2.1, Nat.le_trans h.2.2 hmn⟩

theorem Parsed.Settled.cons {n : Nat} {r : Parsed (List Node)}
    (h : r.Settled n) (node : Node) : (Parsed.cons node r).Settled n :=
  ⟨fun he => h.1 ((Outcome.map_eq_exhausted_iff _ _).1 he), h.2⟩

/-- A frugal script settles if the bodies it asks for do. -/
theorem Script.run_settled
    {bound : Nat} {body : Stop → Parser → Parsed (List Node)}
    (hbody : ∀ stop p, FrugalTags p.tags → p.queue.length < bound →
      (body stop p).Settled p.queue.length)
    {credit : Nat} {script : Script} (hs : script.Frugal credit) :
    ∀ p : Parser, FrugalTags p.tags → p.queue.length + credit < bound →
      (script.run body p).Settled (p.queue.length + credit) := by
  induction hs with
  | done credit node =>
      intro p ht _
      exact ⟨by simp [run], ht, Nat.le_add_right _ _⟩
  | fail credit error =>
      intro p ht _
      exact ⟨by simp [run], ht, Nat.le_add_right _ _⟩
  | @next credit cont _ _ ihs ihn =>
      intro p ht hl
      simp only [run, Parser.next]
      cases hq : p.queue with
      | nil =>
          have := ihn p ht hl
          rwa [hq] at this
      | cons token rest =>
          rw [hq] at hl
          simp only [List.length_cons] at hl
          have := ihs token { p with queue := rest } ht
            (by simp only; omega)
          exact this.mono (by simp only [List.length_cons]; omega)
  | @prepend credit token cont _ ih =>
      intro p ht hl
      simp only [run, Parser.prepend]
      have := ih { p with queue := token :: p.queue } ht
        (by simp only [List.length_cons]; omega)
      exact this.mono (by simp only [List.length_cons]; omega)
  | inspect _ ih =>
      intro p ht hl
      exact ih p.view p ht hl
  | register htag _ _ ih =>
      intro p ht hl
      exact ih (p.register _ _) (ht.insert htag) hl
  | @parse credit stop cont _ ih =>
      intro p ht hl
      have hb := hbody stop p ht (by omega)
      simp only [run]
      split
      · next nodes q hq =>
          rw [hq] at hb
          exact (ih (.ok nodes) q hb.2.1 (by have := hb.2.2; simp only at this; omega)).mono
            (by have := hb.2.2; simp only at this; omega)
      · next e q hq =>
          rw [hq] at hb
          exact (ih (.error e) q hb.2.1 (by have := hb.2.2; simp only at this; omega)).mono
            (by have := hb.2.2; simp only at this; omega)
      · next q hq =>
          rw [hq] at hb
          exact absurd rfl hb.1

end Frugal

section Terminates

theorem mem_of_find? {β : Type} {key : String} {entries : List (String × β)}
    {value : β} (h : Keyed.find? key entries = some value) :
    (key, value) ∈ entries := by
  induction entries with
  | nil => simp [Keyed.find?] at h
  | cons e rest ih =>
      obtain ⟨k, v⟩ := e
      simp only [Keyed.find?] at h
      split at h
      · next hk => simp_all
      · exact List.mem_cons_of_mem _ (ih h)

/-- With frugal tags, a bound above the length of the queue is not reached. -/
theorem Parser.parseUntil_terminates (fuel : Nat) :
    ∀ (stop : Stop) (p : Parser), FrugalTags p.tags → p.queue.length < fuel →
      (parseUntil fuel stop p).Settled p.queue.length := by
  induction fuel with
  | zero => intro stop p _ h; exact absurd h (Nat.not_lt_zero _)
  | succ fuel ih =>
      intro stop p ht hl
      unfold parseUntil
      cases hq : p.queue with
      | nil => exact ⟨by simp, ht, by simp [hq]⟩
      | cons token rest =>
          rw [hq] at hl
          simp only [List.length_cons] at hl
          have hrest := ih stop { p with queue := rest } ht
            (by simp only; omega)
          have hrest' := hrest.mono (n := (token :: rest).length)
            (by simp)
          simp only
          cases hk : token.kind with
          | text => exact hrest'.cons _
          | placeholder => exact hrest'.cons _
          | comment => exact hrest'
          | block =>
              simp only
              split
              · exact ⟨by simp, ht, by simp [hq]⟩
              · cases htn : token.tagName? with
                | none => exact hrest'
                | some name =>
                    simp only
                    split
                    · next tag hfind =>
                        have hr := Script.run_settled ih
                          (ht name tag (mem_of_find? hfind) token)
                          { p with queue := rest } ht
                          (by simp only; omega)
                        split
                        · next node q hrun =>
                            rw [hrun] at hr
                            have hle := hr.2.2
                            simp only [Nat.add_zero] at hle
                            have hgo := ih stop q hr.2.1 (by omega)
                            exact (hgo.mono (by
                              simp only [List.length_cons]; omega)).cons _
                        · next e q hrun =>
                            rw [hrun] at hr
                            refine ⟨by simp, hr.2.1, ?_⟩
                            have hle := hr.2.2
                            simp only [Nat.add_zero] at hle
                            simp only [List.length_cons]
                            omega
                        · next q hrun =>
                            rw [hrun] at hr
                            exact absurd rfl hr.1
                    · split
                      · exact ⟨by simp, ht, by simp⟩
                      · exact hrest'

end Terminates

section Builtin

namespace Script

theorem Frugal.body {names : List String} {cont : List Node → Script}
    (h : ∀ nodes, (cont nodes).Frugal 0) : (body names cont).Frugal 0 :=
  .parse fun result => by
    cases result with
    | ok nodes => exact h nodes
    | error e => exact .fail 0 e

theorem Frugal.weaken {credit : Nat} {script : Script}
    (h : script.Frugal credit) : script.Frugal (credit + 1) := by
  induction h with
  | done credit node => exact .done _ node
  | fail credit error => exact .fail _ error
  | next _ _ ihs ihn => exact .next ihs ihn
  | prepend _ ih => exact .prepend ih
  | inspect _ ih => exact .inspect ih
  | register htag _ _ ih => exact .register htag ih
  | parse _ ih => exact .parse ih

theorem Frugal.alternative
    {name : String} {stops : List String} {cont : List Node → Script}
    (h : ∀ nodes, (cont nodes).Frugal 0) :
    (alternative name stops cont).Frugal 0 :=
  .inspect fun view => by
    split
    · exact .next (fun _ => (Frugal.body h).weaken) (.body h)
    · exact h []

theorem Frugal.expectEnd {tag closing : String} {cont : Script}
    (h : cont.Frugal 0) : (expectEnd tag closing cont).Frugal 0 :=
  .next
    (fun token => by
      simp only
      split
      · exact h.weaken
      · exact .prepend (.fail 0 _))
    (.fail 0 _)

end Script

/-- The built-in tags put back only what they have taken. -/
theorem Tag.builtin_frugal : FrugalTags builtin := by
  intro name tag h token
  simp only [builtin, List.mem_cons, Prod.mk.injEq, List.not_mem_nil,
    or_false] at h
  rcases h with ⟨-, rfl⟩ | ⟨-, rfl⟩ | ⟨-, rfl⟩ | ⟨-, rfl⟩ | ⟨-, rfl⟩
  · unfold loop
    split
    · split
      · exact .body fun _ => .alternative fun _ => .expectEnd (.done 0 _)
      · exact .fail 0 _
    · exact .fail 0 _
  · unfold when branch
    split
    · exact .body fun _ => .alternative fun _ => .expectEnd (.done 0 _)
    · exact .fail 0 _
  · unfold whenNot branch
    split
    · exact .body fun _ => .alternative fun _ => .expectEnd (.done 0 _)
    · exact .fail 0 _
  · unfold inclusion
    split
    · exact .done 0 _
    · exact .fail 0 _
  · unfold now
    split
    · exact .done 0 _
    · exact .done 0 _
    · exact .fail 0 _

/-- With the built-in tags, a bound above the number of tokens is not reached. -/
theorem Parser.ofTokens_not_exhausted (strict : Bool) (tokens : List Token) :
    (parse (tokens.length + 1) (ofTokens strict tokens)).1 ≠ .exhausted :=
  (parseUntil_terminates (tokens.length + 1) .never (ofTokens strict tokens)
    Tag.builtin_frugal (Nat.lt_succ_self _)).1

end Builtin

end Templating
