import Mathlib.Data.List.Forall2
import Templating.Proofs.Concatenation
import Templating.Proofs.DottedPaths

/-!
# Loops and positions agree

The items of an array can be gone through by a loop, or taken one by one by their
positions.  Both give the same values.

**Unrolling.**  A loop over an array gives what its body gives in one scope for each
item, one after the other in the context of the loop, up to the first error
(`renderResult_loop`).

**Scopes.**  The scope of an iteration binds the item and `forloop`, and so hides what
is called like them outside (`Node.get?_loopFrame_item`).  The array is looked up before
any scope is bound, so that the expression of the loop may use both names.

**Positions.**  A number in decimal is read back as it is, up to the limit of what can be
a position (`position?_repr`).  There is an item at exactly the positions below the number
of items, and the limit is beyond them.

Main definition: `IsLoopName`.  Main statement: `loop_agrees_with_positions`.
-/

namespace Templating

open Text

section Unrolling

variable {c : Context}

/-- The texts of so many iterations, one behind the other. -/
def eachTime (count : Nat) (text : Nat → String) : String :=
  String.join ((List.range count).map text)

/-- A body that is rendered once in each scope gives the outputs one behind the other,
up to the first error. -/
theorem outcome_renderEach {body : Context → Rendered}
    {result : Scope → Except RenderError String}
    (hkeeps : ∀ c, (body c).context = c) {scopes : List Scope}
    (hbody : ∀ scope ∈ scopes, (body (c.push scope)).outcome = .ofExcept (result scope)) :
    (renderEach body scopes c).outcome =
      .ofExcept ((scopes.mapM result).map String.join) := by
  induction scopes with
  | nil => rfl
  | cons scope rest ih =>
      have hfirst := hbody scope List.mem_cons_self
      have hrest := ih fun s hs => hbody s (List.mem_cons_of_mem _ hs)
      have hcontext : (body (c.push scope)).leaveScope.context = c :=
        Rendered.context_leaveScope (hkeeps _)
      rw [renderEach, List.mapM_cons]
      cases hresult : result scope with
      | error e =>
          rw [hresult] at hfirst
          exact Rendered.outcome_followedBy_of_error hfirst
      | ok s =>
          rw [hresult] at hfirst
          have hfirst' : (body (c.push scope)).leaveScope.outcome = .ok s := hfirst
          rw [Rendered.outcome_followedBy_of_ok hfirst', hcontext, hrest,
            Outcome.map_ofExcept]
          refine congrArg Outcome.ofExcept ?_
          cases rest.mapM result with
          | error e => rfl
          | ok outputs => exact congrArg Except.ok String.join_cons.symm

/-- **A loop is its body once for each item.** -/
theorem renderResult_loop (env : Environment) {source : Expression} {items : List Value}
    (hsource : source.resolve? c = some (.array items)) (hitems : items ≠ [])
    (item : String) (body otherwise : List Node) :
    renderResult env [.loop item source body otherwise] c =
      ((Node.loopFrames item items).mapM fun scope =>
        renderResult env body (c.push scope)).map String.join := by
  -- one bound that is large enough for the loop and for its body in every iteration
  let loop : Node := .loop item source body otherwise
  let frames := Node.loopFrames item items
  let count nodes c := (includableNames env.files nodes c).length
  let depth := count [loop] c + (frames.map fun scope => count body (c.push scope)).sum
  have hloop : (renderWithin env (depth + 1) [loop] c).outcome =
      .ofExcept (renderResult env [loop] c) :=
    outcome_renderWithin (by simp only [depth, count]; omega)
  have hbody : ∀ scope ∈ frames,
      (renderNodes env (renderWithin env depth) body (c.push scope)).outcome =
        .ofExcept (renderResult env body (c.push scope)) := by
    intro scope hscope
    have hle := List.le_sum_of_mem (List.mem_map_of_mem
      (f := fun scope => count body (c.push scope)) hscope)
    have hdepth : count body (c.push scope) < depth + 1 := by
      simp only [depth]
      omega
    exact outcome_renderWithin hdepth
  have hkeeps := context_renderNodes env (context_renderWithin env depth) body
  have heach := outcome_renderEach hkeeps hbody
  obtain ⟨v, rest, rfl⟩ := List.exists_cons_of_ne_nil hitems
  have hloopItems : loopItems source c = v :: rest := by rw [loopItems, hsource]
  rw [renderWithin, renderNodes, outcome_followedBy_nil, Node.render, hloopItems] at hloop
  exact Outcome.ofExcept_injective (hloop.symm.trans heach)

/-- Placeholders in a row give their texts one behind the other. -/
theorem renderResult_placeholders (env : Environment) (c : Context)
    (expressions : List Expression) :
    renderResult env (expressions.map .placeholder) c =
      .ok (String.join (expressions.map fun e => e.outputText c)) := by
  induction expressions with
  | nil => exact renderResult_of_outcome rfl
  | cons e rest ih =>
      have hjoined := renderResult_joined
        (.apart [.placeholder e] (rest.map .placeholder)) env c
      rw [renderResult_placeholder, ih] at hjoined
      rw [List.map_cons, List.map_cons, String.join_cons]
      exact hjoined

theorem mapM_eq_ok {α β ε : Type} {f : α → Except ε β} {xs : List α} {ys : List β}
    (h : List.Forall₂ (fun x y => f x = .ok y) xs ys) : xs.mapM f = .ok ys := by
  induction h with
  | nil => rfl
  | cons hhead _ ih => rw [List.mapM_cons, hhead, ih]; rfl

/-- A loop with a body that does not fail gives the texts of all iterations. -/
theorem renderResult_loop_ok (env : Environment) {source : Expression}
    {items : List Value} (hsource : source.resolve? c = some (.array items))
    (hitems : items ≠ []) {item : String} {body : List Node} {texts : List String}
    (hlength : texts.length = items.length)
    (hbody : ∀ index v text, items[index]? = some v → texts[index]? = some text →
      renderResult env body (c.push (Node.loopFrame item index items.length v)) =
        .ok text)
    (otherwise : List Node) :
    renderResult env [.loop item source body otherwise] c =
      .ok (String.join texts) := by
  have hframes : ((Node.loopFrames item items).mapM fun scope =>
      renderResult env body (c.push scope)) = .ok texts := by
    refine mapM_eq_ok (List.forall₂_iff_get.2 ⟨by simp [Node.loopFrames, hlength], ?_⟩)
    intro index _ htext
    have hindex : index < items.length := by omega
    simpa [Node.loopFrames] using hbody index items[index] texts[index]
      (List.getElem?_eq_getElem hindex) (List.getElem?_eq_getElem htext)
  rw [renderResult_loop env hsource hitems, hframes]
  rfl

end Unrolling

section Iteration

variable {c : Context} {item : String} {index count : Nat} {v : Value}

namespace Node

theorem get?_loopFrame_item (hitem : item ≠ "forloop") :
    (c.push (loopFrame item index count v)).get? item = some v := by
  rw [Context.get?_push, loopFrame, Keyed.find?_insert_of_ne _ _ hitem]
  simp [Keyed.find?]

theorem get?_loopFrame_forloop :
    (c.push (loopFrame item index count v)).get? "forloop" =
      some (loopPosition index count) := by
  rw [Context.get?_push, loopFrame, Keyed.find?_insert_self, Option.some_or]

end Node

/-- A name for the items of a loop: one segment, as it is written, and not the name of
the position. -/
structure IsLoopName (name : String) : Prop where
  noDot : '.' ∉ name.toList
  noBlank : ∀ c ∈ name.toList, isBlank c = false
  unquoted : Expression.quoted? name.toList = none
  ne_forloop : name ≠ "forloop"

/-- The name of the items means the item. -/
theorem IsLoopName.resolve?_eq (h : IsLoopName item) :
    (Expression.ofSource item).resolve?
      (c.push (Node.loopFrame item index count v)) = some v := by
  have htrim : trim item = item :=
    trim_eq_self (fun c hc => h.noBlank c (List.mem_of_head? hc))
      (fun c hc => h.noBlank c (List.mem_of_getLast? hc))
  rw [Expression.resolve?_ofSource htrim h.noDot h.unquoted,
    Node.get?_loopFrame_item h.ne_forloop]

/-- What `forloop` means in an iteration, field by field. -/
theorem resolve?_forloop :
    (Expression.ofSource "forloop.counter").resolve?
        (c.push (Node.loopFrame item index count v)) = some (.ofNat (index + 1)) ∧
      (Expression.ofSource "forloop.first").resolve?
        (c.push (Node.loopFrame item index count v)) = some (.bool (index = 0)) ∧
      (Expression.ofSource "forloop.last").resolve?
        (c.push (Node.loopFrame item index count v)) =
          some (.bool (index + 1 = count)) := by
  have hstep (source segment : String)
      (hliteral : (Expression.ofSource source).literal? = none)
      (hsegments : (Expression.ofSource source).segments = ["forloop", segment]) :
      (Expression.ofSource source).resolve?
        (c.push (Node.loopFrame item index count v)) =
          (Node.loopPosition index count).step? segment := by
    rw [Expression.resolve?_of_segments hliteral hsegments, Node.get?_loopFrame_forloop,
      Option.bind_some, Value.steps?_singleton]
  refine ⟨?_, ?_, ?_⟩
  · rw [hstep "forloop.counter" "counter" rfl rfl]
    rfl
  · rw [hstep "forloop.first" "first" rfl rfl]
    rfl
  · rw [hstep "forloop.last" "last" rfl rfl]
    rfl

end Iteration

section Positions

theorem isDigit_of_mem_repr {k : Nat} {c : Char} (h : c ∈ k.repr.toList) :
    c.isDigit = true := by
  rw [Nat.repr_eq_ofList_toDigits, String.toList_ofList] at h
  exact Nat.isDigit_of_mem_toDigits (by decide) (by decide) h

/-- **A position in decimal is read back** if it is below the limit, and is no position
otherwise. -/
theorem position?_repr (limit k : Nat) :
    position? limit k.repr = if k < limit then some k else none := by
  have hdigits : k.repr.toList = Nat.toDigits 10 k := by
    rw [Nat.repr_eq_ofList_toDigits, String.toList_ofList]
  have hall : (Nat.toDigits 10 k).all Char.isDigit = true := by
    rw [← hdigits, List.all_eq_true]
    exact fun c hc => isDigit_of_mem_repr hc
  have hne : (Nat.toDigits 10 k).isEmpty = false :=
    List.isEmpty_eq_false_iff.2 Nat.toDigits_ne_nil
  have hsign (rest : List Char) : Nat.toDigits 10 k ≠ '+' :: rest := by
    intro h
    have hplus : '+'.isDigit = true := isDigit_of_mem_repr (k := k) (by simp [hdigits, h])
    cases hplus
  -- no sign is taken off, by `hsign`
  simp only [position?, hdigits, hall, if_true]
  rw [hne, Nat.ofDigitChars_toDigits (by decide) (by decide)]
  rfl

/-- A number in decimal is not called as anything else. -/
theorem repr_ne_of_all_isDigit_eq_false {name : String}
    (h : name.toList.all Char.isDigit = false) (k : Nat) : k.repr ≠ name := by
  rintro rfl
  have hall : k.repr.toList.all Char.isDigit = true :=
    List.all_eq_true.2 fun c hc => isDigit_of_mem_repr hc
  rw [hall] at h
  cases h

theorem plainSegment_repr (k : Nat) : Expression.PlainSegment k.repr := by
  have hplain : ∀ c : Char, c.isDigit = true →
      c ≠ '.' ∧ isBlank c = false ∧ c ≠ '"' ∧ c ≠ '\'' := by
    intro c hc
    refine ⟨?_, isBlank_of_isDigit hc, ?_, ?_⟩
    · rintro rfl
      cases hc
    · rintro rfl
      cases hc
    · rintro rfl
      cases hc
  have hlast {c : Char} (hc : c ∈ k.repr.toList.getLast?) :=
    hplain c (isDigit_of_mem_repr (List.mem_of_getLast? hc))
  exact ⟨fun h => (hplain '.' (isDigit_of_mem_repr h)).1 rfl, fun c hc => (hlast hc).2.1,
    fun c hc => (hlast hc).2.2⟩

namespace Value

variable (items : List Value)

/-- There is an item at exactly the positions below the number of items.  A number that is
too large for a position is beyond all of them. -/
theorem step?_position (k : Nat) : (array items).step? k.repr = items[k]? := by
  have hfirst : k.repr ≠ "first" := repr_ne_of_all_isDigit_eq_false (by decide) k
  have hlast : k.repr ≠ "last" := repr_ne_of_all_isDigit_eq_false (by decide) k
  have hcount : k.repr ≠ "count" := repr_ne_of_all_isDigit_eq_false (by decide) k
  rw [step?, child?, if_neg hfirst, if_neg hlast, if_neg hcount, position?_repr,
    Option.or_none]
  by_cases hk : k < positionLimit items
  · rw [if_pos hk, Option.bind_some]
  · have hlength : items.length ≤ k :=
      (Nat.le_max_right _ _).trans (Nat.not_lt.1 hk)
    rw [if_neg hk, Option.bind_none, List.getElem?_eq_none hlength]

theorem step?_first : (array items).step? "first" = items[0]? := by
  rw [step?, child?, if_pos rfl, if_neg (by decide), Option.or_none,
    List.head?_eq_getElem?]

theorem step?_last : (array items).step? "last" = items[items.length - 1]? := by
  rw [step?, child?, if_neg (by decide), if_pos rfl, if_neg (by decide), Option.or_none,
    List.getLast?_eq_getElem?]

theorem step?_count : (array items).step? "count" = some (ofNat items.length) := by
  rw [step?, child?, if_neg (by decide), if_neg (by decide), if_pos rfl]
  rfl

/-- A count is written in decimal. -/
theorem outputText_ofNat (n : Nat) : (ofNat n).outputText = n.repr := by
  have hsign : ¬ (n : Int) < 0 := Int.not_lt.2 (Int.natCast_nonneg n)
  simp [ofNat, outputText, Json.compactText, Json.compact, Number.text,
    Number.integerText, hsign, Nat.repr_eq_ofList_toDigits]

end Value

end Positions

section Bodies

theorem eq_of_eachTime {count index : Nat} {text : Nat → String} {s : String}
    (h : ((List.range count).map text)[index]? = some s) : text index = s := by
  obtain ⟨hindex, hs⟩ := List.getElem?_eq_some_iff.1 h
  simpa using hs

variable {c : Context} {source : Expression} {items : List Value} {item : String}
  (env : Environment) (hsource : source.resolve? c = some (.array items))
  (hitems : items ≠ []) (otherwise : List Node)
include hsource hitems

theorem renderResult_loop_item (hitem : IsLoopName item) :
    renderResult env [.loop item source [.placeholder (.ofSource item)] otherwise] c =
      .ok (String.join (items.map Value.outputText)) := by
  refine renderResult_loop_ok env hsource hitems (by simp) ?_ otherwise
  intro index v text hv htext
  obtain rfl : v.outputText = text := by simpa [hv] using htext
  rw [renderResult_placeholder, Expression.outputText_of_resolve? hitem.resolve?_eq]

theorem renderResult_loop_counter :
    renderResult env
        [.loop item source [.placeholder (.ofSource "forloop.counter")] otherwise] c =
      .ok (eachTime items.length fun index => (index + 1).repr) := by
  refine renderResult_loop_ok env hsource hitems (by simp) ?_ otherwise
  intro index v text hv htext
  obtain rfl := eq_of_eachTime htext
  rw [renderResult_placeholder, Expression.outputText_of_resolve? resolve?_forloop.1,
    Value.outputText_ofNat]

/-- A body that is a choice gives one of two texts, as the condition says. -/
theorem renderResult_loop_choice {condition : Expression} {holds : Nat → Bool}
    (hcondition : ∀ index v,
      condition.resolve? (c.push (Node.loopFrame item index items.length v)) =
        some (.bool (holds index)))
    (yes no : String) :
    renderResult env
        [.loop item source [.branch condition [.text yes] [.text no]] otherwise] c =
      .ok (eachTime items.length fun index => if holds index then yes else no) := by
  refine renderResult_loop_ok env hsource hitems (by simp) ?_ otherwise
  intro index v text hv htext
  obtain rfl := eq_of_eachTime htext
  have hholds := hcondition index v
  refine renderResult_of_outcome ?_
  cases hb : holds index <;>
    simp [render, renderWithin, renderNodes, Node.render, hholds, hb, Value.isTruthy,
      Rendered.ok, Rendered.followedBy, Outcome.map, Outcome.ofExcept]

end Bodies

section Agreement

variable {c : Context} {p : Expression} {items : List Value} {item : String}

/-- Quoted texts are no arrays. -/
theorem Expression.literal?_of_array (h : p.resolve? c = some (.array items)) :
    p.literal? = none := by
  unfold resolve? at h
  split at h
  · cases h
  · next hliteral => exact hliteral

/-- A segment behind an array is a step from the array. -/
theorem resolve?_field_of_array {segment : String} (htrim : trim p.text = p.text)
    (hp : p.resolve? c = some (.array items))
    (hsegment : Expression.PlainSegment segment) :
    (p.field segment).resolve? c = (Value.array items).step? segment := by
  rw [hsegment.resolve?_field htrim (Expression.literal?_of_array hp), hp,
    Option.bind_some]

theorem resolve?_position (htrim : trim p.text = p.text)
    (hp : p.resolve? c = some (.array items)) (k : Nat) :
    (p.field k.repr).resolve? c = items[k]? := by
  rw [resolve?_field_of_array htrim hp (plainSegment_repr k), Value.step?_position]

/-- **The positions of an array one by one.** -/
theorem renderResult_positions (env : Environment) (htrim : trim p.text = p.text)
    (hp : p.resolve? c = some (.array items)) :
    renderResult env
        ((List.range items.length).map fun k => .placeholder (p.field k.repr)) c =
      .ok (String.join (items.map Value.outputText)) := by
  have hplaceholders := renderResult_placeholders env c
    ((List.range items.length).map fun k => p.field k.repr)
  rw [List.map_map] at hplaceholders
  -- the texts of the placeholders are those of the items
  have htexts : ((List.range items.length).map fun k => p.field k.repr).map
      (fun e => e.outputText c) = items.map Value.outputText := by
    refine List.ext_getElem (by simp) fun k h _ => ?_
    have hk : k < items.length := by simpa using h
    have hresolve := resolve?_position htrim hp k
    rw [List.getElem?_eq_getElem hk] at hresolve
    simp [Expression.outputText_of_resolve? hresolve]
  rw [htexts] at hplaceholders
  exact hplaceholders

/-- **Loops and positions agree.** A loop over an array shows its items as placeholders of
their positions show them one by one, whatever the names in its scopes hide; it counts its
iterations from one, and knows the first and the last one.  The first item, the last
one and the count are those of the array, and behind the last position there is nothing,
at no number that can be written. -/
theorem loop_agrees_with_positions (htrim : trim p.text = p.text)
    (hp : p.resolve? c = some (.array items)) (hitems : items ≠ [])
    (hitem : IsLoopName item) (env : Environment) (otherwise : List Node) :
    renderResult env [.loop item p [.placeholder (.ofSource item)] otherwise] c =
        renderResult env
          ((List.range items.length).map fun i => .placeholder (p.field i.repr)) c ∧
      renderResult env [.loop item p [.placeholder (.ofSource item)] otherwise] c =
        .ok (String.join (items.map Value.outputText)) ∧
      renderResult env
          [.loop item p [.placeholder (.ofSource "forloop.counter")] otherwise] c =
        .ok (eachTime items.length fun i => (i + 1).repr) ∧
      (∀ yes no, renderResult env
          [.loop item p [.branch (.ofSource "forloop.first") [.text yes] [.text no]]
            otherwise] c =
        .ok (eachTime items.length fun i => if i = 0 then yes else no)) ∧
      (∀ yes no, renderResult env
          [.loop item p [.branch (.ofSource "forloop.last") [.text yes] [.text no]]
            otherwise] c =
        .ok (eachTime items.length fun i =>
          if i = items.length - 1 then yes else no)) ∧
      (∀ i (h : i < items.length), (p.field i.repr).resolve? c = some items[i]) ∧
      (p.field "first").resolve? c = (p.field "0").resolve? c ∧
      (p.field "last").resolve? c = (p.field (items.length - 1).repr).resolve? c ∧
      (p.field "count").resolve? c = some (.ofNat items.length) ∧
      ∀ k, items.length ≤ k → (p.field k.repr).resolve? c = none := by
  have hpseudo {name : String} (h : name ∈ Expression.pseudoKeys) :
      (p.field name).resolve? c = (Value.array items).step? name :=
    resolve?_field_of_array htrim hp (Expression.plainSegment_of_mem_pseudoKeys h)
  have hposition (k : Nat) : (p.field k.repr).resolve? c = items[k]? :=
    resolve?_position htrim hp k
  have hshown := renderResult_loop_item env hp hitems otherwise hitem
  have hlast (i : Nat) : i + 1 = items.length ↔ i = items.length - 1 := by
    have hpositive := List.length_pos_iff.2 hitems
    omega
  refine ⟨hshown.trans (renderResult_positions env htrim hp).symm, hshown,
    renderResult_loop_counter env hp hitems otherwise, fun yes no => ?_,
    fun yes no => ?_, fun i h => ?_, ?_, ?_, ?_, fun k hk => ?_⟩
  · simpa using renderResult_loop_choice env hp hitems otherwise
      (fun _ _ => resolve?_forloop.2.1) yes no
  · simpa [hlast] using renderResult_loop_choice env hp hitems otherwise
      (fun _ _ => resolve?_forloop.2.2) yes no
  · rw [hposition, List.getElem?_eq_getElem h]
  · rw [hpseudo (by decide), Value.step?_first]
    exact (hposition 0).symm
  · rw [hpseudo (by decide), Value.step?_last, hposition]
  · rw [hpseudo (by decide), Value.step?_count]
  · rw [hposition, List.getElem?_eq_none hk]

/-- A list that is called as the position of an iteration, in a variable that is called
as the items of the loop below. -/
def hiddenListContext : Context :=
  .ofScope [("x", .object [("forloop", .array [.string "a", .null, .string "b"])])]

theorem loop_over_hiddenList :
    (Expression.ofSource " x.forloop ").resolve? hiddenListContext =
        some (.array [.string "a", .null, .string "b"]) ∧
      IsLoopName "x" ∧
      (∀ env, renderResult env
        [.loop "x" (.ofSource " x.forloop ") [.placeholder (.ofSource "x")] []]
        hiddenListContext = .ok "ab") ∧
      ((Expression.ofSource " x.forloop ").field "2").resolve? hiddenListContext =
        some (.string "b") ∧
      ((Expression.ofSource " x.forloop ").field (2 ^ 64 + 1).repr).resolve?
        hiddenListContext = none := by
  have hlist : (Expression.ofSource " x.forloop ").resolve? hiddenListContext =
      some (.array [.string "a", .null, .string "b"]) := rfl
  have hname : IsLoopName "x" := ⟨by decide, by simp [isBlank], by decide, by decide⟩
  have hagree (env : Environment) := loop_agrees_with_positions
    (Expression.trim_ofSource _) hlist (List.cons_ne_nil _ _) hname env []
  obtain ⟨-, -, -, -, -, hposition, -, -, -, habsent⟩ := hagree ⟨⟨[], []⟩, ⟨0, 0, 0⟩⟩
  refine ⟨hlist, hname, fun env => ?_, hposition 2 (by decide), habsent _ (by decide)⟩
  obtain ⟨-, hshown, -⟩ := hagree env
  exact hshown

end Agreement

end Templating
