import Templating.Render

/-!
# The values that a rendering can come to

An expression takes parts of the values in the scopes, and a loop binds parts of
them together with the position of the iteration.  So all values that are bound at
any time lie in a finite set, which the values of the first context determine:
their parts, and the parts of the positions in their arrays.

Main definition: `Value.Closed`, a set of values that steps of expressions and
loops do not leave.  Main statements: `Value.reachable_closed`, and
`Expression.resolve?_cases`, what an expression can resolve to.
-/

namespace Templating

section Parts

namespace Value

theorem mem_parts_self (v : Value) : v ∈ v.parts := by
  cases v <;> simp [parts]

theorem mem_itemParts {items : List Value} {v w : Value}
    (hv : v ∈ items) (hw : w ∈ v.parts) : w ∈ itemParts items := by
  induction items with
  | nil => simp at hv
  | cons head rest ih =>
      rcases List.mem_cons.1 hv with rfl | hrest
      · exact List.mem_append_left _ hw
      · exact List.mem_append_right _ (ih hrest)

theorem mem_fieldParts {fields : List (String × Value)} {key : String}
    {v w : Value} (hv : (key, v) ∈ fields) (hw : w ∈ v.parts) :
    w ∈ fieldParts fields := by
  induction fields with
  | nil => simp at hv
  | cons head rest ih =>
      rcases List.mem_cons.1 hv with rfl | hrest
      · exact List.mem_append_left _ hw
      · exact List.mem_append_right _ (ih hrest)

mutual

theorem parts_trans {u w : Value} :
    ∀ v : Value, w ∈ v.parts → u ∈ w.parts → u ∈ v.parts
  | .null, hw, hu => by
      obtain rfl := List.mem_singleton.1 hw
      exact hu
  | .bool _, hw, hu => by
      obtain rfl := List.mem_singleton.1 hw
      exact hu
  | .number _, hw, hu => by
      obtain rfl := List.mem_singleton.1 hw
      exact hu
  | .string _, hw, hu => by
      obtain rfl := List.mem_singleton.1 hw
      exact hu
  | .array items, hw, hu => by
      rcases List.mem_cons.1 hw with rfl | hitems
      · exact hu
      · exact List.mem_cons_of_mem _ (itemParts_trans items hitems hu)
  | .object fields, hw, hu => by
      rcases List.mem_cons.1 hw with rfl | hfields
      · exact hu
      · exact List.mem_cons_of_mem _ (fieldParts_trans fields hfields hu)

theorem itemParts_trans {u w : Value} :
    ∀ items : List Value, w ∈ itemParts items → u ∈ w.parts →
      u ∈ itemParts items
  | v :: rest, hw, hu => by
      rcases List.mem_append.1 hw with hv | hrest
      · exact List.mem_append_left _ (parts_trans v hv hu)
      · exact List.mem_append_right _ (itemParts_trans rest hrest hu)

theorem fieldParts_trans {u w : Value} :
    ∀ fields : List (String × Value), w ∈ fieldParts fields → u ∈ w.parts →
      u ∈ fieldParts fields
  | (_, v) :: rest, hw, hu => by
      rcases List.mem_append.1 hw with hv | hrest
      · exact List.mem_append_left _ (parts_trans v hv hu)
      · exact List.mem_append_right _ (fieldParts_trans rest hrest hu)

end

theorem item_mem_parts {items : List Value} {v : Value} (h : v ∈ items) :
    v ∈ (array items).parts :=
  List.mem_cons_of_mem _ (mem_itemParts h v.mem_parts_self)

/-- A step of an expression leads to a part. -/
theorem child?_mem_parts {v w : Value} {segment : String}
    (h : v.child? segment = some w) : w ∈ v.parts := by
  cases v with
  | object fields =>
      have hmem : (segment, w) ∈ fields := mem_of_find? h
      exact List.mem_cons_of_mem _ (mem_fieldParts hmem w.mem_parts_self)
  | array items =>
      refine item_mem_parts ?_
      simp only [child?] at h
      split at h
      · exact List.mem_of_head? h
      · split at h
        · exact List.mem_of_getLast? h
        · obtain ⟨i, -, hi⟩ := Option.bind_eq_some_iff.1 h
          exact List.mem_of_getElem? hi
  | null => simp [child?] at h
  | bool b => simp [child?] at h
  | number n => simp [child?] at h
  | string s => simp [child?] at h

end Value

end Parts

section Closed

namespace Value

/-- A set of values that contains the parts of each of them and the position of
each iteration over an array in it. -/
structure Closed (S : Value → Prop) : Prop where
  parts : ∀ {v w : Value}, S v → w ∈ v.parts → S w
  position : ∀ {items : List Value} {index : Nat}, S (.array items) →
    index < items.length → S (Node.loopPosition index items.length)

theorem mem_reachable_iff (v w : Value) :
    w ∈ v.reachable ↔
      w ∈ v.parts ∨ ∃ items index, .array items ∈ v.parts ∧
        index < items.length ∧
        w ∈ (Node.loopPosition index items.length).parts := by
  unfold reachable
  simp only [List.mem_append, List.mem_flatMap]
  constructor
  · rintro (hparts | ⟨p, ⟨a, ha, hp⟩, hw⟩)
    · exact .inl hparts
    · cases a with
      | array items =>
          simp only [positions, List.mem_map, List.mem_range] at hp
          obtain ⟨index, hindex, rfl⟩ := hp
          exact .inr ⟨items, index, ha, hindex, hw⟩
      | null => simp [positions] at hp
      | bool b => simp [positions] at hp
      | number n => simp [positions] at hp
      | string s => simp [positions] at hp
      | object fields => simp [positions] at hp
  · rintro (hparts | ⟨items, index, ha, hindex, hw⟩)
    · exact .inl hparts
    · refine .inr ⟨_, ⟨_, ha, ?_⟩, hw⟩
      simp only [positions, List.mem_map, List.mem_range]
      exact ⟨index, hindex, rfl⟩

/-- There is no array in the position of an iteration. -/
theorem array_notMem_loopPosition_parts (items : List Value)
    (index count : Nat) :
    .array items ∉ (Node.loopPosition index count).parts := by
  simp [Node.loopPosition, parts, fieldParts, ofNat]

/-- What can be reached from values is closed. -/
theorem reachable_closed (values : List Value) :
    Closed (· ∈ values.flatMap reachable) where
  parts := by
    intro v w hv hw
    obtain ⟨root, hroot, hv⟩ := List.mem_flatMap.1 hv
    refine List.mem_flatMap.2 ⟨root, hroot, (mem_reachable_iff _ _).2 ?_⟩
    rcases (mem_reachable_iff _ _).1 hv with hparts | ⟨items, index, ha, hi, hv⟩
    · exact .inl (parts_trans root hparts hw)
    · exact .inr ⟨items, index, ha, hi, parts_trans _ hv hw⟩
  position := by
    intro items index hitems hindex
    obtain ⟨root, hroot, hitems⟩ := List.mem_flatMap.1 hitems
    refine List.mem_flatMap.2 ⟨root, hroot, (mem_reachable_iff _ _).2 ?_⟩
    rcases (mem_reachable_iff _ _).1 hitems with hparts | ⟨more, i, -, -, hpos⟩
    · exact .inr ⟨items, index, hparts, hindex, mem_parts_self _⟩
    · exact absurd hpos (array_notMem_loopPosition_parts items i more.length)

theorem mem_reachable_of_mem {values : List Value} {v : Value}
    (h : v ∈ values) : v ∈ values.flatMap reachable :=
  List.mem_flatMap.2
    ⟨v, h, (mem_reachable_iff v v).2 (.inl v.mem_parts_self)⟩

end Value

end Closed

section Resolve

variable {S : Value → Prop}

/-- All values that a scope binds are in the set. -/
def Scope.Within (S : Value → Prop) (scope : Scope) : Prop :=
  ∀ entry ∈ scope, S entry.2

/-- All values that a context binds are in the set. -/
def Context.Within (S : Value → Prop) (c : Context) : Prop :=
  ∀ scope ∈ c.scopes, scope.Within S

theorem Context.get?_mem {c : Context} {name : String} {v : Value}
    (h : c.get? name = some v) : ∃ scope ∈ c.scopes, (name, v) ∈ scope := by
  obtain ⟨scope, hscope, hfind⟩ := List.exists_of_findSome?_eq_some h
  exact ⟨scope, hscope, mem_of_find? hfind⟩

/-- A path leads to a value in the set, or to the count of one. -/
theorem Expression.follow_cases (hS : Value.Closed S) :
    ∀ (segments : List String) {v w : Value}, S v →
      follow v segments = some w → S w ∨ ∃ u, S u ∧ u.count? = some w
  | [], v, w, hv, h => by
      simp only [follow, Option.some.injEq] at h
      exact .inl (h ▸ hv)
  | segment :: rest, v, w, hv, h => by
      simp only [follow] at h
      split at h
      · next u hu =>
          have hmem := Value.child?_mem_parts hu
          exact follow_cases hS rest (hS.parts hv hmem) h
      · split at h
        · exact .inr ⟨v, hv, h⟩
        · cases h

/-- An expression resolves to its literal, to a value in the set, or to the count
of one. -/
theorem Expression.resolve?_cases (hS : Value.Closed S) {c : Context}
    (hc : c.Within S) {e : Expression} {w : Value}
    (h : e.resolve? c = some w) :
    (∃ s, e.literal? = some s ∧ w = .string s) ∨ S w ∨
      ∃ u, S u ∧ u.count? = some w := by
  unfold resolve? at h
  split at h
  · next s hs => exact .inl ⟨s, hs, (Option.some.inj h).symm⟩
  · split at h
    · cases h
    · obtain ⟨v, hget, hfollow⟩ := Option.bind_eq_some_iff.1 h
      obtain ⟨scope, hscope, hmem⟩ := Context.get?_mem hget
      exact .inr (follow_cases hS _ (hc scope hscope _ hmem) hfollow)

theorem Value.count?_eq_ofNat {v w : Value} (h : v.count? = some w) :
    ∃ n, w = .ofNat n := by
  cases v with
  | array items => exact ⟨_, (Option.some.inj h).symm⟩
  | object fields => exact ⟨_, (Option.some.inj h).symm⟩
  | string s => exact ⟨_, (Option.some.inj h).symm⟩
  | null => simp [count?] at h
  | bool b => simp [count?] at h
  | number n => simp [count?] at h

theorem loopItems_cases (hS : Value.Closed S) {c : Context} (hc : c.Within S)
    (source : Expression) :
    loopItems source c = [] ∨ S (.array (loopItems source c)) := by
  unfold loopItems
  split
  · next items hitems =>
      rcases Expression.resolve?_cases hS hc hitems with
        ⟨s, -, hs⟩ | hmem | ⟨u, -, hu⟩
      · cases hs
      · exact .inr hmem
      · obtain ⟨n, hn⟩ := Value.count?_eq_ofNat hu
        cases hn
  · exact .inl rfl

/-- The scopes of the iterations bind values in the set. -/
theorem Node.loopFrames_within (hS : Value.Closed S) {items : List Value}
    (h : S (.array items)) (item : String) :
    ∀ scope ∈ Node.loopFrames item items, scope.Within S := by
  intro scope hscope
  obtain ⟨index, hindex, rfl⟩ := List.mem_mapIdx.1 hscope
  have hitem : S items[index] :=
    hS.parts h (Value.item_mem_parts (List.getElem_mem hindex))
  have hposition : S (Node.loopPosition index items.length) :=
    hS.position h hindex
  intro entry hentry
  rcases Keyed.mem_insert_cases hentry with rfl | hentry
  · exact hposition
  · obtain rfl := List.mem_singleton.1 hentry
    exact hitem

end Resolve

end Templating
