import Templating.Context

/-!
# Operations on scopes

Scopes are pushed and popped and variables are set, in any order and any number of times.  A
variable is set in the scope that is innermost at that moment, and the bottom scope is not popped,
so that what an operation does depends on the depth.  `setsAt` collects the bindings that are set
while the context has a given depth.

**Balanced operations.**  Every pop is matched by an earlier push, and every push by a later
pop: no front of the operations pops more than it pushes, and no back pushes more than it pops.
The test `closes` counts the scopes that are open along the operations.  As long as it succeeds,
the scope below the open ones is changed by the sets at its own depth only, and what is below
that scope is not changed at all.

**Any operations.**  The bottom scope is changed by the sets at depth one only.

Main statement: `Context.scope_discipline`.
-/

namespace Templating

section Operations

/-- An operation on the scopes of a context. -/
inductive ScopeOp where
  | push (scope : Scope)
  | set (name : String) (value : Value)
  | pop

/-- The context after an operation. -/
def ScopeOp.perform : ScopeOp → Context → Context
  | .push scope, c => c.push scope
  | .set name value, c => c.set name value
  | .pop, c => c.pop.2

namespace Context

/-- The context after operations, one after another. -/
def performAll (c : Context) (ops : List ScopeOp) : Context :=
  ops.foldl (fun c op => op.perform c) c

/-- The bindings that are set while the context has a given depth, in order. -/
def setsAt (depth : Nat) : Context → List ScopeOp → List (String × Value)
  | _, [] => []
  | c, .push scope :: ops => setsAt depth (c.push scope) ops
  | c, .set name value :: ops =>
      if c.depth = depth then
        (name, value) :: setsAt depth (c.set name value) ops
      else
        setsAt depth (c.set name value) ops
  | c, .pop :: ops => setsAt depth c.pop.2 ops

theorem performAll_cons (c : Context) (op : ScopeOp) (ops : List ScopeOp) :
    c.performAll (op :: ops) = (op.perform c).performAll ops := rfl

end Context

/-- A scope with further bindings, one after another. -/
def Scope.updated (scope : Scope) (bindings : List (String × Value)) : Scope :=
  bindings.foldl (fun scope b => Keyed.insert b.1 b.2 scope) scope

end Operations

section Balance

namespace ScopeOp

/-- By how much an operation changes the number of scopes, unless it is a pop of the bottom
scope. -/
def rise : ScopeOp → Int
  | .push _ => 1
  | .set _ _ => 0
  | .pop => -1

/-- By how much operations change the number of scopes. -/
def height : List ScopeOp → Int
  | [] => 0
  | op :: ops => op.rise + height ops

/-- Every pop is matched by an earlier push, and every push by a later pop. -/
structure Balanced (ops : List ScopeOp) : Prop where
  pops_matched : ∀ front, front <+: ops → 0 ≤ height front
  pushes_matched : ∀ back, back <:+ ops → height back ≤ 0

/-- Whether operations pop the given number of open scopes and all scopes that they push, and
never any other scope. -/
def closes : Nat → List ScopeOp → Bool
  | n, [] => n == 0
  | n, .push _ :: ops => closes (n + 1) ops
  | n, .set _ _ :: ops => closes n ops
  | 0, .pop :: _ => false
  | n + 1, .pop :: ops => closes n ops

theorem height_append (front back : List ScopeOp) :
    height (front ++ back) = height front + height back := by
  induction front with
  | nil => simp [height]
  | cons op front ih => simp [height, ih, Int.add_assoc]

theorem forall_prefix_cons_iff {α : Type} {a : α} {l : List α} {p : List α → Prop} :
    (∀ front, front <+: a :: l → p front) ↔ p [] ∧ ∀ front, front <+: l → p (a :: front) := by
  constructor
  · intro h
    exact ⟨h [] List.nil_prefix, fun front hle => h _ (List.cons_prefix_cons.2 ⟨rfl, hle⟩)⟩
  · rintro ⟨hnil, hcons⟩ front hle
    rcases List.prefix_cons_iff.1 hle with rfl | ⟨rest, rfl, hrest⟩
    · exact hnil
    · exact hcons rest hrest

/-- The test follows the number of open scopes along the fronts of the operations. -/
theorem closes_iff {n : Nat} {ops : List ScopeOp} :
    closes n ops = true ↔
      (∀ front, front <+: ops → 0 ≤ n + height front) ∧ n + height ops = 0 := by
  induction ops generalizing n with
  | nil => simp [closes, height]
  | cons op ops ih =>
      have hnil : 0 ≤ (n : Int) + height [] := Int.natCast_nonneg n
      rw [forall_prefix_cons_iff, and_iff_right hnil]
      cases op with
      | push scope =>
          have hopen (k : Int) : (n : Int) + (1 + k) = (n + 1 : Nat) + k := by omega
          simp only [closes, ih, height, rise, hopen]
      | set name value =>
          simp only [closes, ih, height, rise, Int.zero_add]
      | pop =>
          cases n with
          | zero =>
              refine iff_of_false Bool.false_ne_true fun h => ?_
              have hpop : 0 ≤ ((0 : Nat) : Int) + height [.pop] := h.1 [] List.nil_prefix
              exact absurd hpop (by decide)
          | succ n =>
              have hopen (k : Int) : (n + 1 : Nat) + (-1 + k) = (n : Int) + k := by omega
              simp only [closes, ih, height, rise, hopen]

theorem balanced_iff {ops : List ScopeOp} : Balanced ops ↔ closes 0 ops = true := by
  rw [closes_iff]
  simp only [Int.natCast_zero, Int.zero_add]
  constructor
  · intro h
    have hpops := h.pops_matched ops List.prefix_rfl
    have hpushes := h.pushes_matched ops List.suffix_rfl
    exact ⟨h.pops_matched, by omega⟩
  · rintro ⟨hfronts, hall⟩
    refine ⟨hfronts, ?_⟩
    rintro back ⟨front, rfl⟩
    have hfront := hfronts front (List.prefix_append front back)
    rw [height_append] at hall
    omega

instance (ops : List ScopeOp) : Decidable (Balanced ops) :=
  decidable_of_iff _ balanced_iff.symm

end ScopeOp

end Balance

section Runs

namespace Context

open ScopeOp

/-- The context with a scope on top of its own, and open scopes above that one. -/
def opened (c : Context) (scope : Scope) (upper : List Scope) : Context :=
  { c with inner := upper ++ scope :: c.inner }

/-- **What balanced operations leave.**  When all open scopes have been popped, the scope below
them has the bindings that were set at its own depth. -/
theorem performAll_opened {c : Context} {scope : Scope} {upper : List Scope}
    {ops : List ScopeOp} (h : closes upper.length ops = true) :
    (c.opened scope upper).performAll ops =
      c.push (Scope.updated scope (setsAt (c.depth + 1) (c.opened scope upper) ops)) := by
  -- The open scopes come and go with the operations; the test keeps a pop away from `scope`.
  induction ops generalizing scope upper with
  | nil =>
      obtain rfl := List.eq_nil_of_length_eq_zero (beq_iff_eq.1 h)
      rfl
  | cons op ops ih =>
      cases op with
      | push top => exact @ih scope (top :: upper) h
      | set name value =>
          cases upper with
          | nil =>
              have hdepth : (c.opened scope []).depth = c.depth + 1 := rfl
              rw [setsAt, if_pos hdepth]
              exact @ih (Keyed.insert name value scope) [] h
          | cons top upper =>
              have hdepth : (c.opened scope (top :: upper)).depth ≠ c.depth + 1 := by
                simp [depth, opened]
                omega
              rw [setsAt, if_neg hdepth]
              exact @ih scope (Keyed.insert name value top :: upper) h
      | pop =>
          cases upper with
          | nil => exact absurd h Bool.false_ne_true
          | cons top upper => exact @ih scope upper h

/-- **What any operations leave at the bottom.**  The bottom scope has the bindings that were
set when there was no other scope. -/
theorem bottom_performAll (c : Context) (ops : List ScopeOp) :
    (c.performAll ops).bottom = Scope.updated c.bottom (setsAt 1 c ops) := by
  induction ops generalizing c with
  | nil => rfl
  | cons op ops ih =>
      rw [performAll_cons, ih]
      cases op with
      | push scope => rfl
      | set name value =>
          cases hinner : c.inner with
          | nil =>
              have hdepth : c.depth = 1 := by simp [depth, hinner]
              have hset : (c.set name value).bottom = Keyed.insert name value c.bottom := by
                simp [set, hinner]
              rw [setsAt, if_pos hdepth, perform, hset]
              rfl
          | cons top rest =>
              have hdepth : c.depth ≠ 1 := by simp [depth, hinner]
              have hset : (c.set name value).bottom = c.bottom := by
                simp [set, hinner]
              rw [setsAt, if_neg hdepth, perform, hset]
      | pop => rw [setsAt, perform, pop_bottom]

theorem pop_of_depth_eq_one {c : Context} (h : c.depth = 1) : c.pop = (none, c) := by
  have hinner : c.inner = [] := List.eq_nil_of_length_eq_zero (Nat.succ.inj h)
  rw [pop, hinner]

/-- **The discipline of scopes.**  A scope that is pushed comes back from the pop behind any
balanced operations, with the bindings that they have set at its depth, and the context is the
one from before the push.  Whatever the operations are, there is always a scope left, which is
not popped when it is the only one, and the bottom scope is the one from the beginning with the
bindings that were set at depth one. -/
theorem scope_discipline (c : Context) :
    (∀ scope ops, Balanced ops →
      ((c.push scope).performAll ops).pop =
        (some (Scope.updated scope (setsAt (c.depth + 1) (c.push scope) ops)), c)) ∧
    ∀ ops,
      1 ≤ (c.performAll ops).depth ∧
      ((c.performAll ops).depth = 1 →
        (c.performAll ops).pop = (none, c.performAll ops)) ∧
      (c.performAll ops).bottom = Scope.updated c.bottom (setsAt 1 c ops) := by
  refine ⟨fun scope ops h => ?_, fun ops => ⟨?_, ?_, ?_⟩⟩
  · have hrun : (c.push scope).performAll ops =
        c.push (Scope.updated scope (setsAt (c.depth + 1) (c.push scope) ops)) :=
      @performAll_opened c scope [] ops (balanced_iff.1 h)
    rw [hrun, pop_push]
  · exact Nat.le_add_left 1 _
  · exact pop_of_depth_eq_one
  · exact bottom_performAll c ops

/-- A context with one variable. -/
def outermost : Context :=
  ofScope [("x", .string "outer")]

/-- Balanced operations that set the same variable at two depths. -/
def nestedSets : List ScopeOp :=
  [.set "a" (.string "2"), .push [("b", .null)], .set "a" (.string "3"), .push [], .pop, .pop,
    .set "b" (.string "4")]

/-- Operations with pops that find the bottom scope only. -/
def surplusPops : List ScopeOp :=
  [.pop, .set "x" (.string "1"), .push [], .set "x" (.string "2"), .pop, .pop,
    .set "y" (.string "3")]

theorem scope_discipline_outermost :
    Balanced nestedSets ∧
    ((outermost.push [("a", .string "1")]).performAll nestedSets).pop =
      (some [("a", .string "2"), ("b", .string "4")], outermost) ∧
    (outermost.performAll surplusPops).depth = 1 ∧
    (outermost.performAll surplusPops).pop = (none, outermost.performAll surplusPops) ∧
    (outermost.performAll surplusPops).bottom = [("x", .string "1"), ("y", .string "3")] := by
  obtain ⟨hnested, hany⟩ := scope_discipline outermost
  obtain ⟨-, hpop, hbottom⟩ := hany surplusPops
  have hbalanced : Balanced nestedSets := by decide
  have hdepth : (outermost.performAll surplusPops).depth = 1 := rfl
  exact ⟨hbalanced, hnested [("a", .string "1")] nestedSets hbalanced, hdepth, hpop hdepth,
    hbottom⟩

end Context

end Runs

end Templating
