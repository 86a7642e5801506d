import Templating.Proofs.BuiltinNodes
import Templating.Proofs.LoadedFiles
import Templating.Proofs.ReachableValues

/-!
# The names that an inclusion can resolve to

A name is quoted in the template or in a file, or is the text of a value.  The
quoted names of the files are those of the texts of the tree; values lie in the
set of values that can be reached.

Main definition: `Spelled`.  Main statements: `Expression.outputText_mem`, where a
name comes from, and `spelled_includableNames`.
-/

namespace Templating

section Names

mutual

/-- Nodes that built-in tags make bind nothing around their bodies. -/
theorem Node.bindings_eq_nil : ∀ {node : Node}, node.IsBuiltin →
    node.bindings = []
  | .text _, _ => rfl
  | .placeholder _, _ => rfl
  | .loop _ _ body otherwise, h => by
      rw [Node.bindings, bindingsOf_eq_nil h.1, bindingsOf_eq_nil h.2]
      rfl
  | .branch _ whenTrue whenFalse, h => by
      rw [Node.bindings, bindingsOf_eq_nil h.1, bindingsOf_eq_nil h.2]
      rfl
  | .inclusion _, _ => rfl
  | .now _, _ => rfl

theorem bindingsOf_eq_nil : ∀ {nodes : List Node}, AllBuiltin nodes →
    bindingsOf nodes = []
  | [], _ => rfl
  | node :: rest, h => by
      rw [bindingsOf, Node.bindings_eq_nil h.1, bindingsOf_eq_nil h.2]
      rfl

end

/-- The quoted names of a template that has been loaded are among those of the
files. -/
theorem literalsOf_subset_of_load {loader : Loader} {files : FileTree}
    {name : String} {template : Template}
    (h : loader.load files name = .ok template) :
    literalsOf template.nodes ⊆ fileLiterals files loader.strict := by
  obtain ⟨path, source, -, hread, hparse⟩ := Loader.load_eq_ok h
  intro literal hliteral
  refine List.mem_flatMap.2 ⟨source, FileTree.mem_texts_of_read hread, ?_⟩
  simpa only [Template.parse, hparse, Except.map] using hliteral

/-- A set of values and a list of names such that every expression over the values
whose literal is in the list resolves to a name in the list. -/
structure Spelled (S : Value → Prop) (names : List String) : Prop where
  closed : Value.Closed S
  empty : "" ∈ names
  spellings : ∀ v, S v → v.spellings ⊆ names

/-- The name of an inclusion is empty, quoted, or the text of a value or of the
count of one. -/
theorem Expression.outputText_mem {S : Value → Prop} {names : List String}
    (h : Spelled S names) {c : Context} (hc : c.Within S) {e : Expression}
    (hliteral : ∀ s, e.literal? = some s → s ∈ names) :
    e.outputText c ∈ names := by
  unfold outputText
  cases hresolve : e.resolve? c with
  | none => exact h.empty
  | some w =>
      rcases resolve?_cases h.closed hc hresolve with
        ⟨s, hs, rfl⟩ | hmem | ⟨u, hu, hcount⟩
      · exact hliteral s hs
      · exact h.spellings w hmem List.mem_cons_self
      · refine h.spellings u hu (List.mem_cons_of_mem _ ?_)
        rw [hcount]
        exact List.mem_singleton.2 rfl

/-- The values that can be reached from nodes and a context. -/
def reachableValues (nodes : List Node) (c : Context) : List Value :=
  ((c.scopes ++ bindingsOf nodes).flatMap (List.map Prod.snd)).flatMap
    Value.reachable

theorem spelled_includableNames (files : FileTree) (nodes : List Node)
    (c : Context) :
    Spelled (· ∈ reachableValues nodes c) (includableNames files nodes c) where
  closed := Value.reachable_closed _
  empty := List.mem_append_left _ List.mem_cons_self
  spellings := fun v hv _ hs =>
    List.mem_append_right _ (List.mem_flatMap.2 ⟨v, hv, hs⟩)

theorem mem_reachableValues {nodes : List Node} {c : Context} {scope : Scope}
    (h : scope ∈ c.scopes ++ bindingsOf nodes) :
    scope.Within (· ∈ reachableValues nodes c) := by
  intro entry hentry
  exact Value.mem_reachable_of_mem
    (List.mem_flatMap.2 ⟨scope, h, List.mem_map_of_mem hentry⟩)

end Names

end Templating
