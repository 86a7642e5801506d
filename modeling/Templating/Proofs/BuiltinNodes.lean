import Templating.Proofs.OnePass

/-!
# What the built-in tags make

A parse with the built-in tags gives texts, placeholders, loops, conditions,
inclusions and dates; what only registered tags put into a template does not
occur, at any depth.  The pass keeps this as an invariant of the nodes outside all
tags and of the parts of each open tag.

Main definitions: `Node.IsBuiltin` and `AllBuiltin`.  Main statement:
`parseTokens_builtin`.
-/

namespace Templating

section Defs

mutual

/-- A node that a built-in tag can make. -/
def Node.IsBuiltin : Node → Prop
  | .text _ => True
  | .placeholder _ => True
  | .loop _ _ body otherwise => AllBuiltin body ∧ AllBuiltin otherwise
  | .branch _ whenTrue whenFalse => AllBuiltin whenTrue ∧ AllBuiltin whenFalse
  | .inclusion _ => True
  | .now _ => True
  | .simple _ => False
  | .enclosed _ _ => False

/-- Nodes that built-in tags can make. -/
def AllBuiltin : List Node → Prop
  | [] => True
  | node :: rest => node.IsBuiltin ∧ AllBuiltin rest

end

/-- The nodes of both parts of an open tag can be made by built-in tags. -/
structure OpenTag.IsBuiltin (f : OpenTag) : Prop where
  first : ∀ nodes, f.first = some nodes → AllBuiltin nodes
  nodes : AllBuiltin f.nodes

/-- All nodes of a pass can be made by built-in tags. -/
structure Pass.IsBuiltin (s : Pass) : Prop where
  bottom : AllBuiltin s.bottom
  tags : ∀ f ∈ s.tags, f.IsBuiltin

end Defs

section Invariant

theorem AllBuiltin.append {nodes more : List Node}
    (h : AllBuiltin nodes) (hmore : AllBuiltin more) :
    AllBuiltin (nodes ++ more) := by
  induction nodes with
  | nil => exact hmore
  | cons node rest ih => exact ⟨h.1, ih h.2⟩

theorem Leaf.node_isBuiltin (leaf : Leaf) : leaf.node.IsBuiltin := by
  cases leaf <;> trivial

theorem Paired.node_isBuiltin (t : Paired) {first second : List Node}
    (hfirst : AllBuiltin first) (hsecond : AllBuiltin second) :
    (t.node first second).IsBuiltin := by
  cases t with
  | loop item source => exact ⟨hfirst, hsecond⟩
  | branch negated condition =>
      cases negated with
      | false => exact ⟨hfirst, hsecond⟩
      | true => exact ⟨hsecond, hfirst⟩

theorem OpenTag.IsBuiltin.node {f : OpenTag} (h : f.IsBuiltin) :
    f.node.IsBuiltin := by
  unfold OpenTag.node
  cases hfirst : f.first with
  | none => exact f.paired.node_isBuiltin h.nodes trivial
  | some first => exact f.paired.node_isBuiltin (h.first first hfirst) h.nodes

theorem Directive.builtin?_isBuiltin {name : String} {token : Token}
    {node : Node} (h : builtin? name token = some (.ok (.leaf node))) :
    node.IsBuiltin := by
  rcases leaf_cases h with ⟨e, rfl⟩ | ⟨e, rfl⟩
  · trivial
  · trivial

namespace Pass

theorem IsBuiltin.add {s : Pass} (h : s.IsBuiltin) {nodes : List Node}
    (hnodes : AllBuiltin nodes) : (s.add nodes).IsBuiltin := by
  obtain ⟨bottom, tags⟩ := s
  cases tags with
  | nil => exact ⟨h.bottom.append hnodes, h.tags⟩
  | cons f outer =>
      have hf := h.tags f List.mem_cons_self
      refine ⟨h.bottom, ?_⟩
      rintro g (_ | ⟨_, hg⟩)
      · exact ⟨hf.first, hf.nodes.append hnodes⟩
      · exact h.tags g (List.mem_cons_of_mem _ hg)

theorem IsBuiltin.enter {s : Pass} (h : s.IsBuiltin) {f : OpenTag}
    (hf : f.IsBuiltin) : (s.enter f).IsBuiltin := by
  refine ⟨h.bottom, ?_⟩
  rintro g (_ | ⟨_, hg⟩)
  · exact hf
  · exact h.tags g hg

theorem IsBuiltin.stop {s : Pass} (h : s.IsBuiltin) (name : String) :
    (s.stop name).IsBuiltin := by
  obtain ⟨bottom, tags⟩ := s
  cases tags with
  | nil => exact h
  | cons f outer =>
      have hf := h.tags f List.mem_cons_self
      have hbelow : (⟨bottom, outer⟩ : Pass).IsBuiltin :=
        ⟨h.bottom, fun g hg => h.tags g (List.mem_cons_of_mem _ hg)⟩
      have hdivide : f.divide.IsBuiltin := by
        refine ⟨?_, trivial⟩
        rintro nodes ⟨⟩
        exact hf.nodes
      simp only [Pass.stop]
      split
      · exact hbelow.add ⟨hf.node, trivial⟩
      · exact hbelow.enter hdivide

theorem isBuiltin_step {strict : Bool} {s t : Pass} {token : Token}
    (h : s.IsBuiltin) (hstep : s.step strict token = .ok t) :
    t.IsBuiltin := by
  cases step_eq_ok_iff.1 hstep with
  | @leaf leaf _ => exact h.add ⟨leaf.node_isBuiltin, trivial⟩
  | blank => exact h
  | stop => exact h.stop _
  | @follow _ directive _ _ htag =>
      cases directive with
      | leaf node => exact h.add ⟨Directive.builtin?_isBuiltin htag, trivial⟩
      | opens tag =>
          refine h.enter ⟨?_, trivial⟩
          rintro nodes ⟨⟩
  | drop => exact h

theorem isBuiltin_run {strict : Bool} {nodes : List Node} :
    ∀ (tokens : List Token) (s : Pass), s.IsBuiltin →
      (s.run strict tokens).1 = .ok nodes → AllBuiltin nodes
  | [], s, h, hrun => by
      simp only [run_nil, finish] at hrun
      split at hrun
      · cases hrun
        exact h.bottom
      · cases hrun
  | token :: rest, s, h, hrun => by
      cases hstep : s.step strict token with
      | ok t =>
          rw [run_cons hstep] at hrun
          exact isBuiltin_run rest t (isBuiltin_step h hstep) hrun
      | error e =>
          rw [run_cons_error hstep] at hrun
          cases hrun

end Pass

/-- **The nodes of a template** that is parsed with the built-in tags are made by
built-in tags. -/
theorem parseTokens_builtin {strict : Bool} {tokens : List Token}
    {nodes : List Node} (h : parseTokens strict tokens = .ok nodes) :
    AllBuiltin nodes := by
  rw [parseTokens_eq_run] at h
  refine Pass.isBuiltin_run tokens .start ⟨trivial, ?_⟩ h
  rintro f ⟨⟩

end Invariant

end Templating
