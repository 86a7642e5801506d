import Mathlib
import Templating.Proofs.OnePass

/-!
# The leaves of a template

Parsing takes the directives out of the tokens and arranges what is left as a tree.
The texts and placeholders stay: read in the order of the tree, its leaves are those
of the tokens, each once and in their order.

**Order.**  A loop is read before its other branch.  Of the branches of a condition
either may be the one to read first, since the node does not say which of them was
written first: with `ifnot` it is the one for when the condition does not hold.  So a
template has several readings (`readingsOf`), one for each choice at each condition.

**Pass.**  One reading of all that a pass has come by, from the nodes outside all tags
to the innermost part, has the leaves of the tokens behind it.  A step adds the leaf
of its token, if it is one, at the end (`Pass.readings_of_step`).

Main definitions: `Node.readings` and `readingsOf`.  Main statement:
`leaves_mem_readingsOf`.
-/

namespace Templating

section Defs

/-- Each of the first readings with each of the second ones behind it. -/
def inTurn (first second : List (List Leaf)) : List (List Leaf) :=
  first.flatMap fun leaves => second.map (leaves ++ ·)

mutual

/-- The leaves of a node, for each choice of the branches to read first. -/
def Node.readings : Node → List (List Leaf)
  | .text content => [[.text content]]
  | .placeholder expression => [[.placeholder expression]]
  | .loop _ _ body otherwise => inTurn (readingsOf body) (readingsOf otherwise)
  | .branch _ whenTrue whenFalse =>
      inTurn (readingsOf whenTrue) (readingsOf whenFalse) ++
        inTurn (readingsOf whenFalse) (readingsOf whenTrue)
  | .inclusion _ => [[]]
  | .now _ => [[]]
  | .simple _ => [[]]
  | .enclosed _ body => readingsOf body

/-- The leaves of nodes, for each choice of the branches to read first. -/
def readingsOf : List Node → List (List Leaf)
  | [] => [[]]
  | node :: rest => inTurn node.readings (readingsOf rest)

end

/-- The leaves of both parts of an open tag, as far as they have been read. -/
def OpenTag.readings (f : OpenTag) : List (List Leaf) :=
  match f.first with
  | none => readingsOf f.nodes
  | some first => inTurn (readingsOf first) (readingsOf f.nodes)

/-- The leaves of a pass, those of the innermost tag at the end. -/
def Pass.readings (s : Pass) : List (List Leaf) :=
  s.tags.foldr (fun f below => inTurn below f.readings) (readingsOf s.bottom)

end Defs

section Nodes

variable {leaves more : List Leaf} {first second : List (List Leaf)}

theorem mem_inTurn_iff :
    leaves ∈ inTurn first second ↔
      ∃ a ∈ first, ∃ b ∈ second, leaves = a ++ b := by
  simp only [inTurn, List.mem_flatMap, List.mem_map, eq_comm]

theorem append_mem_inTurn (h : leaves ∈ first) (hmore : more ∈ second) :
    leaves ++ more ∈ inTurn first second :=
  mem_inTurn_iff.2 ⟨leaves, h, more, hmore, rfl⟩

theorem inTurn_nil (first : List (List Leaf)) : inTurn first [[]] = first := by
  simp [inTurn]

theorem readingsOf_singleton (node : Node) : readingsOf [node] = node.readings :=
  inTurn_nil node.readings

theorem Leaf.readings_node (leaf : Leaf) : leaf.node.readings = [[leaf]] := by
  cases leaf <;> simp [node, Node.readings]

theorem append_mem_readingsOf {nodes behind : List Node}
    (h : leaves ∈ readingsOf nodes) (hmore : more ∈ readingsOf behind) :
    leaves ++ more ∈ readingsOf (nodes ++ behind) := by
  induction nodes generalizing leaves with
  | nil =>
      obtain rfl : leaves = [] := by simpa [readingsOf] using h
      exact hmore
  | cons node nodes ih =>
      simp only [List.cons_append, readingsOf] at h ⊢
      obtain ⟨a, ha, b, hb, rfl⟩ := mem_inTurn_iff.1 h
      rw [List.append_assoc]
      exact append_mem_inTurn ha (ih hb)

/-- The first part of a tag can be read first, also where it is the one for when the
condition does not hold. -/
theorem Paired.readings_node (t : Paired) {first second : List Node}
    (h : leaves ∈ inTurn (readingsOf first) (readingsOf second)) :
    leaves ∈ (t.node first second).readings := by
  cases t with
  | loop item source => simpa only [node, Node.readings] using h
  | branch negated condition =>
      cases negated with
      | false => exact List.mem_append_left _ h
      | true => exact List.mem_append_right _ h

theorem Directive.readings_leaf {name : String} {token : Token} {node : Node}
    (h : builtin? name token = some (.ok (.leaf node))) : node.readings = [[]] := by
  rcases leaf_cases h with ⟨e, rfl⟩ | ⟨e, rfl⟩
  · simp only [Node.readings]
  · simp only [Node.readings]

end Nodes

section Tags

variable {leaves more : List Leaf} {f : OpenTag}

namespace OpenTag

theorem append_mem_readings (h : leaves ∈ f.readings) {nodes : List Node}
    (hmore : more ∈ readingsOf nodes) :
    leaves ++ more ∈ OpenTag.readings { f with nodes := f.nodes ++ nodes } := by
  unfold OpenTag.readings at h ⊢
  cases hfirst : f.first with
  | none =>
      simp only [hfirst] at h ⊢
      exact append_mem_readingsOf h hmore
  | some first =>
      simp only [hfirst] at h ⊢
      obtain ⟨a, ha, b, hb, rfl⟩ := mem_inTurn_iff.1 h
      rw [List.append_assoc]
      exact append_mem_inTurn ha (append_mem_readingsOf hb hmore)

theorem mem_readings_node (h : leaves ∈ f.readings) : leaves ∈ f.node.readings := by
  unfold OpenTag.readings at h
  unfold OpenTag.node
  cases hfirst : f.first with
  | none =>
      simp only [hfirst] at h ⊢
      refine f.paired.readings_node ?_
      rwa [readingsOf, inTurn_nil]
  | some first =>
      simp only [hfirst] at h ⊢
      exact f.paired.readings_node h

theorem mem_readings_divide (hfirst : f.first = none) (h : leaves ∈ f.readings) :
    leaves ∈ f.divide.readings := by
  simp only [OpenTag.readings, hfirst] at h
  simpa only [OpenTag.readings, divide, readingsOf, inTurn_nil] using h

end OpenTag

end Tags

section Pass

variable {leaves more : List Leaf}

namespace Pass

theorem append_mem_readings {s : Pass} (h : leaves ∈ s.readings) {nodes : List Node}
    (hmore : more ∈ readingsOf nodes) : leaves ++ more ∈ (s.add nodes).readings := by
  obtain ⟨bottom, tags⟩ := s
  cases tags with
  | nil => exact append_mem_readingsOf h hmore
  | cons f outer =>
      obtain ⟨a, ha, b, hb, rfl⟩ := mem_inTurn_iff.1 h
      rw [List.append_assoc]
      exact append_mem_inTurn ha (OpenTag.append_mem_readings hb hmore)

/-- A directive that closes or divides a tag puts no leaf in another place. -/
theorem mem_readings_stop {s : Pass} {name : String} (hstop : name ∈ s.stops)
    (h : leaves ∈ s.readings) : leaves ∈ (s.stop name).readings := by
  obtain ⟨bottom, tags⟩ := s
  cases tags with
  | nil => simp [stops] at hstop
  | cons f outer =>
      obtain ⟨a, ha, b, hb, rfl⟩ := mem_inTurn_iff.1 h
      simp only [stop]
      split_ifs with hclose
      · refine append_mem_readings ha ?_
        rw [readingsOf_singleton]
        exact OpenTag.mem_readings_node hb
      · -- only in front of the divider does a tag wait for another directive
        have hfirst : f.first = none := by
          cases hfirst : f.first with
          | none => rfl
          | some first =>
              simp only [stops, OpenTag.stops, hfirst, List.mem_singleton] at hstop
              exact absurd hstop hclose
        exact append_mem_inTurn ha (OpenTag.mem_readings_divide hfirst hb)

/-- **A step adds the leaf of its token** at the end, and keeps all others. -/
theorem readings_of_step {strict : Bool} {s t : Pass} {token : Token}
    (hstep : s.step strict token = .ok t) (h : leaves ∈ s.readings) :
    leaves ++ token.leaf?.toList ∈ t.readings := by
  have hsame (hleaf : token.leaf? = none) :
      leaves ++ token.leaf?.toList = leaves := by simp [hleaf]
  cases step_eq_ok_iff.1 hstep with
  | @leaf leaf hleaf =>
      rw [hleaf]
      refine append_mem_readings h ?_
      simp [readingsOf_singleton, leaf.readings_node]
  | blank hleaf =>
      rwa [hsame hleaf]
  | stop hname hstop =>
      rw [hsame (Token.leaf?_of_tagName? hname)]
      exact mem_readings_stop hstop h
  | @follow _ directive hname _ htag =>
      have hnone : token.leaf?.toList = [] := by
        rw [Token.leaf?_of_tagName? hname]
        rfl
      rw [hnone]
      cases directive with
      | leaf node =>
          refine append_mem_readings h ?_
          simp [readingsOf_singleton, Directive.readings_leaf htag]
      | opens tag => exact append_mem_inTurn h (List.mem_singleton_self [])
  | drop _ hname =>
      rwa [hsame (Token.leaf?_of_tagName? hname)]

theorem readings_of_run {strict : Bool} {nodes : List Node} {tokens : List Token}
    {s : Pass} (hrun : (s.run strict tokens).1 = .ok nodes)
    (h : leaves ∈ s.readings) :
    leaves ++ tokens.filterMap Token.leaf? ∈ readingsOf nodes := by
  induction tokens generalizing s leaves with
  | nil =>
      obtain ⟨bottom, tags⟩ := s
      cases tags with
      | nil =>
          cases hrun
          rwa [List.filterMap_nil, List.append_nil]
      | cons f outer => cases hrun
  | cons token rest ih =>
      cases hstep : s.step strict token with
      | ok t =>
          rw [run_cons hstep] at hrun
          have hrest := ih hrun (readings_of_step hstep h)
          rw [List.append_assoc] at hrest
          cases hleaf : token.leaf? with
          | none => simpa [hleaf] using hrest
          | some leaf => simpa [hleaf] using hrest
      | error e =>
          rw [run_cons_error hstep] at hrun
          cases hrun

end Pass

/-- **Parsing keeps every text and placeholder**, each once and in its place: with the
right choice of the branches to read first, the leaves of the nodes are those of the
tokens. -/
theorem leaves_mem_readingsOf {strict : Bool} {tokens : List Token}
    {nodes : List Node} (h : parseTokens strict tokens = .ok nodes) :
    tokens.filterMap Token.leaf? ∈ readingsOf nodes := by
  rw [parseTokens_eq_run] at h
  have hstart : [] ∈ Pass.start.readings := List.mem_singleton_self []
  exact Pass.readings_of_run h hstart

/-- A negated condition in a loop, with a directive that is dropped. -/
def unlessInLoop : List Token :=
  [⟨.text, "a"⟩, ⟨.block, "for x in xs"⟩, ⟨.block, "ifnot x"⟩, ⟨.text, "b"⟩,
    ⟨.block, "endfor"⟩, ⟨.block, "else"⟩, ⟨.placeholder, " x "⟩, ⟨.block, "endif"⟩,
    ⟨.block, "empty"⟩, ⟨.text, ""⟩, ⟨.block, "endfor"⟩]

/-- The second branch of the condition is read first. -/
theorem leaves_unlessInLoop :
    parseTokens false unlessInLoop =
        .ok [.text "a",
          .loop "x" ⟨"xs"⟩ [.branch ⟨"x"⟩ [.placeholder ⟨"x"⟩] [.text "b"]]
            [.text ""]] ∧
      [.text "a", .text "b", .placeholder ⟨"x"⟩, .text ""] ∈
        readingsOf [.text "a",
          .loop "x" ⟨"xs"⟩ [.branch ⟨"x"⟩ [.placeholder ⟨"x"⟩] [.text "b"]]
            [.text ""]] := by
  have hparse : parseTokens false unlessInLoop =
      .ok [.text "a",
        .loop "x" ⟨"xs"⟩ [.branch ⟨"x"⟩ [.placeholder ⟨"x"⟩] [.text "b"]]
          [.text ""]] := by cbv
  exact ⟨hparse, leaves_mem_readingsOf hparse⟩

end Pass

end Templating
