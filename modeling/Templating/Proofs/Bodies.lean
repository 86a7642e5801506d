import Mathlib
import Templating.Proofs.OnePass

/-!
# Templates as bodies

What a strict parse accepts can be put between the directives of a tag as it stands,
and is there parsed to the same nodes.

**Tags below.**  Inside open tags a pass goes as it would alone, with these tags below
its own (`Pass.inside`).  The difference is in what it waits for outside of its own
tags: alone nothing, inside a tag the divider and the closing directive of this tag.
But such a directive, met alone, is unknown, so that a strict pass would have failed
at it.

**Run.**  So a strict pass that comes to its end alone comes through the same tokens
inside any open tag, strict or not, and adds its nodes there (`Pass.through_inside`).

A lenient parse is not enough: an `else` that it drops divides a condition around it.

Main definitions: `Token.Says` and `Pass.inside`.  Main statements:
`Pass.through_inside` and `strict_templates_as_bodies`.
-/

namespace Templating

section Defs

/-- The token is a directive of these words. -/
def Token.Says (token : Token) (words : List String) : Prop :=
  token.kind = .block ∧ token.components = words

/-- The directive opens the tag, and its arguments are right. -/
def Paired.OpenedBy (t : Paired) (token : Token) : Prop :=
  ∃ name, token.tagName? = some name ∧
    Directive.builtin? name token = some (.ok (.opens t))

/-- A pass inside the tags that are open in another one, behind the nodes that have
been read there. -/
def Pass.inside (outer inner : Pass) : Pass :=
  let below := outer.add inner.bottom
  ⟨below.bottom, inner.tags ++ below.tags⟩

end Defs

section Directives

variable {token : Token} {name : String} {words : List String}

namespace Token

theorem Says.tagName?_eq (h : token.Says (name :: words)) :
    token.tagName? = some name := by
  simp [tagName?, h.1, h.2]

theorem Says.arguments_eq (h : token.Says (name :: words)) :
    token.arguments = words := by
  simp [arguments, h.2]

end Token

namespace Paired

theorem openedBy_loop {item source : String}
    (h : token.Says ["for", item, "in", source]) :
    (loop item (.ofSource source)).OpenedBy token := by
  refine ⟨"for", h.tagName?_eq, ?_⟩
  simp [Directive.builtin?, Directive.loop, Directive.arguments, h.arguments_eq]

theorem openedBy_if {condition : String} (h : token.Says ["if", condition]) :
    (branch false (.ofSource condition)).OpenedBy token := by
  refine ⟨"if", h.tagName?_eq, ?_⟩
  simp [Directive.builtin?, Directive.branch, Directive.arguments, h.arguments_eq,
    Except.map]

theorem openedBy_ifnot {condition : String} (h : token.Says ["ifnot", condition]) :
    (branch true (.ofSource condition)).OpenedBy token := by
  refine ⟨"ifnot", h.tagName?_eq, ?_⟩
  simp [Directive.builtin?, Directive.branch, Directive.arguments, h.arguments_eq,
    Except.map]

end Paired

/-- No part of a tag ends at a built-in tag. -/
theorem OpenTag.not_mem_stops_of_builtin? (f : OpenTag)
    {directive : Except ParseError Directive}
    (h : Directive.builtin? name token = some directive) : name ∉ f.stops := by
  have hnone : ∀ t : Paired, Directive.builtin? t.closing token = none ∧
      Directive.builtin? t.divider token = none := by
    intro t
    cases t with
    | loop item source => exact ⟨rfl, rfl⟩
    | branch negated condition => exact ⟨rfl, rfl⟩
  intro hstop
  rcases OpenTag.eq_of_mem_stops hstop with rfl | rfl
  · rw [(hnone f.paired).1] at h
    cases h
  · rw [(hnone f.paired).2] at h
    cases h

theorem Pass.not_mem_stops_of_builtin? (s : Pass)
    {directive : Except ParseError Directive}
    (h : Directive.builtin? name token = some directive) : name ∉ s.stops := by
  obtain ⟨bottom, tags⟩ := s
  cases tags with
  | nil => exact List.not_mem_nil
  | cons f outer => exact f.not_mem_stops_of_builtin? h

end Directives

section Inside

namespace Pass

variable {strict : Bool} {outer inner next : Pass} {token : Token} {name : String}

@[simp] theorem inside_start (outer : Pass) : outer.inside start = outer := by
  simp [inside, start]

theorem inside_of_tags_eq_nil (outer : Pass) (h : inner.tags = []) :
    outer.inside inner = outer.add inner.bottom := by
  simp [inside, h]

theorem inside_enter (outer inner : Pass) (f : OpenTag) :
    outer.inside (inner.enter f) = (outer.inside inner).enter f := rfl

theorem inside_add (outer inner : Pass) (nodes : List Node) :
    outer.inside (inner.add nodes) = (outer.inside inner).add nodes := by
  obtain ⟨bottom, tags⟩ := inner
  cases tags with
  | nil => exact (add_add outer bottom nodes).symm
  | cons f tags => rfl

/-- What ends a part of a tag ends it also with other tags below. -/
theorem inside_stop (outer : Pass) (hstop : name ∈ inner.stops) :
    name ∈ (outer.inside inner).stops ∧
      outer.inside (inner.stop name) = (outer.inside inner).stop name := by
  obtain ⟨bottom, tags⟩ := inner
  cases tags with
  | nil => exact absurd hstop List.not_mem_nil
  | cons f tags =>
      refine ⟨hstop, ?_⟩
      simp only [stop, inside, List.cons_append]
      split
      · exact inside_add outer ⟨bottom, tags⟩ [f.node]
      · rfl

theorem inside_follow (outer inner : Pass) (directive : Directive) :
    outer.inside (inner.follow directive) =
      (outer.inside inner).follow directive := by
  cases directive with
  | leaf node => exact inside_add outer inner [node]
  | opens tag => exact inside_enter outer inner (.opened tag)

/-- **A strict step is the same inside open tags**, where the pass need not be
strict. -/
theorem step_inside (outer : Pass) (h : inner.step true token = .ok next) :
    (outer.inside inner).step strict token = .ok (outer.inside next) := by
  rw [step_eq_ok_iff] at h ⊢
  cases h with
  | leaf hleaf =>
      rw [inside_add]
      exact .leaf hleaf
  | blank hleaf hname => exact .blank hleaf hname
  | stop hname hstop =>
      obtain ⟨hmem, heq⟩ := inside_stop outer hstop
      rw [heq]
      exact .stop hname hmem
  | follow hname _ htag =>
      rw [inside_follow]
      exact .follow hname (not_mem_stops_of_builtin? _ htag) htag
  | drop hstrict => cases hstrict

/-- **Tokens that a strict parse accepts** bring a pass inside open tags to where it
was, with their nodes added. -/
theorem through_inside (outer : Pass) {tokens : List Token} {nodes : List Node}
    (h : (inner.run true tokens).1 = .ok nodes) :
    (outer.inside inner).through strict tokens = .ok (outer.add nodes) := by
  induction tokens generalizing inner with
  | nil =>
      have htags : inner.tags = [] ∧ inner.bottom = nodes := by
        rw [run_nil, finish] at h
        split at h
        · next htags => exact ⟨htags, Except.ok.inj h⟩
        · cases h
      rw [through, inside_of_tags_eq_nil outer htags.1, htags.2]
  | cons token rest ih =>
      cases hstep : inner.step true token with
      | ok next =>
          rw [run_cons hstep] at h
          rw [through_cons (step_inside outer hstep)]
          exact ih h
      | error e =>
          rw [run_cons_error hstep] at h
          cases h

end Pass

end Inside

section Bodies

variable {strict : Bool} {t : Paired} {opening divider closing : Token}
  {first second : List Token} {nodes more : List Node}

namespace Pass

theorem through_body (s : Pass) (h : parseTokens true first = .ok nodes) :
    s.through strict first = .ok (s.add nodes) := by
  rw [parseTokens_eq_run] at h
  have hbody : (s.inside start).through strict first = .ok (s.add nodes) :=
    through_inside s h
  rwa [inside_start] at hbody

/-- Behind the first part the tag waits for its divider or its closing directive. -/
theorem through_first (s : Pass) (hopen : t.OpenedBy opening)
    (hfirst : parseTokens true first = .ok nodes) (rest : List Token) :
    s.through strict (opening :: first ++ rest) =
      (s.enter ⟨t, none, nodes⟩).through strict rest := by
  obtain ⟨name, hname, htag⟩ := hopen
  have hstep : s.step strict opening = .ok (s.enter (.opened t)) :=
    step_eq_ok_iff.2 (.follow hname (s.not_mem_stops_of_builtin? htag) htag)
  rw [List.cons_append, through_cons hstep,
    through_append_of_eq_ok (through_body _ hfirst)]
  rfl

theorem through_closing (s : Pass) {f : OpenTag}
    (hclose : closing.tagName? = some f.paired.closing) :
    (s.enter f).through strict [closing] = .ok (s.add [f.node]) := by
  have hstep := step_of_mem_stops strict (s := s.enter f) hclose f.closing_mem_stops
  rw [stop_enter, if_pos rfl] at hstep
  rw [through_cons hstep, through]

theorem through_divider (s : Pass) (hdivide : divider.tagName? = some t.divider)
    (rest : List Token) :
    (s.enter ⟨t, none, nodes⟩).through strict (divider :: rest) =
      (s.enter ⟨t, some nodes, []⟩).through strict rest := by
  have hstop : t.divider ∈ (s.enter ⟨t, none, nodes⟩).stops :=
    (t.mem_stops_iff _).2 (.inr rfl)
  have hstep := step_of_mem_stops strict hdivide hstop
  rw [stop_enter, if_neg t.divider_ne_closing] at hstep
  exact through_cons hstep rest

end Pass

theorem parseTokens_of_through {tokens : List Token}
    (h : Pass.start.through strict tokens = .ok (Pass.start.add nodes)) :
    parseTokens strict tokens = .ok nodes := by
  have hrun := Pass.run_append h []
  rw [List.append_nil] at hrun
  rw [parseTokens_eq_run, hrun, Pass.run_nil, Pass.finish_start_add]

namespace Paired

/-- A tag around one body is parsed to its node without a second part. -/
theorem parseTokens_undivided (hopen : t.OpenedBy opening)
    (hclose : closing.tagName? = some t.closing)
    (hfirst : parseTokens true first = .ok nodes) :
    parseTokens strict (opening :: first ++ [closing]) = .ok [t.node nodes []] := by
  refine parseTokens_of_through ?_
  rw [Pass.through_first _ hopen hfirst]
  exact Pass.through_closing _ (f := ⟨t, none, nodes⟩) hclose

/-- A tag around two bodies is parsed to its node with both. -/
theorem parseTokens_divided (hopen : t.OpenedBy opening)
    (hdivide : divider.tagName? = some t.divider)
    (hclose : closing.tagName? = some t.closing)
    (hfirst : parseTokens true first = .ok nodes)
    (hsecond : parseTokens true second = .ok more) :
    parseTokens strict (opening :: first ++ divider :: second ++ [closing]) =
      .ok [t.node nodes more] := by
  refine parseTokens_of_through ?_
  rw [List.append_assoc, Pass.through_first _ hopen hfirst, List.cons_append,
    Pass.through_divider _ hdivide,
    Pass.through_append_of_eq_ok (Pass.through_body _ hsecond)]
  exact Pass.through_closing .start (f := ⟨t, some nodes, more⟩) hclose

end Paired

/-- **What a strict parse accepts is a body as it stands**, of a loop, of a condition
and of a negated condition, which is the condition with its bodies exchanged. -/
theorem strict_templates_as_bodies (strict : Bool)
    {first second : List Token} {nodes more : List Node}
    (hfirst : parseTokens true first = .ok nodes)
    (hsecond : parseTokens true second = .ok more) :
    (∀ opening divider closing item source,
      opening.Says ["for", item, "in", source] →
      divider.tagName? = some "empty" → closing.tagName? = some "endfor" →
        parseTokens strict (opening :: first ++ divider :: second ++ [closing]) =
            .ok [.loop item (.ofSource source) nodes more] ∧
          parseTokens strict (opening :: first ++ [closing]) =
            .ok [.loop item (.ofSource source) nodes []]) ∧
    (∀ opening divider closing condition,
      opening.Says ["if", condition] →
      divider.tagName? = some "else" → closing.tagName? = some "endif" →
        parseTokens strict (opening :: first ++ divider :: second ++ [closing]) =
            .ok [.branch (.ofSource condition) nodes more] ∧
          parseTokens strict (opening :: first ++ [closing]) =
            .ok [.branch (.ofSource condition) nodes []]) ∧
    (∀ opening negated divider closing condition,
      opening.Says ["if", condition] → negated.Says ["ifnot", condition] →
      divider.tagName? = some "else" → closing.tagName? = some "endif" →
        parseTokens strict (negated :: first ++ divider :: second ++ [closing]) =
            .ok [.branch (.ofSource condition) more nodes] ∧
          parseTokens strict (negated :: first ++ divider :: second ++ [closing]) =
            parseTokens strict (opening :: second ++ divider :: first ++ [closing]) ∧
          parseTokens strict (negated :: first ++ [closing]) =
            .ok [.branch (.ofSource condition) [] nodes]) := by
  refine ⟨?_, ?_, ?_⟩
  · intro opening divider closing item source hsays hdivide hclose
    have hopen := Paired.openedBy_loop hsays
    exact ⟨Paired.parseTokens_divided hopen hdivide hclose hfirst hsecond,
      Paired.parseTokens_undivided hopen hclose hfirst⟩
  · intro opening divider closing condition hsays hdivide hclose
    have hopen := Paired.openedBy_if hsays
    exact ⟨Paired.parseTokens_divided hopen hdivide hclose hfirst hsecond,
      Paired.parseTokens_undivided hopen hclose hfirst⟩
  · intro opening negated divider closing condition hif hifnot hdivide hclose
    have hopen := Paired.openedBy_if hif
    have hnegated := Paired.openedBy_ifnot hifnot
    have hnode : parseTokens strict
        (negated :: first ++ divider :: second ++ [closing]) =
          .ok [.branch (.ofSource condition) more nodes] :=
      Paired.parseTokens_divided hnegated hdivide hclose hfirst hsecond
    have hexchanged : parseTokens strict
        (opening :: second ++ divider :: first ++ [closing]) =
          .ok [.branch (.ofSource condition) more nodes] :=
      Paired.parseTokens_divided hopen hdivide hclose hsecond hfirst
    exact ⟨hnode, hnode.trans hexchanged.symm,
      Paired.parseTokens_undivided hnegated hclose hfirst⟩

/-- A condition with a divider and a closing directive of its own. -/
def innerCondition : List Token :=
  [⟨.text, "a"⟩, ⟨.block, "if y"⟩, ⟨.text, "b"⟩, ⟨.block, "else"⟩, ⟨.block, "endif"⟩]

/-- A loop with a divider and a closing directive of its own. -/
def innerLoop : List Token :=
  [⟨.block, "for z in zs"⟩, ⟨.placeholder, "z"⟩, ⟨.block, "empty"⟩,
    ⟨.block, "endfor"⟩]

/-- The directives of the inner tags do not end the bodies. -/
theorem strict_templates_as_bodies_nested :
    parseTokens true innerCondition = .ok [.text "a", .branch ⟨"y"⟩ [.text "b"] []] ∧
      parseTokens true innerLoop =
        .ok [.loop "z" ⟨"zs"⟩ [.placeholder ⟨"z"⟩] []] ∧
      parseTokens false (⟨.block, "for x in xs"⟩ :: innerCondition ++
          ⟨.block, "empty"⟩ :: innerLoop ++ [⟨.block, "endfor"⟩]) =
        .ok [.loop "x" ⟨"xs"⟩ [.text "a", .branch ⟨"y"⟩ [.text "b"] []]
          [.loop "z" ⟨"zs"⟩ [.placeholder ⟨"z"⟩] []]] ∧
      parseTokens false (⟨.block, "if x"⟩ :: innerCondition ++ [⟨.block, "endif"⟩]) =
        .ok [.branch ⟨"x"⟩ [.text "a", .branch ⟨"y"⟩ [.text "b"] []] []] ∧
      parseTokens false (⟨.block, "ifnot x"⟩ :: innerCondition ++
          ⟨.block, "else"⟩ :: innerLoop ++ [⟨.block, "endif"⟩]) =
        parseTokens false (⟨.block, "if x"⟩ :: innerLoop ++
          ⟨.block, "else"⟩ :: innerCondition ++ [⟨.block, "endif"⟩]) := by
  have hfirst : parseTokens true innerCondition =
      .ok [.text "a", .branch ⟨"y"⟩ [.text "b"] []] := by cbv
  have hsecond : parseTokens true innerLoop =
      .ok [.loop "z" ⟨"zs"⟩ [.placeholder ⟨"z"⟩] []] := by cbv
  have hfor : Token.Says ⟨.block, "for x in xs"⟩ ["for", "x", "in", "xs"] :=
    ⟨rfl, by cbv⟩
  have hif : Token.Says ⟨.block, "if x"⟩ ["if", "x"] := ⟨rfl, by cbv⟩
  have hifnot : Token.Says ⟨.block, "ifnot x"⟩ ["ifnot", "x"] := ⟨rfl, by cbv⟩
  have hempty : Token.tagName? ⟨.block, "empty"⟩ = some "empty" := by cbv
  have helse : Token.tagName? ⟨.block, "else"⟩ = some "else" := by cbv
  have hendfor : Token.tagName? ⟨.block, "endfor"⟩ = some "endfor" := by cbv
  have hendif : Token.tagName? ⟨.block, "endif"⟩ = some "endif" := by cbv
  obtain ⟨hloop, hcondition, hnegated⟩ :=
    strict_templates_as_bodies false hfirst hsecond
  exact ⟨hfirst, hsecond, (hloop _ _ _ _ _ hfor hempty hendfor).1,
    (hcondition _ _ _ _ hif helse hendif).2,
    (hnegated _ _ _ _ _ hif hifnot helse hendif).2.1⟩

/-- It is not enough that a lenient parse accepts the body: an `else` that it drops
divides a condition around it. -/
example :
    parseTokens false [⟨.text, "a"⟩, ⟨.block, "else"⟩, ⟨.text, "b"⟩] =
        .ok [.text "a", .text "b"] ∧
      parseTokens false [⟨.block, "if x"⟩, ⟨.text, "a"⟩, ⟨.block, "else"⟩,
          ⟨.text, "b"⟩, ⟨.block, "endif"⟩] =
        .ok [.branch ⟨"x"⟩ [.text "a"] [.text "b"]] := by
  constructor <;> cbv

end Bodies

end Templating
