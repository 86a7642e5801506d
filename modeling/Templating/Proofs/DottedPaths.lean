import Templating.Expression

/-!
# Dotted paths, step by step

The segments of a path are followed one after another, and `count` is looked at
specially where it is the last one.  The same values come from a single step that is
taken for every segment alike: the field or the item of that name, and otherwise, for
`count`, the number of items, fields or characters.

**Why the last segment is not special.**  A count is a number.  A number has no fields,
no items and no count of its own, so that a path that goes on behind a count is without
a value either way (`Value.step?_of_count?`).

Main definitions: `Value.step?`, `Value.steps?` and `Expression.field`.  Main statement:
`Expression.resolve?_step_by_step`.
-/

namespace Templating

open Text

section Steps

namespace Value

/-- One step of a path: the field or the item of that name; the count, if there is
neither and the step is called so. -/
def step? (segment : String) (v : Value) : Option Value :=
  (v.child? segment).or (if segment = "count" then v.count? else none)

/-- One step for each segment, in order. -/
def steps? (segments : List String) (v : Value) : Option Value :=
  segments.foldlM (fun v segment => v.step? segment) v

@[simp] theorem steps?_nil (v : Value) : v.steps? [] = some v := rfl

@[simp] theorem steps?_cons (segment : String) (rest : List String) (v : Value) :
    v.steps? (segment :: rest) = (v.step? segment).bind (steps? rest) := rfl

theorem steps?_singleton (segment : String) (v : Value) :
    v.steps? [segment] = v.step? segment := by
  simp [steps?]

theorem steps?_concat (segments : List String) (segment : String) (v : Value) :
    v.steps? (segments ++ [segment]) = (v.steps? segments).bind (step? segment) := by
  simp [steps?, List.foldlM_append]

/-- A field or an item is taken whatever its name is. -/
theorem step?_of_child? {v w : Value} {segment : String}
    (h : v.child? segment = some w) : v.step? segment = some w := by
  rw [step?, h, Option.some_or]

/-- **A count leads nowhere.** -/
theorem step?_of_count? {v w : Value} (h : v.count? = some w) (segment : String) :
    w.step? segment = none := by
  have hnumber (n : Nat) : (ofNat n).step? segment = none := by
    simp [step?, ofNat, child?, count?]
  cases v with
  | array items => cases h; exact hnumber _
  | object fields => cases h; exact hnumber _
  | string s => cases h; exact hnumber _
  | null => cases h
  | bool b => cases h
  | number n => cases h

end Value

/-- **The segments of a path are followed by steps of one kind.** -/
theorem Expression.follow_eq_steps? (segments : List String) (v : Value) :
    follow v segments = v.steps? segments := by
  induction segments generalizing v with
  | nil => rfl
  | cons segment rest ih =>
      rw [follow, Value.steps?_cons, Value.step?]
      cases hchild : v.child? segment with
      | some w => exact ih w
      | none =>
          rw [Option.none_or]
          by_cases hcount : segment = "count"
          · cases rest with
            | nil =>
                cases hv : v.count? <;> simp [hcount]
            | cons next rest =>
                cases hv : v.count? with
                | none => simp [hcount]
                | some w => simp [hcount, Value.step?_of_count? hv]
          · simp [hcount]

end Steps

section Resolve

namespace Expression

/-- The expression with one more segment, as it is written in a template. -/
def field (e : Expression) (segment : String) : Expression :=
  .ofSource (e.text ++ "." ++ segment)

/-- A segment that every expression can be followed by as it stands: without dots, and
with neither a blank nor a quote at its end. -/
structure PlainSegment (segment : String) : Prop where
  noDot : '.' ∉ segment.toList
  noBlank : ∀ c ∈ segment.toList.getLast?, isBlank c = false
  noQuote : ∀ c ∈ segment.toList.getLast?, c ≠ '"' ∧ c ≠ '\''

variable {e : Expression} {segment : String}

/-- Without quotes around it, an expression is looked up by its first segment. -/
theorem resolve?_of_segments {first : String} {rest : List String}
    (hliteral : e.literal? = none) (hsegments : e.segments = first :: rest)
    (c : Context) :
    e.resolve? c = (c.get? first).bind (Value.steps? rest) := by
  simp only [resolve?, hliteral, hsegments, follow_eq_steps?]

/-- A name without dots and quotes means the variable of this name. -/
theorem resolve?_ofSource {name : String} (htrim : trim name = name)
    (hdot : '.' ∉ name.toList) (hquoted : quoted? name.toList = none) (c : Context) :
    (ofSource name).resolve? c = c.get? name := by
  have hliteral : (ofSource name).literal? = none := by
    rw [ofSource, htrim, literal?, hquoted, Option.map_none]
  have hsegments : (ofSource name).segments = [name] := by
    rw [ofSource, htrim, segments, splitString, splitAt_of_not_mem hdot,
      List.map_singleton, String.ofList_toList]
  rw [resolve?_of_segments hliteral hsegments]
  cases c.get? name <;> rfl

theorem exists_segments (e : Expression) :
    ∃ first rest, e.segments = first :: rest := by
  refine List.exists_cons_of_ne_nil fun h => ?_
  exact splitAt_ne_nil '.' _ (List.map_eq_nil_iff.1 h)

theorem segments_append (e : Expression) (hdot : '.' ∉ segment.toList) :
    segments ⟨e.text ++ "." ++ segment⟩ = e.segments ++ [segment] := by
  simp [segments, splitString, splitAt_append_sep, splitAt_of_not_mem hdot]

/-- What a path ends with: the last character of its last segment, or the dot in front of
an empty one. -/
theorem last_cases {front : String} {c : Char}
    (h : c ∈ (front ++ "." ++ segment).toList.getLast?) :
    c ∈ segment.toList.getLast? ∨ c = '.' := by
  rw [String.toList_append, List.getLast?_append] at h
  cases hlast : segment.toList.getLast? with
  | none =>
      rw [hlast, Option.none_or, String.toList_append, List.getLast?_append] at h
      cases h
      exact .inr rfl
  | some d =>
      rw [hlast] at h
      exact .inl h

/-- An expression that is written in a template is without blanks at its ends. -/
theorem trim_ofSource (source : String) :
    trim (ofSource source).text = (ofSource source).text := by
  simp [ofSource, trim]

/-- A segment without blanks at its end is put behind a trimmed expression as it is. -/
theorem field_eq (htrim : trim e.text = e.text)
    (hblank : ∀ c ∈ segment.toList.getLast?, isBlank c = false) :
    e.field segment = ⟨e.text ++ "." ++ segment⟩ := by
  refine congrArg Expression.mk (trim_eq_self ?_ ?_)
  · -- the first character is that of the expression, or the dot
    intro c hc
    rw [String.toList_append, String.toList_append, List.append_assoc,
      List.head?_append] at hc
    cases hhead : e.text.toList.head? with
    | none =>
        rw [hhead] at hc
        cases hc
        rfl
    | some d =>
        rw [hhead] at hc
        cases hc
        rw [← htrim, trim, String.toList_ofList] at hhead
        exact isBlank_head_trimBlank _ c hhead
  · intro c hc
    rcases last_cases hc with hsegment | rfl
    · exact hblank c hsegment
    · rfl

/-- What does not end with a quote is not quoted. -/
theorem quoted?_eq_none {cs : List Char}
    (h : ∀ c ∈ cs.getLast?, c ≠ '"' ∧ c ≠ '\'') : quoted? cs = none := by
  cases cs with
  | nil => rfl
  | cons q rest =>
      refine if_neg ?_
      rintro ⟨hquote, hrest⟩
      have hlast : (q :: rest).getLast? = some q := by
        rw [List.getLast?_cons, hrest]
        rfl
      obtain ⟨hdouble, hsingle⟩ := h q hlast
      exact hquote.elim hdouble hsingle

theorem PlainSegment.literal?_field (h : PlainSegment segment)
    (htrim : trim e.text = e.text) : (e.field segment).literal? = none := by
  rw [field_eq htrim h.noBlank, literal?, quoted?_eq_none, Option.map_none]
  intro c hc
  rcases last_cases hc with hsegment | rfl
  · exact h.noQuote c hsegment
  · decide

/-- **One more segment is one more step.** -/
theorem resolve?_field (htrim : trim e.text = e.text) (hliteral : e.literal? = none)
    (hdot : '.' ∉ segment.toList)
    (hblank : ∀ c ∈ segment.toList.getLast?, isBlank c = false)
    (hfield : (e.field segment).literal? = none) (c : Context) :
    (e.field segment).resolve? c = (e.resolve? c).bind (Value.step? segment) := by
  obtain ⟨first, rest, hsegments⟩ := e.exists_segments
  have hlonger : (e.field segment).segments = first :: (rest ++ [segment]) := by
    rw [field_eq htrim hblank, segments_append _ hdot, hsegments, List.cons_append]
  rw [resolve?_of_segments hfield hlonger, resolve?_of_segments hliteral hsegments,
    Option.bind_assoc]
  exact congrArg _ (funext fun v => Value.steps?_concat rest segment v)

theorem PlainSegment.resolve?_field (h : PlainSegment segment)
    (htrim : trim e.text = e.text) (hliteral : e.literal? = none) (c : Context) :
    (e.field segment).resolve? c = (e.resolve? c).bind (Value.step? segment) :=
  Expression.resolve?_field htrim hliteral h.noDot h.noBlank (h.literal?_field htrim) c

/-- The names that mean something in a path even where no field is called so. -/
def pseudoKeys : List String := ["count", "first", "last"]

theorem plainSegment_of_mem_pseudoKeys {name : String} (h : name ∈ pseudoKeys) :
    PlainSegment name := by
  simp only [pseudoKeys, List.mem_cons, List.not_mem_nil, or_false] at h
  rcases h with rfl | rfl | rfl
  · exact ⟨by simp, by simp [isBlank], by simp⟩
  · exact ⟨by simp, by simp [isBlank], by simp⟩
  · exact ⟨by simp, by simp [isBlank], by simp⟩

/-- **Paths are resolved step by step.** An expression without quotes around it is the
variable of its first segment, and then one step for each further segment, the last one
like all others.  So one more segment is one more step; and a field is taken before the
count, the first item or the last one, if it is called like them. -/
theorem resolve?_step_by_step (htrim : trim e.text = e.text)
    (hliteral : e.literal? = none) :
    (∃ first rest, e.segments = first :: rest ∧
      ∀ c, e.resolve? c = (c.get? first).bind (Value.steps? rest)) ∧
    (∀ segment : String, '.' ∉ segment.toList →
      (∀ c ∈ segment.toList.getLast?, isBlank c = false) →
      (e.field segment).literal? = none →
      ∀ c, (e.field segment).resolve? c =
        (e.resolve? c).bind (Value.step? segment)) ∧
    ∀ name ∈ pseudoKeys, ∀ c fields v,
      e.resolve? c = some (.object fields) → Keyed.find? name fields = some v →
      (e.field name).resolve? c = some v := by
  refine ⟨?_, fun segment => resolve?_field htrim hliteral, ?_⟩
  · obtain ⟨first, rest, hsegments⟩ := e.exists_segments
    exact ⟨first, rest, hsegments, resolve?_of_segments hliteral hsegments⟩
  · intro name hname c fields v hobject hfind
    have hplain := plainSegment_of_mem_pseudoKeys hname
    rw [hplain.resolve?_field htrim hliteral, hobject, Option.bind_some]
    exact Value.step?_of_child? hfind

/-- A user with two roles and a field that is called as a count is. -/
def userContext : Context :=
  .ofScope [("user", .object
    [("count", .string "many"), ("roles", .array [.string "admin", .string "dev"])])]

/-- The field is taken before the count; a list has a count, and a count has none. -/
theorem resolve?_userContext :
    (ofSource " user ").literal? = none ∧
      ((ofSource " user ").field "count").resolve? userContext = some (.string "many") ∧
      ((ofSource "user.roles").field "count").resolve? userContext = some (.ofNat 2) ∧
      ((ofSource "user.roles.count").field "count").resolve? userContext = none := by
  have huser : (ofSource " user ").literal? = none := by decide
  have hroles : (ofSource "user.roles").literal? = none := by decide
  have hcount : (ofSource "user.roles.count").literal? = none := by decide
  have hplain : PlainSegment "count" := plainSegment_of_mem_pseudoKeys List.mem_cons_self
  refine ⟨huser, ?_, ?_, ?_⟩
  · exact (resolve?_step_by_step (trim_ofSource _) huser).2.2 "count" List.mem_cons_self
      userContext _ _ rfl rfl
  · rw [(resolve?_step_by_step (trim_ofSource _) hroles).2.1 "count" hplain.noDot
      hplain.noBlank (hplain.literal?_field (trim_ofSource _))]
    rfl
  · rw [(resolve?_step_by_step (trim_ofSource _) hcount).2.1 "count" hplain.noDot
      hplain.noBlank (hplain.literal?_field (trim_ofSource _))]
    rfl

end Expression

end Resolve

end Templating
