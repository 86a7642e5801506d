import Templating.Proofs.SourceCuts

/-!
# Tokens written back

A token is written with one space inside each mark, whatever blanks the source had
there. So the source changes at every tag, and what was text could become a tag, or
a tag could end elsewhere.

**Invariant.**  Behind any text, a closing mark in the source that is written back
comes from one of its kind behind the same text in the source as it was
(`Cut.closing_infix_of_spaced`). So an opening mark that was text finds no closing
mark now either, and the cut stays valid.

Main statement: `tokenize_displayAll_tokenize`.
-/

namespace Templating

open Text Token

section Pairs

theorem pair_infix_cons_iff {x y c : Char} {cs : List Char} :
    [x, y] <:+: c :: cs ↔ (x = c ∧ cs.head? = some y) ∨ [x, y] <:+: cs := by
  rw [List.infix_cons_iff, List.cons_prefix_cons]
  cases cs with
  | nil => simp
  | cons d cs => simp [eq_comm]

/-- Two characters in a row stand in one of two lists or across their seam. -/
theorem pair_infix_append_iff {x y : Char} {xs ys : List Char} :
    [x, y] <:+: xs ++ ys ↔
      [x, y] <:+: xs ∨ [x, y] <:+: ys ∨
        (xs.getLast? = some x ∧ ys.head? = some y) := by
  induction xs with
  | nil => simp
  | cons c xs ih =>
      rw [List.cons_append, pair_infix_cons_iff, ih, pair_infix_cons_iff]
      cases xs with
      | nil => simp [or_comm, eq_comm (a := c)]
      | cons d xs =>
          simp only [List.cons_append, List.head?_cons, List.getLast?_cons_cons]
          exact or_assoc.symm

end Pairs

section Spaced

/-- The tag with one space inside each mark. -/
def RawTag.spaced (tag : RawTag) : RawTag :=
  { tag with content := ' ' :: trimBlank tag.content ++ [' '] }

/-- The cut with all tags spaced alike. -/
def Cut.spaced : Cut → Cut
  | .last text => .last text
  | .cons text tag rest => .cons text tag.spaced rest.spaced

theorem Kind.closingMark_ne (kind : Kind) :
    kind.closingMark ≠ ' ' ∧ kind.closingMark ≠ '{' := by
  cases kind <;> decide

namespace RawTag

@[simp] theorem token_spaced (tag : RawTag) : tag.spaced.token = tag.token := by
  have htrim : trimBlank (' ' :: trimBlank tag.content ++ [' ']) =
      trimBlank tag.content := by
    rw [trimBlank_concat rfl, trimBlank_cons rfl, trimBlank_trimBlank]
  simp only [token, spaced, htrim]

/-- The token of a tag is written as the spaced tag. -/
theorem displayChars_token (tag : RawTag) :
    tag.token.displayChars = tag.spaced.source := by
  simp [displayChars, token, spaced, source, Kind.marks_eq tag.kind_ne_text]

theorem spaced_source_eq {tag : RawTag} {mark : Char}
    (hmark : tag.kind.opening = ['{', mark]) :
    tag.spaced.source =
      '{' :: mark :: ' ' ::
        (trimBlank tag.content ++ [' ', tag.kind.closingMark, '}']) := by
  have hspaced : tag.spaced.kind.opening = ['{', mark] := hmark
  rw [source_eq hspaced]
  simp [spaced]

@[simp] theorem head?_source (tag : RawTag) :
    tag.source.head? = some '{' := by
  obtain ⟨mark, -, hmark⟩ := tag.exists_mark
  rw [source_eq hmark]
  rfl

theorem getLast?_source (tag : RawTag) : tag.source.getLast? = some '}' := by
  rw [source, Kind.closing_eq tag.kind_ne_text]
  simp

theorem content_infix_source (tag : RawTag) : tag.content <:+: tag.source :=
  ⟨tag.kind.opening, tag.kind.closing, rfl⟩

/-- With spaces inside the marks, a tag closes first just when no closing mark is
in what stands between them. -/
theorem closesFirst_spaced_iff {tag : RawTag} {rest : List Char} :
    tag.spaced.ClosesFirst rest ↔
      ¬ tag.kind.closing <:+: trimBlank tag.content := by
  have hclosing := Kind.closing_eq tag.kind_ne_text
  obtain ⟨hspace, -⟩ := tag.kind.closingMark_ne
  have hcontent : tag.spaced.content ++ [tag.kind.closingMark] =
      ' ' :: (trimBlank tag.content ++ [' ', tag.kind.closingMark]) := by
    simp [RawTag.spaced]
  rw [closesFirst_iff, show tag.spaced.kind = tag.kind from rfl, hclosing, hcontent,
    pair_infix_cons_iff, pair_infix_append_iff]
  refine not_congr ⟨?_, fun hwithin => .inr (.inl hwithin)⟩
  rintro (⟨hmark, -⟩ | hwithin | hend | ⟨-, hhead⟩)
  · exact absurd hmark hspace
  · exact hwithin
  · rw [pair_infix_cons_iff] at hend
    rcases hend with ⟨hmark, -⟩ | hend
    · exact absurd hmark hspace
    · have hlength := hend.length_le
      simp at hlength
  · simp at hhead

/-- With spaces inside the marks, a tag still closes first. -/
theorem ClosesFirst.spaced {tag : RawTag} {rest : List Char}
    (h : tag.ClosesFirst rest) (rest' : List Char) :
    tag.spaced.ClosesFirst rest' := by
  refine closesFirst_spaced_iff.2 fun hwithin => closesFirst_iff.1 h ?_
  have hcontent : trimBlank tag.content <:+: tag.content := trimBlank_isInfix _
  exact hwithin.trans (hcontent.trans (List.prefix_append _ _).isInfix)

end RawTag

namespace Cut

@[simp] theorem tokens_spaced (cut : Cut) : cut.spaced.tokens = cut.tokens := by
  induction cut with
  | last text => rfl
  | cons text tag rest ih => simp only [spaced, tokens, RawTag.token_spaced, ih]

theorem textRun_displayChars (text : List Char) :
    (textRun text).flatMap displayChars = text := by
  cases text with
  | nil => rfl
  | cons c text => simp [textRun, Token.text, displayChars, Kind.marks]

/-- The tokens of a cut are written as the spaced cut. -/
theorem flatMap_displayChars (cut : Cut) :
    cut.tokens.flatMap displayChars = cut.spaced.source := by
  induction cut with
  | last text => exact textRun_displayChars text
  | cons text tag rest ih =>
      rw [tokens, List.flatMap_append, List.flatMap_cons, textRun_displayChars,
        RawTag.displayChars_token, ih]
      rfl

theorem head?_spaced (cut : Cut) :
    cut.spaced.source.head? = cut.source.head? := by
  cases cut with
  | last text => rfl
  | cons text tag rest => simp [spaced, source, List.head?_append]

/-- A closing mark behind the spaced tag has one behind the tag as it was. -/
theorem closing_infix_of_spaced_append {kind : Kind} {tag : RawTag} {rest : Cut}
    (hrest : [kind.closingMark, '}'] <:+: rest.spaced.source →
      [kind.closingMark, '}'] <:+: rest.source)
    (h : [kind.closingMark, '}'] <:+: tag.spaced.source ++ rest.spaced.source) :
    [kind.closingMark, '}'] <:+: tag.source ++ rest.source := by
  obtain ⟨mark, -, hmark⟩ := tag.exists_mark
  obtain ⟨hspace, hbrace⟩ := kind.closingMark_ne
  have hsource : tag.spaced.source ++ rest.spaced.source =
      '{' :: mark :: ' ' :: (trimBlank tag.content ++
        ' ' :: tag.kind.closingMark :: '}' :: rest.spaced.source) := by
    simp [RawTag.spaced_source_eq hmark]
  simp only [hsource, pair_infix_cons_iff, pair_infix_append_iff] at h
  rw [pair_infix_append_iff]
  rcases h with ⟨hopen, -⟩ | ⟨-, hmark⟩ | ⟨hblank, -⟩ | hcontent |
    (⟨hblank, -⟩ | ⟨hsame, -⟩ | ⟨hlast, hnext⟩ | hbehind) | ⟨-, hblank⟩
  · exact absurd hopen hbrace
  · simp at hmark
  · exact absurd hblank hspace
  · -- the content holds the mark
    have htrim := hcontent.trans (trimBlank_isInfix tag.content)
    exact .inl (htrim.trans tag.content_infix_source)
  · exact absurd hblank hspace
  · -- the mark that ends the tag
    refine .inl ?_
    rw [hsame, ← Kind.closing_eq tag.kind_ne_text]
    exact (List.suffix_append _ _).isInfix
  · -- a brace behind the one that ends the tag
    rw [head?_spaced] at hnext
    exact .inr (.inr ⟨hlast ▸ tag.getLast?_source, hnext⟩)
  · exact .inr (.inl (hrest hbehind))
  · simp at hblank

/-- **No closing mark is new**: one in the spaced source has one of its kind in the
source. -/
theorem closing_infix_of_spaced (kind : Kind) (cut : Cut)
    (h : [kind.closingMark, '}'] <:+: cut.spaced.source) :
    [kind.closingMark, '}'] <:+: cut.source := by
  induction cut with
  | last text => exact h
  | cons text tag rest ih =>
      simp only [spaced, source] at h ⊢
      rw [pair_infix_append_iff] at h ⊢
      rcases h with htext | hrest | ⟨-, hhead⟩
      · exact .inl htext
      · exact .inr (.inl (closing_infix_of_spaced_append ih hrest))
      · simp [List.head?_append] at hhead

/-- A tag that could be read in the spaced source behind a text could be read in
the source. -/
theorem startsTag_of_spaced {c : Char} {text : List Char} {tag : RawTag}
    {rest : Cut} (h : StartsTag (cons (c :: text) tag rest).spaced.source) :
    StartsTag (cons (c :: text) tag rest).source := by
  simp only [spaced, source, List.cons_append] at h ⊢
  cases text with
  | nil =>
      -- the second character of the opening mark is the first one of the tag
      obtain ⟨tail', htail'⟩ : ∃ tail',
          tag.spaced.source ++ rest.spaced.source = '{' :: tail' :=
        List.head?_eq_some_iff.1 (by simp [List.head?_append])
      obtain ⟨tail, htail⟩ : ∃ tail, tag.source ++ rest.source = '{' :: tail :=
        List.head?_eq_some_iff.1 (by simp [List.head?_append])
      rw [List.nil_append, htail', startsTag_cons_iff] at h
      rw [List.nil_append, htail, startsTag_cons_iff]
      obtain ⟨rfl, kind, hkind, hclosing⟩ := h
      refine ⟨rfl, kind, hkind, ?_⟩
      have hold : [kind.closingMark, '}'] <:+: '{' :: tail := by
        rw [← htail]
        refine closing_infix_of_spaced kind (cons [] tag rest) ?_
        simp only [spaced, source, List.nil_append, htail']
        exact List.infix_cons hclosing
      rcases pair_infix_cons_iff.1 hold with ⟨hbrace, -⟩ | hold
      · exact absurd hbrace kind.closingMark_ne.2
      · exact hold
  | cons d text =>
      simp only [List.cons_append] at h ⊢
      rw [startsTag_cons_iff] at h ⊢
      obtain ⟨rfl, kind, hkind, hclosing⟩ := h
      exact ⟨rfl, kind, hkind,
        closing_infix_of_spaced kind (cons text tag rest) hclosing⟩

theorem Valid.spaced {cut : Cut} (h : cut.Valid) : cut.spaced.Valid := by
  induction cut with
  | last text => exact h
  | cons text tag rest ih =>
      refine ⟨?_, h.2.1.spaced _, ih h.2.2⟩
      intro before after happend hafter hstarts
      cases after with
      | nil => exact hafter rfl
      | cons c after =>
          have hstarts' : StartsTag (cons (c :: after) tag rest).source :=
            startsTag_of_spaced hstarts
          exact h.1 before (c :: after) happend hafter hstarts'

end Cut

/-- **Tokens that are written back and read again are the same tokens.** -/
theorem tokenize_displayAll_tokenize (source : String) :
    tokenize (displayAll (tokenize source)) = tokenize source := by
  obtain ⟨cut, hsource, hvalid⟩ := Cut.exists_valid source.toList
  have htokens : tokenize source = cut.tokens :=
    Cut.tokenize_of_source_eq hsource hvalid
  have hdisplay : cut.spaced.source = (displayAll cut.tokens).toList := by
    rw [displayAll, Cut.flatMap_displayChars, String.toList_ofList]
  rw [htokens, Cut.tokenize_of_source_eq hdisplay hvalid.spaced,
    Cut.tokens_spaced]

end Spaced

end Templating
