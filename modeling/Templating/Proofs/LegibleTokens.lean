import Mathlib.Data.List.Chain
import Templating.Proofs.Concatenation
import Templating.Proofs.Respacing

/-!
# Tokens that are read back

Any tokens can be written one behind the other, but not all of them are found again in
what has been written: a tag may end too early, two texts become one, and a text may
begin a tag with what follows it.

**Legible tokens.**  None of this happens if the tags are trimmed and without their
closing marks, the texts are not empty and never in a row, and no text begins a tag
where it stands (`Legible`).  The last is a condition on all that follows: a brace, or
an opening mark, can stand in a text as long as no closing mark of its kind comes behind
it.

**Cuts.**  Legible tokens are those of a valid cut of what they are written as
(`Legible.exists_cut`), and the tokens of any valid cut are legible
(`Cut.Valid.legible`).  As the scanner gives the tokens of the valid cut, the legible
tokens are just those that it can give.

Main definition: `Legible`.  Main statements: `tokenize_displayAll_eq_iff` and
`exists_tokenize_eq_iff`.
-/

namespace Templating

open Text Token

section Defs

/-- Tokens in which a scanner finds every one of them again. -/
structure Legible (tokens : List Token) : Prop where
  /-- A tag has no blanks at its ends, and its closing mark does not occur in it. -/
  tags : ∀ token ∈ tokens, token.kind ≠ .text →
    trim token.payload = token.payload ∧
      ¬ token.kind.closing <:+: token.payload.toList
  texts : ∀ token ∈ tokens, token.kind = .text → token.payload ≠ ""
  /-- No two texts are next to each other. -/
  apart : tokens.IsChain fun token next => token.kind = .text → next.kind ≠ .text
  /-- At no place in a text does a tag begin, given what is written behind the text. -/
  quiet : ∀ token rest, token :: rest <:+ tokens → token.kind = .text →
    NoTagWithin token.payload.toList (rest.flatMap displayChars)

end Defs

section Lists

variable {token : Token} {rest : List Token}

theorem legible_nil : Legible [] where
  tags := by simp
  texts := by simp
  apart := .nil
  quiet := by simp

theorem Legible.tail (h : Legible (token :: rest)) : Legible rest where
  tags next hnext := h.tags next (List.mem_cons_of_mem _ hnext)
  texts next hnext := h.texts next (List.mem_cons_of_mem _ hnext)
  apart := (List.isChain_cons.1 h.apart).2
  quiet next more hmore := h.quiet next more (hmore.trans (List.suffix_cons _ _))

/-- A tag in front is looked at by itself. -/
theorem legible_tag_cons_iff (hkind : token.kind ≠ .text) :
    Legible (token :: rest) ↔
      (trim token.payload = token.payload ∧
        ¬ token.kind.closing <:+: token.payload.toList) ∧ Legible rest := by
  constructor
  · exact fun h => ⟨h.tags token List.mem_cons_self hkind, h.tail⟩
  · rintro ⟨htag, hrest⟩
    refine ⟨?_, ?_, ?_, ?_⟩
    · rintro next (_ | ⟨_, hnext⟩)
      · exact fun _ => htag
      · exact hrest.tags next hnext
    · rintro next (_ | ⟨_, hnext⟩)
      · exact fun htext => absurd htext hkind
      · exact hrest.texts next hnext
    · exact List.isChain_cons.2 ⟨fun _ _ htext => absurd htext hkind, hrest.apart⟩
    · intro next more hmore htext
      rcases List.suffix_cons_iff.1 hmore with hhere | hbehind
      · cases hhere
        exact absurd htext hkind
      · exact hrest.quiet next more hbehind htext

/-- A text in front is looked at with all that is behind it. -/
theorem legible_text_cons_iff (hkind : token.kind = .text) :
    Legible (token :: rest) ↔
      token.payload ≠ "" ∧ (∀ next ∈ rest.head?, next.kind ≠ .text) ∧
        NoTagWithin token.payload.toList (rest.flatMap displayChars) ∧
        Legible rest := by
  constructor
  · intro h
    have hnext := (List.isChain_cons.1 h.apart).1
    exact ⟨h.texts token List.mem_cons_self hkind, fun next hhead => hnext next hhead hkind,
      h.quiet token rest List.suffix_rfl hkind, h.tail⟩
  · rintro ⟨htext, hnext, hwithin, hrest⟩
    refine ⟨?_, ?_, ?_, ?_⟩
    · rintro next (_ | ⟨_, hmem⟩)
      · exact fun hne => absurd hkind hne
      · exact hrest.tags next hmem
    · rintro next (_ | ⟨_, hmem⟩)
      · exact fun _ => htext
      · exact hrest.texts next hmem
    · exact List.isChain_cons.2 ⟨fun next hhead _ => hnext next hhead, hrest.apart⟩
    · intro next more hmore htext'
      rcases List.suffix_cons_iff.1 hmore with hhere | hbehind
      · cases hhere
        exact hwithin
      · exact hrest.quiet next more hbehind htext'

end Lists

section Cuts

/-- A run of text in front of legible tokens that do not start with a text. -/
theorem Legible.textRun_append {text : List Char} {tokens : List Token}
    (h : Legible tokens) (hnext : ∀ next ∈ tokens.head?, next.kind ≠ .text)
    (hwithin : NoTagWithin text (tokens.flatMap displayChars)) :
    Legible (textRun text ++ tokens) := by
  cases text with
  | nil => exact h
  | cons c text =>
      refine (legible_text_cons_iff rfl).2 ⟨?_, hnext, ?_, h⟩
      · simp [Token.text]
      · simpa [Token.text] using hwithin

namespace Cut

/-- The tokens of a valid cut are legible. -/
theorem Valid.legible {cut : Cut} (h : cut.Valid) : Legible cut.tokens := by
  induction cut with
  | last text =>
      have htext := legible_nil.textRun_append (by simp) (h : NoTagWithin text [])
      rwa [List.append_nil] at htext
  | cons text tag rest ih =>
      obtain ⟨hwithin, hcloses, -⟩ : (cons text tag rest).spaced.Valid := h.spaced
      have hkind : tag.token.kind ≠ .text := tag.kind_ne_text
      have htrim : trim tag.token.payload = tag.token.payload := by
        simp [trim, RawTag.token]
      have hclosing : ¬ tag.token.kind.closing <:+: tag.token.payload.toList := by
        simpa [RawTag.token] using RawTag.closesFirst_spaced_iff.1 hcloses
      have htag : Legible (tag.token :: rest.tokens) :=
        (legible_tag_cons_iff hkind).2 ⟨⟨htrim, hclosing⟩, ih h.2.2⟩
      refine htag.textRun_append (by simpa using hkind) ?_
      rw [List.flatMap_cons, RawTag.displayChars_token, flatMap_displayChars]
      exact hwithin

theorem tokens_prependText {cut : Cut} {text : List Char} (htext : text ≠ [])
    (hnext : ∀ next ∈ cut.tokens.head?, next.kind ≠ .text) :
    (cut.prependText text).tokens = Token.text (String.ofList text) :: cut.tokens := by
  have hrun : textRun text = [Token.text (String.ofList text)] := by
    cases text with
    | nil => exact absurd rfl htext
    | cons c text => rfl
  -- a cut that starts with a text would have it as its first token
  have hempty : ∀ behind more, cut.tokens = textRun behind ++ more → behind = [] := by
    intro behind more h
    cases behind with
    | nil => rfl
    | cons c behind => exact absurd rfl (hnext _ (by rw [h]; rfl))
  cases cut with
  | last behind =>
      obtain rfl := hempty behind [] (List.append_nil _).symm
      rw [prependText, tokens, List.append_nil, hrun]
      rfl
  | cons behind tag rest =>
      obtain rfl := hempty behind _ rfl
      rw [prependText, tokens, List.append_nil, hrun]
      rfl

end Cut

/-- A tag that can be read back is written as a tag of a cut. -/
theorem Token.exists_rawTag {token : Token} (hkind : token.kind ≠ .text)
    (htrim : trim token.payload = token.payload)
    (hclosing : ¬ token.kind.closing <:+: token.payload.toList) :
    ∃ tag : RawTag, tag.token = token ∧ tag.source = token.displayChars ∧
      ∀ rest, tag.ClosesFirst rest := by
  let tag : RawTag := ⟨token.kind, token.payload.toList, hkind⟩
  have hcontent : trimBlank tag.content = token.payload.toList := by
    rw [← String.toList_ofList (l := trimBlank tag.content)]
    exact congrArg String.toList htrim
  have htoken : tag.token = token := by
    simp [RawTag.token, hcontent, tag]
  refine ⟨tag.spaced, ?_, ?_, fun rest => RawTag.closesFirst_spaced_iff.2 ?_⟩
  · rw [RawTag.token_spaced, htoken]
  · rw [← RawTag.displayChars_token, htoken]
  · rwa [hcontent]

/-- Legible tokens are those of a valid cut of what they are written as. -/
theorem Legible.exists_cut {tokens : List Token} (h : Legible tokens) :
    ∃ cut : Cut, cut.source = tokens.flatMap displayChars ∧ cut.tokens = tokens ∧
      cut.Valid := by
  induction tokens with
  | nil => exact ⟨.last [], rfl, rfl, noTagWithin_nil []⟩
  | cons token rest ih =>
      by_cases hkind : token.kind = .text
      · obtain ⟨htext, hnext, hwithin, hrest⟩ := (legible_text_cons_iff hkind).1 h
        obtain ⟨cut, hsource, htokens, hvalid⟩ := ih hrest
        refine ⟨cut.prependText token.payload.toList, ?_, ?_, ?_⟩
        · simp [Cut.source_prependText, hsource, displayChars, hkind, Kind.marks]
        · rw [Cut.tokens_prependText (by simpa using htext) (by rwa [htokens]), htokens,
            String.ofList_toList, Token.text, ← hkind]
        · refine hvalid.prependText ?_
          rwa [hsource]
      · obtain ⟨⟨htrim, hclosing⟩, hrest⟩ := (legible_tag_cons_iff hkind).1 h
        obtain ⟨cut, hsource, htokens, hvalid⟩ := ih hrest
        obtain ⟨tag, htoken, hdisplay, hcloses⟩ :=
          Token.exists_rawTag hkind htrim hclosing
        refine ⟨.cons [] tag cut, ?_, ?_, noTagWithin_nil _, hcloses _, hvalid⟩
        · rw [List.flatMap_cons, ← hdisplay, ← hsource]
          rfl
        · rw [← htoken, ← htokens]
          rfl

theorem Legible.tokenize_eq {tokens : List Token} (h : Legible tokens) :
    tokenize (displayAll tokens) = tokens := by
  obtain ⟨cut, hsource, htokens, hvalid⟩ := h.exists_cut
  have hdisplay : cut.source = (displayAll tokens).toList := by
    rw [displayAll, String.toList_ofList, hsource]
  rw [Cut.tokenize_of_source_eq hdisplay hvalid, htokens]

theorem legible_tokenize (source : String) : Legible (tokenize source) := by
  obtain ⟨cut, hsource, hvalid⟩ := Cut.exists_valid source.toList
  rw [Cut.tokenize_of_source_eq hsource hvalid]
  exact hvalid.legible

end Cuts

section Tokens

/-- **Tokens are read back just when they are legible.** -/
theorem tokenize_displayAll_eq_iff (tokens : List Token) :
    tokenize (displayAll tokens) = tokens ↔ Legible tokens := by
  constructor
  · intro h
    rw [← h]
    exact legible_tokenize _
  · intro h
    exact h.tokenize_eq

/-- A brace at the end of a text begins a tag with the first brace of the one behind
it. -/
example :
    tokenize (displayAll [⟨.text, "\x7b"⟩, ⟨.placeholder, "x"⟩]) =
      [⟨.placeholder, "\x7b x"⟩] := by
  cbv

/-- **The legible tokens are those of the sources.** -/
theorem exists_tokenize_eq_iff (tokens : List Token) :
    (∃ source, tokenize source = tokens) ↔ Legible tokens := by
  constructor
  · rintro ⟨source, rfl⟩
    exact legible_tokenize source
  · intro h
    exact ⟨displayAll tokens, h.tokenize_eq⟩

end Tokens

end Templating
