import Mathlib
import Templating.Token.Components

/-!
# Words and the blanks between them

A directive is a row of words with blanks in front of them, between them and behind
them.  A word may hold blanks as well, if they are quoted.

**Quotes.**  Outside of quotes, a double or a single quote opens a run, which lasts to
the next quote of the same kind, or to the end of the text.  The other quote stands in
it like any character (`openQuote`).

**Words.**  A word starts with a character that is not blank, and each of its blanks is
in a run that was opened in this word (`IsWord`).

**Spacings.**  Between two words there are blanks, and behind a word that is followed by
blanks no run is open (`Spacing.Valid`).  So each word is as long as can be, and every
text has just one such spacing; its words are the components of the text.

As the words do not depend on how many blanks there are, the words in a row with single
spaces have the same components.

Main definitions: `openQuote`, `IsWord`, `Spacing.Valid` and `Token.singleSpaced`.  Main
statements: `openQuote_eq_some_iff`, `takeComponent_eq_iff`,
`Spacing.splitComponents_source`, `unique_spacing_and_components_eq` and
`Token.components_singleSpaced`.
-/

namespace Templating

open Text Token

section Quotes

/-- The quote that is open behind a character, given the one that is open before it. -/
def quoteAfter (quote : Option Char) (c : Char) : Option Char :=
  match quote with
  | some q => if c = q then none else some q
  | none => if c = '"' ∨ c = '\'' then some c else none

/-- The quote that is open behind a text, given the one that is open before it. -/
def openQuote (quote : Option Char) (cs : List Char) : Option Char :=
  cs.foldl quoteAfter quote

@[simp] theorem openQuote_nil (quote : Option Char) : openQuote quote [] = quote := rfl

@[simp] theorem openQuote_cons (quote : Option Char) (c : Char) (cs : List Char) :
    openQuote quote (c :: cs) = openQuote (quoteAfter quote c) cs := rfl

@[simp] theorem openQuote_append (quote : Option Char) (cs ds : List Char) :
    openQuote quote (cs ++ ds) = openQuote (openQuote quote cs) ds :=
  List.foldl_append

/-- A run goes on as long as its own quote does not come. -/
theorem openQuote_some_of_not_mem {q : Char} {run : List Char} (h : q ∉ run) :
    openQuote (some q) run = some q := by
  induction run with
  | nil => rfl
  | cons c run ih =>
      obtain ⟨hc, hrun⟩ := List.ne_and_not_mem_of_not_mem_cons h
      rw [openQuote_cons, quoteAfter, if_neg hc.symm, ih hrun]

/-- A quote is open just when it has opened a run, outside of any other, and has not
come again. -/
theorem openQuote_eq_some_iff {q : Char} {cs : List Char} :
    openQuote none cs = some q ↔
      ∃ before run, cs = before ++ q :: run ∧ openQuote none before = none ∧
        (q = '"' ∨ q = '\'') ∧ q ∉ run := by
  constructor
  · intro h
    induction cs using List.reverseRecOn with
    | nil => cases h
    | append_singleton cs c ih =>
        rw [openQuote_append, openQuote_cons, openQuote_nil] at h
        cases hquote : openQuote none cs with
        | none =>
            rw [hquote, quoteAfter] at h
            split at h
            · next hc =>
                cases h
                exact ⟨cs, [], rfl, hquote, hc, List.not_mem_nil⟩
            · cases h
        | some other =>
            rw [hquote, quoteAfter] at h
            split at h
            · cases h
            · next hc =>
                cases h
                obtain ⟨before, run, rfl, hbefore, hq, hrun⟩ := ih hquote
                refine ⟨before, run ++ [c], ?_, hbefore, hq, ?_⟩
                · rw [List.append_assoc, List.cons_append]
                · simpa using ⟨hrun, Ne.symm hc⟩
  · rintro ⟨before, run, rfl, hbefore, hq, hrun⟩
    rw [openQuote_append, hbefore, openQuote_cons, quoteAfter, if_pos hq,
      openQuote_some_of_not_mem hrun]

end Quotes

section Words

/-- Every blank of the text is in a run of quotes; `quote` is open before the text. -/
def BlanksQuoted (quote : Option Char) (cs : List Char) : Prop :=
  ∀ before c after, cs = before ++ c :: after → isBlank c = true →
    ∃ q, openQuote quote before = some q

theorem blanksQuoted_nil (quote : Option Char) : BlanksQuoted quote [] := by
  intro before c after h
  simp at h

theorem blanksQuoted_cons_iff {quote : Option Char} {c : Char} {cs : List Char} :
    BlanksQuoted quote (c :: cs) ↔
      (isBlank c = true → ∃ q, quote = some q) ∧
        BlanksQuoted (quoteAfter quote c) cs := by
  constructor
  · intro h
    refine ⟨h [] c cs rfl, ?_⟩
    intro before d after hcs hblank
    exact h (c :: before) d after (congrArg (c :: ·) hcs) hblank
  · rintro ⟨hhead, htail⟩ before d after hcs hblank
    cases before with
    | nil =>
        cases hcs
        exact hhead hblank
    | cons x before =>
        cases hcs
        exact htail before d after rfl hblank

theorem BlanksQuoted.of_forall {cs : List Char} (h : ∀ c ∈ cs, isBlank c = false)
    (quote : Option Char) : BlanksQuoted quote cs := by
  intro before c after hcs hblank
  have hc := h c (by simp [hcs])
  rw [hblank] at hc
  cases hc

theorem blanksQuoted_append_iff {quote : Option Char} {cs ds : List Char} :
    BlanksQuoted quote (cs ++ ds) ↔
      BlanksQuoted quote cs ∧ BlanksQuoted (openQuote quote cs) ds := by
  induction cs generalizing quote with
  | nil => simp [blanksQuoted_nil]
  | cons c cs ih =>
      rw [List.cons_append, blanksQuoted_cons_iff, blanksQuoted_cons_iff, ih, and_assoc,
        openQuote_cons]

/-- All blanks of a run are quoted. -/
theorem BlanksQuoted.of_not_mem {q : Char} {run : List Char} (h : q ∉ run) :
    BlanksQuoted (some q) run := by
  intro before c after hrun _
  refine ⟨q, openQuote_some_of_not_mem fun hmem => h ?_⟩
  rw [hrun]
  exact List.mem_append_left _ hmem

/-- A word starts with a character that is not blank, and its blanks are quoted. -/
structure IsWord (word : List Char) : Prop where
  starts : ∃ c rest, word = c :: rest ∧ isBlank c = false
  quoted : BlanksQuoted none word

/-- A text without blanks is a word. -/
theorem IsWord.of_forall {word : List Char} (hne : word ≠ [])
    (h : ∀ c ∈ word, isBlank c = false) : IsWord word := by
  refine ⟨?_, .of_forall h none⟩
  cases word with
  | nil => exact absurd rfl hne
  | cons c rest => exact ⟨c, rest, rfl, h c List.mem_cons_self⟩

end Words

section Components

/-- The component ends at a blank outside of quotes. -/
theorem takeComponent_cons (quote : Option Char) (c : Char) (cs : List Char) :
    takeComponent quote (c :: cs) =
      if quote = none ∧ isBlank c = true then ([], c :: cs)
      else (takeComponent (quoteAfter quote c) cs).map (c :: ·) id := by
  cases quote with
  | some q => simp [takeComponent, quoteAfter]
  | none =>
      by_cases hquote : c = '"' ∨ c = '\''
      · have hblank : isBlank c = false := by rcases hquote with rfl | rfl <;> rfl
        simp [takeComponent, quoteAfter, hquote, hblank]
      · simp [takeComponent, quoteAfter, hquote]

/-- **What a component is:** its blanks are quoted, and it ends at the end of the text or
at a blank where no quote is open. -/
theorem takeComponent_eq_iff {quote : Option Char} {cs word rest : List Char} :
    takeComponent quote cs = (word, rest) ↔
      cs = word ++ rest ∧ BlanksQuoted quote word ∧
        ∀ c more, rest = c :: more →
          isBlank c = true ∧ openQuote quote word = none := by
  induction cs generalizing quote word with
  | nil =>
      constructor
      · rintro ⟨⟩
        exact ⟨rfl, blanksQuoted_nil quote, by simp⟩
      · rintro ⟨hcs, -, -⟩
        obtain ⟨rfl, rfl⟩ := List.append_eq_nil_iff.1 hcs.symm
        cases quote <;> rfl
  | cons c cs ih =>
      rw [takeComponent_cons]
      split
      · next hends =>
          constructor
          · rintro ⟨⟩
            refine ⟨rfl, blanksQuoted_nil quote, ?_⟩
            rintro d more ⟨⟩
            exact ⟨hends.2, hends.1⟩
          · rintro ⟨hcs, hquoted, -⟩
            cases word with
            | nil => exact congrArg (Prod.mk []) hcs
            | cons d word =>
                obtain ⟨rfl, -⟩ := List.cons.inj hcs
                obtain ⟨q, hq⟩ := (blanksQuoted_cons_iff.1 hquoted).1 hends.2
                rw [hends.1] at hq
                cases hq
      · next hgoes =>
          constructor
          · rcases htake : takeComponent (quoteAfter quote c) cs with ⟨word', rest'⟩
            rintro ⟨⟩
            obtain ⟨hcs, hquoted, hrest⟩ := ih.1 htake
            refine ⟨congrArg (c :: ·) hcs, blanksQuoted_cons_iff.2 ⟨?_, hquoted⟩, hrest⟩
            intro hblank
            exact Option.ne_none_iff_exists'.1 fun hnone => hgoes ⟨hnone, hblank⟩
          · rintro ⟨hcs, hquoted, hrest⟩
            cases word with
            | nil =>
                obtain ⟨hblank, hnone⟩ := hrest c cs hcs.symm
                exact absurd ⟨hnone, hblank⟩ hgoes
            | cons d word =>
                obtain ⟨rfl, htail⟩ : c = d ∧ cs = word ++ rest := by simpa using hcs
                rw [ih.2 ⟨htail, (blanksQuoted_cons_iff.1 hquoted).2, hrest⟩]
                rfl

/-- A component that starts with a character that is not blank is a word. -/
theorem isWord_of_takeComponent {c : Char} {cs word rest : List Char}
    (hc : isBlank c = false) (h : takeComponent none (c :: cs) = (word, rest)) :
    IsWord word := by
  obtain ⟨hcs, hquoted, hrest⟩ := takeComponent_eq_iff.1 h
  refine ⟨?_, hquoted⟩
  cases word with
  | nil =>
      have hblank := (hrest c cs hcs.symm).1
      rw [hc] at hblank
      cases hblank
  | cons d word =>
      obtain ⟨rfl, -⟩ := List.cons.inj hcs
      exact ⟨c, word, rfl, hc⟩

theorem splitComponents_of_eq_nil {cs : List Char} (h : cs.dropWhile isBlank = []) :
    splitComponents cs = [] := by
  rw [splitComponents]
  split
  · rfl
  · next hcons => rw [h] at hcons; cases hcons

theorem splitComponents_of_eq_cons {cs rest : List Char} {c : Char}
    (h : cs.dropWhile isBlank = c :: rest) :
    splitComponents cs =
      (takeComponent none (c :: rest)).1 ::
        splitComponents (takeComponent none (c :: rest)).2 := by
  rw [splitComponents]
  split
  · next hnil => rw [h] at hnil; cases hnil
  · next hcons =>
      rw [h] at hcons
      cases hcons
      rfl

theorem splitComponents_eq_nil_iff {cs : List Char} :
    splitComponents cs = [] ↔ ∀ c ∈ cs, isBlank c = true := by
  rw [← List.dropWhile_eq_nil_iff]
  refine ⟨fun h => ?_, splitComponents_of_eq_nil⟩
  cases hdrop : cs.dropWhile isBlank with
  | nil => rfl
  | cons c rest =>
      rw [splitComponents_of_eq_cons hdrop] at h
      cases h

end Components

section Spacing

/-- Blanks and words in turn, up to the blanks behind the last word. -/
inductive Spacing where
  | last (blanks : List Char)
  | cons (blanks word : List Char) (rest : Spacing)

namespace Spacing

/-- The text that is spaced so. -/
def source : Spacing → List Char
  | last blanks => blanks
  | cons blanks word rest => blanks ++ (word ++ rest.source)

/-- The words, in order. -/
def words : Spacing → List (List Char)
  | last _ => []
  | cons _ word rest => word :: rest.words

/-- The blanks in front of all words. -/
def lead : Spacing → List Char
  | last blanks => blanks
  | cons blanks _ _ => blanks

/-- The word ends where the rest begins: there are blanks in front of a further word, and
no quote is open in front of blanks. -/
structure Ends (word : List Char) (rest : Spacing) : Prop where
  apart : rest.words ≠ [] → rest.lead ≠ []
  closed : rest.lead ≠ [] → openQuote none word = none

/-- The words are words, with blanks between them, and end there. -/
def Valid : Spacing → Prop
  | last blanks => ∀ c ∈ blanks, isBlank c = true
  | cons blanks word rest =>
      (∀ c ∈ blanks, isBlank c = true) ∧ IsWord word ∧ Ends word rest ∧ rest.Valid

theorem valid_last_nil : (last []).Valid := by
  simp [Valid]

/-- At the end of the text a quote may be open. -/
theorem ends_last_nil (word : List Char) : Ends word (last []) :=
  ⟨fun hwords => absurd rfl hwords, fun hlead => absurd rfl hlead⟩

/-- What a spaced text starts with: nothing, a blank, or a word. -/
theorem Valid.source_cases {s : Spacing} (h : s.Valid) :
    s = last [] ∨
      (∃ c more, s.source = c :: more ∧ isBlank c = true ∧ s.lead ≠ []) ∨
      ∃ c more, s.source = c :: more ∧ isBlank c = false ∧ s.words ≠ [] ∧ s.lead = [] := by
  cases s with
  | last blanks =>
      cases blanks with
      | nil => exact .inl rfl
      | cons c blanks =>
          have hc : isBlank c = true := h c List.mem_cons_self
          exact .inr (.inl ⟨c, blanks, rfl, hc, List.cons_ne_nil _ _⟩)
  | cons blanks word rest =>
      cases blanks with
      | nil =>
          obtain ⟨c, more, rfl, hc⟩ := h.2.1.starts
          exact .inr (.inr ⟨c, more ++ rest.source, rfl, hc, List.cons_ne_nil _ _, rfl⟩)
      | cons c blanks =>
          have hc : isBlank c = true := h.1 c List.mem_cons_self
          exact .inr (.inl ⟨c, blanks ++ (word ++ rest.source), rfl, hc, List.cons_ne_nil _ _⟩)

/-- Where a word ends is seen at the first character of the rest. -/
theorem ends_iff {word : List Char} {rest : Spacing} (h : rest.Valid) :
    Ends word rest ↔
      ∀ c more, rest.source = c :: more →
        isBlank c = true ∧ openQuote none word = none := by
  rcases h.source_cases with rfl | ⟨c, more, hsource, hc, hlead⟩ |
    ⟨c, more, hsource, hc, hwords, hlead⟩
  · simp [ends_last_nil, source]
  · constructor
    · intro hends d more' hsource'
      obtain ⟨rfl, -⟩ := List.cons.inj (hsource.symm.trans hsource')
      exact ⟨hc, hends.closed hlead⟩
    · intro hfirst
      exact ⟨fun _ => hlead, fun _ => (hfirst c more hsource).2⟩
  · constructor
    · intro hends
      exact absurd hlead (hends.apart hwords)
    · intro hfirst
      have hblank := (hfirst c more hsource).1
      rw [hc] at hblank
      cases hblank

theorem Valid.takeComponent_eq {blanks word : List Char} {rest : Spacing}
    (h : (cons blanks word rest).Valid) :
    takeComponent none (word ++ rest.source) = (word, rest.source) :=
  takeComponent_eq_iff.2 ⟨rfl, h.2.1.quoted, (ends_iff h.2.2.2).1 h.2.2.1⟩

theorem Valid.dropWhile_source {blanks word : List Char} {rest : Spacing}
    (h : (cons blanks word rest).Valid) :
    (cons blanks word rest).source.dropWhile isBlank = word ++ rest.source := by
  obtain ⟨c, more, rfl, hc⟩ := h.2.1.starts
  rw [source, List.dropWhile_append_of_pos h.1, List.cons_append, List.dropWhile_cons,
    if_neg (by simp [hc])]

/-- **The components of a text are the words of its spacing.** -/
theorem splitComponents_source {s : Spacing} (h : s.Valid) :
    splitComponents s.source = s.words := by
  induction s with
  | last blanks => exact splitComponents_of_eq_nil (List.dropWhile_eq_nil_iff.2 h)
  | cons blanks word rest ih =>
      have hdrop := h.dropWhile_source
      have htake := h.takeComponent_eq
      obtain ⟨c, more, rfl, -⟩ := h.2.1.starts
      rw [List.cons_append] at hdrop htake
      rw [splitComponents_of_eq_cons hdrop, htake, ih h.2.2.2, words]

/-- A text has at most one valid spacing. -/
theorem eq_of_source_eq {s t : Spacing} (hs : s.Valid) (ht : t.Valid)
    (h : s.source = t.source) : s = t := by
  induction s generalizing t with
  | last blanks =>
      cases t with
      | last blanks' => exact congrArg last h
      | cons blanks' word' rest' =>
          have hwords := splitComponents_source ht
          rw [← h, splitComponents_source hs] at hwords
          cases hwords
  | cons blanks word rest ih =>
      cases t with
      | last blanks' =>
          have hwords := splitComponents_source ht
          rw [← h, splitComponents_source hs] at hwords
          cases hwords
      | cons blanks' word' rest' =>
          have hbehind : word ++ rest.source = word' ++ rest'.source := by
            rw [← hs.dropWhile_source, h, ht.dropWhile_source]
          have htake := hs.takeComponent_eq
          rw [hbehind, ht.takeComponent_eq] at htake
          obtain ⟨rfl, hrest⟩ := Prod.mk.inj htake
          obtain rfl := ih hs.2.2.2 ht.2.2.2 hrest.symm
          obtain rfl := List.append_cancel_right h
          rfl

/-- A text has a valid spacing: that of its first component, and so on. -/
theorem exists_valid (cs : List Char) : ∃ s : Spacing, s.source = cs ∧ s.Valid := by
  induction hlength : cs.length using Nat.strongRecOn generalizing cs with
  | ind n ih =>
      cases hdrop : cs.dropWhile isBlank with
      | nil => exact ⟨last cs, rfl, List.dropWhile_eq_nil_iff.1 hdrop⟩
      | cons c behind =>
          have hshorter := length_rest_lt hdrop
          have hc : isBlank c = false := isBlank_head_dropWhile hdrop
          rcases htake : takeComponent none (c :: behind) with ⟨word, tail⟩
          rw [htake] at hshorter
          obtain ⟨rest, rfl, hrest⟩ := ih _ (hlength ▸ hshorter) tail rfl
          obtain ⟨hbehind, -, hends⟩ := takeComponent_eq_iff.1 htake
          refine ⟨cons (cs.takeWhile isBlank) word rest, ?_, ?_,
            isWord_of_takeComponent hc htake, (ends_iff hrest).2 hends, hrest⟩
          · rw [source, ← hbehind, ← hdrop, List.takeWhile_append_dropWhile]
          · exact fun d hd => List.mem_takeWhile_imp hd

/-- The words of any valid spacing of the payload are the components. -/
theorem components_eq {s : Spacing} {token : Token}
    (hsource : s.source = token.payload.toList) (h : s.Valid) :
    token.components = s.words.map String.ofList := by
  rw [components, ← hsource, splitComponents_source h]

end Spacing

/-- **Every payload has exactly one valid spacing**, whose words are the components of the
token.  The first of them is the name of a directive; without words it has none. -/
theorem unique_spacing_and_components_eq (token : Token) :
    (∃! s : Spacing, s.source = token.payload.toList ∧ s.Valid) ∧
      ∀ s : Spacing, s.source = token.payload.toList → s.Valid →
        token.components = s.words.map String.ofList ∧
          token.tagName? =
            if token.kind = .block then (s.words.map String.ofList).head? else none := by
  obtain ⟨s, hsource, hvalid⟩ := Spacing.exists_valid token.payload.toList
  refine ⟨⟨s, ⟨hsource, hvalid⟩, ?_⟩, ?_⟩
  · rintro t ⟨ht, hvalid'⟩
    exact Spacing.eq_of_source_eq hvalid' hvalid (ht.trans hsource.symm)
  · intro t ht hvalid'
    have hcomponents := Spacing.components_eq ht hvalid'
    refine ⟨hcomponents, ?_⟩
    rw [tagName?, hcomponents]

/-- A quote in the middle of a word opens a run, and a run that is not closed takes the
blanks at the end. -/
example :
    (Token.block " a'b \" c'd  'e  ").components = ["a'b \" c'd", "'e  "] := by
  cbv

end Spacing

section SingleSpaces

/-- The token with its components and one space between any two of them. -/
def Token.singleSpaced (token : Token) : Token :=
  { token with payload := " ".intercalate token.components }

namespace Spacing

/-- The same words with one space between any two of them, `lead` in front and nothing
behind. -/
def respaced (lead : List Char) : Spacing → Spacing
  | last _ => last []
  | cons _ word rest => cons lead word (rest.respaced [' '])

@[simp] theorem words_respaced (lead : List Char) (s : Spacing) :
    (s.respaced lead).words = s.words := by
  induction s generalizing lead with
  | last blanks => rfl
  | cons blanks word rest ih => simp only [respaced, words, ih]

theorem source_respaced (s : Spacing) :
    (s.respaced []).source = [' '].intercalate s.words := by
  induction s with
  | last blanks => rfl
  | cons blanks word rest ih =>
      cases rest with
      | last blanks' => simp [respaced, source, words]
      | cons blanks' next rest =>
          rw [words, words, List.intercalate_cons_cons, ← words, ← ih]
          simp [respaced, source]

theorem Valid.respaced {s : Spacing} (h : s.Valid) {lead : List Char}
    (hlead : ∀ c ∈ lead, isBlank c = true) : (s.respaced lead).Valid := by
  induction s generalizing lead with
  | last blanks => exact valid_last_nil
  | cons blanks word rest ih =>
      obtain ⟨-, hword, hends, hrest⟩ := h
      refine ⟨hlead, hword, ?_, ih hrest (by simp [isBlank])⟩
      cases rest with
      | last blanks' => exact ends_last_nil word
      | cons blanks' next rest =>
          refine ⟨fun _ => List.cons_ne_nil _ _, fun _ => hends.closed ?_⟩
          exact hends.apart (List.cons_ne_nil _ _)

end Spacing

/-- **The components do not depend on the number of blanks.** -/
@[simp] theorem Token.components_singleSpaced (token : Token) :
    token.singleSpaced.components = token.components := by
  obtain ⟨s, hsource, hvalid⟩ := Spacing.exists_valid token.payload.toList
  have hwords := Spacing.components_eq hsource hvalid
  have hpayload : (s.respaced []).source = token.singleSpaced.payload.toList := by
    rw [s.source_respaced, singleSpaced, String.toList_intercalate, hwords]
    simp
  rw [Spacing.components_eq hpayload (hvalid.respaced (by simp)), s.words_respaced, hwords]

end SingleSpaces

end Templating
