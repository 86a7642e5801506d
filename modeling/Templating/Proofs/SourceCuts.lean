import Mathlib.Logic.ExistsUnique
import Templating.Token.Scan

/-!
# Cuts of a source

A source is cut into texts and tags: a text, a tag, a text, a tag, and so on, up
to a last text. Texts may be empty.

**Tags.**  A tag reaches from an opening mark to the first closing mark of its
kind behind it.

**Texts.**  At no place inside a text does an opening mark stand that has its
closing mark anywhere behind it. The second character of the mark may be the first
one of the tag that follows.

Whether a place belongs to a text thus hangs on all of the source behind it. Still
there is exactly one such cut, and the scanner finds it.

Main definitions: `RawTag`, `StartsTag` and `Cut.Valid`.  Main statements:
`firstTag?_eq_some_iff`, `Cut.scan_source` and `unique_cut_and_tokenize_eq`.
-/

namespace Templating

open Text Token

section Marks

namespace Kind

/-- The opening mark of a tag; text has none. -/
def opening (kind : Kind) : List Char :=
  (kind.marks.map Prod.fst).getD []

/-- The closing mark of a tag; text has none. -/
def closing (kind : Kind) : List Char :=
  (kind.marks.map Prod.snd).getD []

theorem marks_eq {kind : Kind} (h : kind ≠ .text) :
    kind.marks = some (kind.opening, kind.closing) := by
  cases kind with
  | text => exact absurd rfl h
  | placeholder => rfl
  | block => rfl
  | comment => rfl

theorem ofMark_eq_some_iff {mark : Char} {kind : Kind} :
    ofMark mark = some kind ↔ kind ≠ .text ∧ kind.opening = ['{', mark] := by
  unfold ofMark
  split
  · cases kind <;> simp [opening, marks]
  · cases kind <;> simp [opening, marks]
  · cases kind <;> simp [opening, marks]
  · next hplaceholder hblock hcomment =>
      cases kind with
      | text => simp
      | placeholder => simp [opening, marks, Ne.symm hplaceholder]
      | block => simp [opening, marks, Ne.symm hblock]
      | comment => simp [opening, marks, Ne.symm hcomment]

theorem exists_opening {kind : Kind} (h : kind ≠ .text) :
    ∃ mark, kind.opening = ['{', mark] := by
  cases kind with
  | text => exact absurd rfl h
  | placeholder => exact ⟨'{', rfl⟩
  | block => exact ⟨'%', rfl⟩
  | comment => exact ⟨'#', rfl⟩

theorem closing_eq {kind : Kind} (h : kind ≠ .text) :
    kind.closing = [kind.closingMark, '}'] := by
  cases kind with
  | text => exact absurd rfl h
  | placeholder => rfl
  | block => rfl
  | comment => rfl

end Kind

/-- A tag as it is written: its kind, which is not that of text, and everything
between its marks. -/
structure RawTag where
  kind : Kind
  content : List Char
  kind_ne_text : kind ≠ .text

namespace RawTag

/-- The tag with its marks. -/
def source (tag : RawTag) : List Char :=
  tag.kind.opening ++ tag.content ++ tag.kind.closing

/-- The token of the tag, without the blanks at both ends of the content. -/
def token (tag : RawTag) : Token :=
  ⟨tag.kind, String.ofList (trimBlank tag.content)⟩

/-- With `rest` behind the tag, no closing mark stands further to the front than
the one that ends the tag. -/
def ClosesFirst (tag : RawTag) (rest : List Char) : Prop :=
  ∀ before after,
    tag.content ++ tag.kind.closing ++ rest =
        before ++ tag.kind.closing ++ after →
      tag.content.length ≤ before.length

theorem exists_mark (tag : RawTag) :
    ∃ mark, Kind.ofMark mark = some tag.kind ∧
      tag.kind.opening = ['{', mark] := by
  obtain ⟨mark, hmark⟩ := Kind.exists_opening tag.kind_ne_text
  exact ⟨mark, Kind.ofMark_eq_some_iff.2 ⟨tag.kind_ne_text, hmark⟩, hmark⟩

/-- The characters of a tag one by one. -/
theorem source_eq {tag : RawTag} {mark : Char}
    (hmark : tag.kind.opening = ['{', mark]) :
    tag.source =
      '{' :: mark :: (tag.content ++ [tag.kind.closingMark, '}']) := by
  simp [source, hmark, Kind.closing_eq tag.kind_ne_text]

theorem length_source_ge (tag : RawTag) : 4 ≤ tag.source.length := by
  obtain ⟨mark, -, hmark⟩ := tag.exists_mark
  rw [source_eq hmark]
  simp

/-- A source that holds a tag has at least the characters of its marks. -/
theorem length_ge_of_eq_append {tag : RawTag} {cs before rest : List Char}
    (h : cs = before ++ (tag.source ++ rest)) : 4 ≤ cs.length := by
  have htag := tag.length_source_ge
  rw [h, List.length_append, List.length_append]
  omega

/-- What is written determines the tag. -/
theorem source_injective {tag other : RawTag} (h : tag.source = other.source) :
    tag = other := by
  obtain ⟨mark, hkind, hmark⟩ := tag.exists_mark
  obtain ⟨mark', hkind', hmark'⟩ := other.exists_mark
  rw [source_eq hmark, source_eq hmark'] at h
  obtain ⟨-, rfl, hcontent⟩ : '{' = '{' ∧ mark = mark' ∧ _ := by simpa using h
  rw [hkind] at hkind'
  have hsame : tag.kind = other.kind := Option.some.inj hkind'
  rw [hsame] at hcontent
  obtain ⟨kind, content, hne⟩ := tag
  obtain ⟨kind', content', hne'⟩ := other
  simp_all

/-- Whether a tag closes first is seen inside it: the closing mark must not even
overlap with the content. -/
theorem closesFirst_iff {tag : RawTag} {rest : List Char} :
    tag.ClosesFirst rest ↔
      ¬ tag.kind.closing <:+: tag.content ++ [tag.kind.closingMark] := by
  have hclosing := Kind.closing_eq tag.kind_ne_text
  constructor
  · rintro hfirst ⟨before, after, h⟩
    have hle := hfirst before (after ++ '}' :: rest) (by
      have h' := congrArg (· ++ '}' :: rest) h
      simpa [hclosing] using h'.symm)
    have hlength := congrArg List.length h
    simp [hclosing] at hlength
    omega
  · intro hnone before after h
    refine Nat.le_of_not_lt fun hlt => hnone ?_
    -- the earlier mark ends before the last character of the one that ends the tag
    have hearlier : before ++ tag.kind.closing <+:
        tag.content ++ tag.kind.closing ++ rest := ⟨after, h.symm⟩
    have hcontent : tag.content ++ [tag.kind.closingMark] <+:
        tag.content ++ tag.kind.closing ++ rest :=
      ⟨'}' :: rest, by simp [hclosing]⟩
    have hprefix := List.prefix_of_prefix_length_le hearlier hcontent (by
      simp [hclosing]
      omega)
    exact (List.suffix_append before _).isInfix.trans hprefix.isInfix

end RawTag

end Marks

section Scanner

/-- The search fails just when there is no closing mark. -/
theorem splitAtCloser_eq_none_iff {m : Char} {cs : List Char} :
    splitAtCloser m cs = none ↔ ¬ [m, '}'] <:+: cs := by
  fun_induction splitAtCloser m cs with
  | case1 c d rest hmark =>
      obtain ⟨rfl, rfl⟩ := hmark
      simp [List.infix_cons_iff]
  | case2 c d rest hmark ih =>
      have hprefix : ¬ [m, '}'] <+: c :: d :: rest := by
        simpa [eq_comm] using hmark
      have hinfix : [m, '}'] <:+: c :: d :: rest ↔ [m, '}'] <:+: d :: rest := by
        rw [List.infix_cons_iff, or_iff_right hprefix]
      rw [Option.map_eq_none_iff, ih, hinfix]
  | case3 cs hshort =>
      refine ⟨fun _ => ?_, fun _ => rfl⟩
      intro hinfix
      have hlength := hinfix.length_le
      rcases cs with _ | ⟨c, _ | ⟨d, rest⟩⟩
      · simp at hlength
      · simp at hlength
      · exact hshort c d rest rfl

/-- What the search finds in front of the mark does not even overlap with a closing
mark. -/
theorem splitAtCloser_first {m : Char} {cs content rest : List Char}
    (h : splitAtCloser m cs = some (content, rest)) :
    ¬ [m, '}'] <:+: content ++ [m] := by
  fun_induction splitAtCloser m cs generalizing content with
  | case1 c d tail hmark =>
      obtain ⟨rfl, -⟩ : [] = content ∧ tail = rest := by simpa using h
      intro hinfix
      have hlength := hinfix.length_le
      simp at hlength
  | case2 c d tail hmark ih =>
      obtain ⟨⟨content', rest'⟩, hsplit, hcons⟩ := Option.map_eq_some_iff.1 h
      obtain ⟨rfl, rfl⟩ : c :: content' = content ∧ rest' = rest := by
        simpa using hcons
      have happend := splitAtCloser_append hsplit
      rw [List.cons_append, List.infix_cons_iff, not_or]
      refine ⟨fun hprefix => ?_, ih hsplit⟩
      obtain ⟨hc, hnext⟩ := List.cons_prefix_cons.1 hprefix
      have hd : d = '}' := by
        cases content' with
        | nil =>
            obtain ⟨hm, -⟩ := List.cons_prefix_cons.1 hnext
            obtain ⟨hd, -⟩ := List.cons.inj happend
            exact hd.symm.trans hm.symm
        | cons x content' =>
            obtain ⟨hx, -⟩ := List.cons_prefix_cons.1 hnext
            obtain ⟨hd, -⟩ := List.cons.inj happend
            exact hd.symm.trans hx.symm
      exact hmark ⟨hc.symm, hd⟩
  | case3 cs hshort => simp at h

theorem splitAtCloser_of_first {m : Char} {content : List Char}
    (h : ¬ [m, '}'] <:+: content ++ [m]) (rest : List Char) :
    splitAtCloser m (content ++ m :: '}' :: rest) = some (content, rest) := by
  induction content with
  | nil => simp [splitAtCloser]
  | cons c content ih =>
      rw [List.cons_append, List.infix_cons_iff, not_or] at h
      have ih := ih h.2
      cases content with
      | nil =>
          have hmark : ¬ (c = m ∧ m = '}') := by simpa [eq_comm] using h.1
          simp only [List.nil_append, List.cons_append] at ih ⊢
          rw [splitAtCloser, if_neg hmark, ih]
          rfl
      | cons d content =>
          have hmark : ¬ (c = m ∧ d = '}') := by simpa [eq_comm] using h.1
          simp only [List.cons_append] at ih ⊢
          rw [splitAtCloser, if_neg hmark, ih]
          rfl

/-- The scanner reads a tag at the front of the source up to its first closing
mark. -/
theorem tagAfter?_eq_some_iff {c mark : Char} {cs rest : List Char}
    {token : Token} :
    (if c = '{' then tagAfter? mark cs else none) = some (token, rest) ↔
      ∃ tag : RawTag, tag.token = token ∧
        c :: mark :: cs = tag.source ++ rest ∧ tag.ClosesFirst rest := by
  constructor
  · intro h
    split at h
    · next hc =>
        subst hc
        unfold tagAfter? at h
        split at h
        · cases h
        · next kind hkind =>
            obtain ⟨⟨content, tail⟩, hsplit, hpair⟩ := Option.map_eq_some_iff.1 h
            obtain ⟨rfl, rfl⟩ : _ = token ∧ tail = rest := by simpa using hpair
            obtain ⟨hne, hmark⟩ := Kind.ofMark_eq_some_iff.1 hkind
            refine ⟨⟨kind, content, hne⟩, rfl, ?_, ?_⟩
            · rw [RawTag.source_eq hmark, ← splitAtCloser_append hsplit]
              simp
            · rw [RawTag.closesFirst_iff, Kind.closing_eq hne]
              exact splitAtCloser_first hsplit
    · cases h
  · rintro ⟨tag, rfl, hsource, hfirst⟩
    obtain ⟨mark', hkind, hmark⟩ := tag.exists_mark
    rw [RawTag.source_eq hmark] at hsource
    obtain ⟨rfl, rfl, rfl⟩ : c = '{' ∧ mark = mark' ∧ _ := by simpa using hsource
    rw [RawTag.closesFirst_iff, Kind.closing_eq tag.kind_ne_text] at hfirst
    have hsplit := splitAtCloser_of_first hfirst rest
    simp only [if_true, tagAfter?, hkind, hsplit, Option.map_some, RawTag.token]

/-- A tag could be read at the front of the source: an opening mark stands there,
and its closing mark somewhere behind it. -/
def StartsTag (cs : List Char) : Prop :=
  ∃ tag : RawTag, tag.source <+: cs

theorem startsTag_cons_iff {c mark : Char} {cs : List Char} :
    StartsTag (c :: mark :: cs) ↔
      c = '{' ∧ ∃ kind, Kind.ofMark mark = some kind ∧
        [kind.closingMark, '}'] <:+: cs := by
  constructor
  · rintro ⟨tag, rest, hsource⟩
    obtain ⟨mark', hkind, hmark⟩ := tag.exists_mark
    rw [RawTag.source_eq hmark] at hsource
    simp only [List.cons_append, List.cons.injEq] at hsource
    obtain ⟨rfl, rfl, hrest⟩ := hsource
    refine ⟨rfl, tag.kind, hkind, tag.content, rest, ?_⟩
    simpa using hrest
  · rintro ⟨rfl, kind, hkind, content, rest, hcs⟩
    obtain ⟨hne, hmark⟩ := Kind.ofMark_eq_some_iff.1 hkind
    refine ⟨⟨kind, content, hne⟩, rest, ?_⟩
    rw [RawTag.source_eq hmark, ← hcs]
    simp

theorem tagAfter?_eq_none_iff {c mark : Char} {cs : List Char} :
    (if c = '{' then tagAfter? mark cs else none) = none ↔
      ¬ StartsTag (c :: mark :: cs) := by
  rw [startsTag_cons_iff]
  by_cases hc : c = '{'
  · unfold tagAfter?
    cases hkind : Kind.ofMark mark with
    | none => simp
    | some kind => simp [hc, splitAtCloser_eq_none_iff]
  · simp [hc]

/-- No tag could be read at any place inside a text, with `rest` behind the text. -/
def NoTagWithin (text rest : List Char) : Prop :=
  ∀ before after, text = before ++ after → after ≠ [] →
    ¬ StartsTag (after ++ rest)

theorem noTagWithin_nil (rest : List Char) : NoTagWithin [] rest := by
  intro before after happend hafter
  exact absurd (List.append_eq_nil_iff.1 happend.symm).2 hafter

theorem noTagWithin_cons_iff {c : Char} {text rest : List Char} :
    NoTagWithin (c :: text) rest ↔
      ¬ StartsTag (c :: text ++ rest) ∧ NoTagWithin text rest := by
  constructor
  · intro h
    refine ⟨h [] (c :: text) rfl (List.cons_ne_nil c text), ?_⟩
    intro before after happend hafter
    exact h (c :: before) after (congrArg (c :: ·) happend) hafter
  · rintro ⟨hhead, htail⟩ before after happend hafter
    cases before with
    | nil =>
        rw [List.nil_append] at happend
        rwa [← happend]
    | cons x before =>
        exact htail before after (List.cons.inj happend).2 hafter

theorem noTagWithin_append_iff {text more rest : List Char} :
    NoTagWithin (text ++ more) rest ↔
      NoTagWithin text (more ++ rest) ∧ NoTagWithin more rest := by
  induction text with
  | nil => simp [noTagWithin_nil]
  | cons c text ih =>
      rw [List.cons_append, noTagWithin_cons_iff, noTagWithin_cons_iff, ih,
        and_assoc]
      simp only [List.cons_append, List.append_assoc]

theorem not_startsTag_singleton (c : Char) : ¬ StartsTag [c] := by
  rintro ⟨tag, rest, hsource⟩
  have happend : [c] = [] ++ (tag.source ++ rest) := hsource.symm
  have hlength := RawTag.length_ge_of_eq_append happend
  simp at hlength

/-- The scanner finds no tag just when none could be read at any place. -/
theorem firstTag?_eq_none_iff {cs : List Char} :
    firstTag? cs = none ↔ NoTagWithin cs [] := by
  fun_induction firstTag? cs with
  | case1 => simp [noTagWithin_nil]
  | case2 c =>
      simp [noTagWithin_cons_iff, noTagWithin_nil, not_startsTag_singleton]
  | case3 c mark cs tag rest hfound =>
      refine ⟨(by rintro ⟨⟩), fun h => ?_⟩
      have hstarts := (noTagWithin_cons_iff.1 h).1
      rw [List.append_nil, ← tagAfter?_eq_none_iff, hfound] at hstarts
      cases hstarts
  | case4 c mark cs hnone ih =>
      have hstarts : ¬ StartsTag (c :: (mark :: cs) ++ []) := by
        rw [List.append_nil]
        exact tagAfter?_eq_none_iff.1 hnone
      have hcons : NoTagWithin (c :: mark :: cs) [] ↔ NoTagWithin (mark :: cs) [] := by
        rw [noTagWithin_cons_iff, and_iff_right hstarts]
      rw [Option.map_eq_none_iff, ih, hcons]

/-- The scanner finds a tag just where the first one could be read, and reads it up
to its first closing mark. -/
theorem firstTag?_eq_some_iff {cs before rest : List Char} {token : Token} :
    firstTag? cs = some (before, token, rest) ↔
      ∃ tag : RawTag, tag.token = token ∧ cs = before ++ (tag.source ++ rest) ∧
        tag.ClosesFirst rest ∧ NoTagWithin before (tag.source ++ rest) := by
  fun_induction firstTag? cs generalizing before with
  | case1 =>
      refine ⟨(by rintro ⟨⟩), ?_⟩
      rintro ⟨tag, -, hsource, -⟩
      have hlength := RawTag.length_ge_of_eq_append hsource
      simp at hlength
  | case2 c =>
      refine ⟨(by rintro ⟨⟩), ?_⟩
      rintro ⟨tag, -, hsource, -⟩
      have hlength := RawTag.length_ge_of_eq_append hsource
      simp at hlength
  | case3 c mark cs found tail hfound =>
      constructor
      · rintro ⟨⟩
        obtain ⟨tag, htoken, hsource, hfirst⟩ := tagAfter?_eq_some_iff.1 hfound
        exact ⟨tag, htoken, hsource, hfirst, noTagWithin_nil _⟩
      · rintro ⟨tag, rfl, hsource, hfirst, htext⟩
        cases before with
        | nil =>
            have htag := tagAfter?_eq_some_iff.2 ⟨tag, rfl, hsource, hfirst⟩
            rw [hfound] at htag
            cases htag
            rfl
        | cons x before =>
            -- the tag that was found would start inside the text
            have hstarts := (noTagWithin_cons_iff.1 htext).1
            rw [← hsource, ← tagAfter?_eq_none_iff, hfound] at hstarts
            cases hstarts
  | case4 c mark cs hnone ih =>
      have hstarts := tagAfter?_eq_none_iff.1 hnone
      constructor
      · intro h
        obtain ⟨⟨text, token', tail⟩, hfirst, hcons⟩ := Option.map_eq_some_iff.1 h
        obtain ⟨rfl, rfl, rfl⟩ : c :: text = before ∧ token' = token ∧ tail = rest := by
          simpa using hcons
        obtain ⟨tag, htoken, hsource, hcloses, htext⟩ := ih.1 hfirst
        refine ⟨tag, htoken, congrArg (c :: ·) hsource, hcloses, ?_⟩
        rw [noTagWithin_cons_iff, List.cons_append, ← hsource]
        exact ⟨hstarts, htext⟩
      · rintro ⟨tag, rfl, hsource, hcloses, htext⟩
        cases before with
        | nil => exact absurd ⟨tag, rest, hsource.symm⟩ hstarts
        | cons x text =>
            obtain ⟨rfl, htail⟩ := List.cons.inj hsource
            have hfirst := ih.2
              ⟨tag, rfl, htail, hcloses, (noTagWithin_cons_iff.1 htext).2⟩
            rw [hfirst]
            rfl

end Scanner

section Cuts

/-- A source cut into texts and tags in turn, with a text at both ends. -/
inductive Cut where
  | last (text : List Char)
  | cons (text : List Char) (tag : RawTag) (rest : Cut)

namespace Cut

/-- The source that has been cut. -/
def source : Cut → List Char
  | last text => text
  | cons text tag rest => text ++ (tag.source ++ rest.source)

/-- The tokens of the pieces; an empty text gives none. -/
def tokens : Cut → List Token
  | last text => textRun text
  | cons text tag rest => textRun text ++ tag.token :: rest.tokens

/-- Each tag ends at its first closing mark, and no tag could be read inside a
text. -/
def Valid : Cut → Prop
  | last text => NoTagWithin text []
  | cons text tag rest =>
      NoTagWithin text (tag.source ++ rest.source) ∧
        tag.ClosesFirst rest.source ∧ rest.Valid

end Cut

theorem scan_of_eq_none {cs : List Char} (h : firstTag? cs = none) :
    scan cs = textRun cs := by
  rw [scan]
  split
  · rfl
  · next hsome => rw [h] at hsome; cases hsome

theorem scan_of_eq_some {cs before rest : List Char} {token : Token}
    (h : firstTag? cs = some (before, token, rest)) :
    scan cs = textRun before ++ token :: scan rest := by
  rw [scan]
  split
  · next hnone => rw [h] at hnone; cases hnone
  · next hsome =>
      rw [h] at hsome
      cases hsome
      rfl

namespace Cut

theorem Valid.firstTag?_cons {text : List Char} {tag : RawTag} {rest : Cut}
    (h : (cons text tag rest).Valid) :
    firstTag? (cons text tag rest).source =
      some (text, tag.token, rest.source) :=
  firstTag?_eq_some_iff.2 ⟨tag, rfl, rfl, h.2.1, h.1⟩

theorem Valid.firstTag?_last {text : List Char} (h : (last text).Valid) :
    firstTag? (last text).source = none :=
  firstTag?_eq_none_iff.2 h

/-- The scanner gives the tokens of a valid cut. -/
theorem scan_source {cut : Cut} (h : cut.Valid) :
    scan cut.source = cut.tokens := by
  induction cut with
  | last text => exact scan_of_eq_none h.firstTag?_last
  | cons text tag rest ih =>
      rw [scan_of_eq_some h.firstTag?_cons, ih h.2.2]
      rfl

/-- A source has at most one valid cut. -/
theorem eq_of_source_eq {cut other : Cut} (hcut : cut.Valid)
    (hother : other.Valid) (h : cut.source = other.source) : cut = other := by
  induction cut generalizing other with
  | last text =>
      cases other with
      | last text' => exact congrArg last h
      | cons text' tag' rest' =>
          have hnone := hcut.firstTag?_last
          rw [h, hother.firstTag?_cons] at hnone
          cases hnone
  | cons text tag rest ih =>
      have hfirst := hcut.firstTag?_cons
      cases other with
      | last text' =>
          rw [h, hother.firstTag?_last] at hfirst
          cases hfirst
      | cons text' tag' rest' =>
          rw [h, hother.firstTag?_cons] at hfirst
          simp only [Option.some.injEq, Prod.mk.injEq] at hfirst
          obtain ⟨rfl, -, hrest⟩ := hfirst
          obtain rfl := ih hcut.2.2 hother.2.2 hrest.symm
          have htag : tag.source = tag'.source := by
            simpa [source] using h
          rw [RawTag.source_injective htag]

/-- A source has a valid cut. -/
theorem exists_valid (cs : List Char) :
    ∃ cut : Cut, cut.source = cs ∧ cut.Valid := by
  induction hlength : cs.length using Nat.strongRecOn generalizing cs with
  | ind n ih =>
      cases hfirst : firstTag? cs with
      | none => exact ⟨last cs, rfl, firstTag?_eq_none_iff.1 hfirst⟩
      | some found =>
          obtain ⟨before, token, tail⟩ := found
          have hshorter := length_firstTag?_lt hfirst
          obtain ⟨rest, rfl, hrest⟩ := ih _ (hlength ▸ hshorter) tail rfl
          obtain ⟨tag, -, hsource, hcloses, htext⟩ :=
            firstTag?_eq_some_iff.1 hfirst
          exact ⟨cons before tag rest, hsource.symm, htext, hcloses, hrest⟩

theorem tokenize_of_source_eq {cut : Cut} {source : String}
    (hsource : cut.source = source.toList) (h : cut.Valid) :
    tokenize source = cut.tokens := by
  rw [tokenize, ← hsource, scan_source h]

end Cut

end Cuts

end Templating
