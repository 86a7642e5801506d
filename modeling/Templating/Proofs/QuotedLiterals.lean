import Templating.Proofs.Bodies
import Templating.Proofs.LegibleTokens
import Templating.Proofs.Words

/-!
# Quoted literals

A text between quotes is put in a tag.  It comes through four stages, each of which could
cut it short or trim it.

**Scanning.**  The scanner does not know quotes: a tag ends at the first closing mark,
also within quotes.  So the text must be without that mark; a part of the mark at one of
its ends does no harm, since a quote stands between.

**Trimming.**  At the ends of the literal there are its quotes, and no blanks.

**Splitting.**  The opening quote opens a run that only the closing one ends, as the text
does not hold this quote.  So the literal is one word, whatever blanks are in the text.

**Resolving.**  An expression with quotes at both ends is a literal, whatever dots are in
the text.

Main definitions: `quoteWith` and `PlainName`.  Main statements: `resolve?_quoteWith`,
`isWord_quoteWith`, `Template.parse_directive`, `Template.parse_placeholder` and
`quoted_literal_reaches_node`.
-/

namespace Templating

open Text Token

/-- The text between two quotes. -/
def quoteWith (q : Char) (s : String) : String :=
  String.ofList (q :: (s.toList ++ [q]))

section Literal

variable {q : Char} {s : String}

theorem toList_quoteWith (q : Char) (s : String) :
    (quoteWith q s).toList = q :: (s.toList ++ [q]) :=
  String.toList_ofList

theorem getLast?_quoteWith (q : Char) (s : String) :
    (quoteWith q s).toList.getLast? = some q := by
  rw [toList_quoteWith, ← List.cons_append]
  exact List.getLast?_concat

theorem isBlank_of_isQuote (hquote : q = '"' ∨ q = '\'') : isBlank q = false := by
  rcases hquote with rfl | rfl <;> rfl

/-- Quotes around a text do not add marks to it. -/
theorem pair_infix_quoteWith_iff {x y : Char} (hx : x ≠ q) (hy : y ≠ q) :
    [x, y] <:+: (quoteWith q s).toList ↔ [x, y] <:+: s.toList := by
  simp [toList_quoteWith, pair_infix_cons_iff, pair_infix_append_iff, hx, hy.symm]

theorem trim_quoteWith (hquote : q = '"' ∨ q = '\'') :
    trim (quoteWith q s) = quoteWith q s := by
  refine trim_eq_self ?_ ?_
  · rw [toList_quoteWith]
    rintro c ⟨⟩
    exact isBlank_of_isQuote hquote
  · rw [getLast?_quoteWith]
    rintro c ⟨⟩
    exact isBlank_of_isQuote hquote

theorem literal?_quoteWith (hquote : q = '"' ∨ q = '\'') :
    (Expression.ofSource (quoteWith q s)).literal? = some s := by
  rw [Expression.ofSource, trim_quoteWith hquote, Expression.literal?, toList_quoteWith,
    Expression.quoted?, if_pos ⟨hquote, List.getLast?_concat⟩, List.dropLast_concat,
    Option.map_some, String.ofList_toList]

/-- **A literal resolves to the text between its quotes.** -/
theorem resolve?_quoteWith (hquote : q = '"' ∨ q = '\'') (c : Context) :
    (Expression.ofSource (quoteWith q s)).resolve? c = some (.string s) := by
  rw [Expression.resolve?, literal?_quoteWith hquote]

/-- **A literal is one word.** -/
theorem isWord_quoteWith (hquote : q = '"' ∨ q = '\'') (hs : q ∉ s.toList) :
    IsWord (quoteWith q s).toList := by
  have hblank := isBlank_of_isQuote hquote
  have hopens : quoteAfter none q = some q := if_pos hquote
  have hrun := openQuote_some_of_not_mem hs
  refine ⟨⟨q, s.toList ++ [q], toList_quoteWith q s, hblank⟩, ?_⟩
  rw [toList_quoteWith, blanksQuoted_cons_iff, hopens, blanksQuoted_append_iff, hrun]
  refine ⟨by simp [hblank], .of_not_mem hs, .of_forall ?_ _⟩
  simpa using hblank

end Literal

section Directive

/-- The name of a tag as it stands in front of a literal: a word that leaves no quote open
and does not hold the closing mark. -/
structure PlainName (name : String) : Prop where
  word : IsWord name.toList
  closed : openQuote none name.toList = none
  unmarked : ¬ ['%', '}'] <:+: name.toList

theorem plainName_include : PlainName "include" :=
  ⟨.of_forall (by decide) (by simp [isBlank]), rfl, by decide⟩

theorem plainName_now : PlainName "now" :=
  ⟨.of_forall (by decide) (by simp [isBlank]), rfl, by decide⟩

/-- The directive of a name and a literal. -/
def literalDirective (name : String) (q : Char) (s : String) : Token :=
  block (name ++ " " ++ quoteWith q s)

variable {q : Char} {s name : String}

/-- The directive of a name and a literal has these two words. -/
theorem says_literalDirective (hname : PlainName name) (hquote : q = '"' ∨ q = '\'')
    (hs : q ∉ s.toList) : (literalDirective name q s).Says [name, quoteWith q s] := by
  let spacing : Spacing :=
    .cons [] name.toList (.cons [' '] (quoteWith q s).toList (.last []))
  have hsource : spacing.source = (name ++ " " ++ quoteWith q s).toList := by
    simp [spacing, Spacing.source]
  have hends : Spacing.Ends name.toList (.cons [' '] (quoteWith q s).toList (.last [])) :=
    ⟨fun _ => List.cons_ne_nil _ _, fun _ => hname.closed⟩
  have hvalid : spacing.Valid :=
    ⟨by simp, hname.word, hends, by simp [isBlank], isWord_quoteWith hquote hs,
      Spacing.ends_last_nil _, Spacing.valid_last_nil⟩
  refine ⟨rfl, ?_⟩
  rw [literalDirective, block, Spacing.components_eq hsource hvalid]
  simp [spacing, Spacing.words]

theorem trim_literalDirective (hname : PlainName name) (hquote : q = '"' ∨ q = '\'') :
    trim (literalDirective name q s).payload = (literalDirective name q s).payload := by
  obtain ⟨c, rest, hstart, hc⟩ := hname.word.starts
  rw [literalDirective, block]
  refine trim_eq_self ?_ ?_
  · rw [String.toList_append, String.toList_append, hstart]
    rintro d ⟨⟩
    exact hc
  · rw [String.toList_append, List.getLast?_append, getLast?_quoteWith]
    rintro d ⟨⟩
    exact isBlank_of_isQuote hquote

/-- The closing mark of a directive is not in it if it is neither in the name nor in the
text. -/
theorem not_closing_infix_literalDirective (hname : PlainName name)
    (hquote : q = '"' ∨ q = '\'') (hs : ¬ ['%', '}'] <:+: s.toList) :
    ¬ ['%', '}'] <:+: (literalDirective name q s).payload.toList := by
  have hne : '%' ≠ q ∧ '}' ≠ q := by rcases hquote with rfl | rfl <;> decide
  rw [literalDirective, block, String.toList_append, String.toList_append,
    pair_infix_append_iff, pair_infix_append_iff, pair_infix_quoteWith_iff hne.1 hne.2]
  simp [hname.unmarked, hs, pair_infix_cons_iff]

end Directive

section Tags

variable {strict : Bool} {token : Token} {node : Node}

/-- A trimmed tag that is written out is the one token of its source. -/
theorem Token.tokenize_display (hkind : token.kind ≠ .text)
    (htrim : trim token.payload = token.payload)
    (hclosing : ¬ token.kind.closing <:+: token.payload.toList) :
    tokenize token.display = [token] := by
  have hlegible : Legible [token] :=
    (legible_tag_cons_iff hkind).2 ⟨⟨htrim, hclosing⟩, legible_nil⟩
  have hdisplay : displayAll [token] = token.display := by simp [displayAll, display]
  rw [← hdisplay, hlegible.tokenize_eq]

/-- A source of one token, which the pass takes as a leaf, is parsed to this leaf. -/
theorem Template.parse_single {source : String} (htokens : tokenize source = [token])
    (hstep : Pass.start.Takes strict token (Pass.start.add [node])) :
    Template.parse strict source = .ok ⟨none, [node]⟩ := by
  have hrun := Pass.run_cons (Pass.step_eq_ok_iff.2 hstep) []
  refine parse_eq_ok_iff.2 ⟨[node], ?_, rfl⟩
  rw [htokens, parseTokens_eq_run, hrun, Pass.run_nil, Pass.finish_start_add]

theorem takes_inclusion {argument : String} (h : token.Says ["include", argument]) :
    Pass.start.Takes strict token
      (Pass.start.add [.inclusion (.ofSource argument)]) := by
  have htag : Directive.builtin? "include" token =
      some (.ok (.leaf (.inclusion (.ofSource argument)))) := by
    simp [Directive.builtin?, Directive.inclusion, Directive.arguments, h.arguments_eq,
      Except.map]
  exact .follow h.tagName?_eq List.not_mem_nil htag

theorem takes_now {argument : String} (h : token.Says ["now", argument]) :
    Pass.start.Takes strict token (Pass.start.add [.now (.ofSource argument)]) := by
  have htag : Directive.builtin? "now" token =
      some (.ok (.leaf (.now (.ofSource argument)))) := by
    simp [Directive.builtin?, Directive.now, h.arguments_eq]
  exact .follow h.tagName?_eq List.not_mem_nil htag

end Tags

section Templates

variable {strict : Bool} {q : Char} {s : String}

/-- The directive of a name and a literal, written out, is parsed to the leaf that the
pass takes it as. -/
theorem Template.parse_directive {name : String} {node : Node} (hname : PlainName name)
    (hquote : q = '"' ∨ q = '\'') (hs : q ∉ s.toList)
    (hmark : ¬ ['%', '}'] <:+: s.toList)
    (htakes : ∀ token : Token, token.Says [name, quoteWith q s] →
      Pass.start.Takes strict token (Pass.start.add [node])) :
    parse strict (literalDirective name q s).display = .ok ⟨none, [node]⟩ := by
  have hkind : (literalDirective name q s).kind ≠ .text := by simp [literalDirective, block]
  have htokens := Token.tokenize_display hkind (trim_literalDirective hname hquote)
    (not_closing_infix_literalDirective hname hquote hmark)
  exact parse_single htokens (htakes _ (says_literalDirective hname hquote hs))

/-- A placeholder without blanks at the ends of its text, written out, is parsed to the
expression of this text. -/
theorem Template.parse_trimmed (htrim : trim s = s) (hmark : ¬ ['}', '}'] <:+: s.toList) :
    parse strict (Token.display ⟨.placeholder, s⟩) =
      .ok ⟨none, [.placeholder (.ofSource s)]⟩ := by
  let token : Token := ⟨.placeholder, s⟩
  have hkind : token.kind ≠ .text := by simp [token]
  have hleaf : token.leaf? = some (.placeholder (.ofSource s)) := rfl
  have htakes : Pass.start.Takes strict token _ := .leaf hleaf
  exact parse_single (Token.tokenize_display hkind htrim hmark) htakes

/-- A literal in a placeholder, written out, renders as the text between its quotes. -/
theorem Template.parse_placeholder (hquote : q = '"' ∨ q = '\'')
    (hmark : ¬ ['}', '}'] <:+: s.toList) :
    ∃ t, parse strict (Token.display ⟨.placeholder, quoteWith q s⟩) = .ok t ∧
      ∀ env c, t.result env c = .ok s := by
  have hne : '}' ≠ q := by rcases hquote with rfl | rfl <;> decide
  have hclosing : ¬ ['}', '}'] <:+: (quoteWith q s).toList := by
    rwa [pair_infix_quoteWith_iff hne hne]
  refine ⟨_, parse_trimmed (trim_quoteWith hquote) hclosing, fun env c => ?_⟩
  rw [result, renderResult_placeholder,
    Expression.outputText_of_resolve? (resolve?_quoteWith hquote c)]
  rfl

/-- **A quoted literal reaches its node as it is.** A text that holds neither the quote
nor the closing mark of the tag around it is the name that is included, the format of the
date, and the output of the placeholder, to the last blank. -/
theorem quoted_literal_reaches_node (strict : Bool)
    (hquote : q = '"' ∨ q = '\'') (hs : q ∉ s.toList) :
    (¬ ['%', '}'] <:+: s.toList →
      (∃ e, Template.parse strict ("\x7b% include " ++ quoteWith q s ++ " %\x7d") =
          .ok ⟨none, [.inclusion e]⟩ ∧ ∀ c, e.resolve? c = some (.string s)) ∧
      ∃ e, Template.parse strict ("\x7b% now " ++ quoteWith q s ++ " %\x7d") =
          .ok ⟨none, [.now e]⟩ ∧ ∀ c, e.resolve? c = some (.string s)) ∧
    (¬ ['}', '}'] <:+: s.toList →
      ∃ t, Template.parse strict ("\x7b\x7b " ++ quoteWith q s ++ " \x7d\x7d") = .ok t ∧
        ∀ env c, t.result env c = .ok s) := by
  have hinclude : "\x7b% include " ++ quoteWith q s ++ " %\x7d" =
      (literalDirective "include" q s).display := by
    simp [literalDirective, display, displayChars, block, Kind.marks, String.ext_iff]
  have hnow : "\x7b% now " ++ quoteWith q s ++ " %\x7d" =
      (literalDirective "now" q s).display := by
    simp [literalDirective, display, displayChars, block, Kind.marks, String.ext_iff]
  have hplaceholder : "\x7b\x7b " ++ quoteWith q s ++ " \x7d\x7d" =
      Token.display ⟨.placeholder, quoteWith q s⟩ := by
    simp [display, displayChars, Kind.marks, String.ext_iff]
  have hresolve := resolve?_quoteWith (s := s) hquote
  rw [hinclude, hnow, hplaceholder]
  refine ⟨fun hmark => ⟨⟨_, ?_, hresolve⟩, _, ?_, hresolve⟩, fun hmark => ?_⟩
  · exact Template.parse_directive plainName_include hquote hs hmark fun _ => takes_inclusion
  · exact Template.parse_directive plainName_now hquote hs hmark fun _ => takes_now
  · exact Template.parse_placeholder hquote hmark

/-- A text with blanks at its ends, a dot, the other quote, an opening mark and a part of
either closing mark. -/
def awkwardText : String := "\x7d it's \x7b\x7b a.b % "

theorem quoted_awkwardText_reaches_node :
    '"' ∉ awkwardText.toList ∧ ¬ ['%', '}'] <:+: awkwardText.toList ∧
      ¬ ['}', '}'] <:+: awkwardText.toList ∧
      (∃ e, Template.parse true ("\x7b% include " ++ quoteWith '"' awkwardText ++ " %\x7d") =
          .ok ⟨none, [.inclusion e]⟩ ∧ ∀ c, e.resolve? c = some (.string awkwardText)) ∧
      (∃ e, Template.parse true ("\x7b% now " ++ quoteWith '"' awkwardText ++ " %\x7d") =
          .ok ⟨none, [.now e]⟩ ∧ ∀ c, e.resolve? c = some (.string awkwardText)) ∧
      ∃ t, Template.parse true ("\x7b\x7b " ++ quoteWith '"' awkwardText ++ " \x7d\x7d") =
          .ok t ∧ ∀ env c, t.result env c = .ok awkwardText := by
  have hquote : '"' ∉ awkwardText.toList := by decide +kernel
  have hmark : ¬ ['%', '}'] <:+: awkwardText.toList := by decide +kernel
  have hmark' : ¬ ['}', '}'] <:+: awkwardText.toList := by decide +kernel
  obtain ⟨hdirectives, hplaceholder⟩ :=
    quoted_literal_reaches_node true (.inl rfl) hquote
  exact ⟨hquote, hmark, hmark', (hdirectives hmark).1, (hdirectives hmark).2,
    hplaceholder hmark'⟩

end Templates

end Templating
