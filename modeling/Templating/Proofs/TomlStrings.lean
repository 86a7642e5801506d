import Mathlib.Tactic.IntervalCases
import Mathlib.Tactic.SplitIfs
import Templating.Toml.Quoted
import Templating.Toml.Writer

/-!
# Written strings are read back

A string is written in one of four styles, and the opening quotes tell the reader
which one.  Two things could go wrong in each of them.

**Characters.**  What stands between the quotes must be content.  Between double
quotes each character is either no control character, quote or backslash, or it is
written as an escape.  Between single quotes there are no escapes, so the style is
chosen only for strings without control characters.

**Quotes.**  The string must not end early, and not late.  Between three quotes up to
two more in a row are content, also right before the closing ones.  Both readers are
therefore followed with the number of quotes that have just been passed: it is the run
that goes on in `longestRun`, and the number that `basicLines` counts.

Main statement: `readQuoted_writeString`.
-/

namespace Templating
namespace Toml

section Characters

theorem codePoint?_upperHex4 :
    ∀ n < 128, (upperHex4 n).length = 4 ∧
      codePoint? (upperHex4 n) = some (Char.ofNat n) := by
  decide +kernel

theorem toNat_lt_of_needsEscape {c : Char} (h : needsEscape c = true) :
    c.toNat < 128 := by
  simp only [needsEscape, Bool.or_eq_true, Bool.and_eq_true, decide_eq_true_eq] at h
  rcases h with ⟨⟨hlt, -⟩, -⟩ | rfl
  · have h32 : c.toNat < 32 := hlt
    omega
  · decide

theorem readEscape_upperHex4 {c : Char} (h : needsEscape c = true) (rest : List Char) :
    readEscape ('u' :: upperHex4 c.toNat ++ rest) = some (c, rest) := by
  obtain ⟨hlength, hcode⟩ := codePoint?_upperHex4 c.toNat (toNat_lt_of_needsEscape h)
  match hdigits : upperHex4 c.toNat, hlength with
  | [d₁, d₂, d₃, d₄], _ =>
      rw [hdigits, Char.ofNat_toNat] at hcode
      simp [readEscape, hcode]

theorem isControl_of_needsEscape {c : Char} (h : needsEscape c = false)
    (hline : c ≠ '\n') : isControl c = false := by
  simp only [needsEscape, isControl] at *
  simp_all

/-- A character between double quotes is either written as it stands, or as an escape
that the reader takes back and that does not join lines. -/
theorem basicChar_cases (c : Char) :
    (basicChar c = [c] ∧ isControl c = false ∧ c ≠ '"' ∧ c ≠ '\\') ∨
      ∃ code, basicChar c = '\\' :: code ∧ ∀ rest,
        endsLine (code ++ rest) = false ∧
          readEscape (code ++ rest) = some (c, rest) := by
  unfold basicChar
  split
  case h_8 hline _ _ hquote hbackslash =>
    by_cases h : needsEscape c = true
    · refine .inr ⟨'u' :: upperHex4 c.toNat, by simp [h], fun rest => ⟨rfl, ?_⟩⟩
      exact readEscape_upperHex4 h rest
    · have h : needsEscape c = false := by simpa using h
      exact .inl ⟨by simp [h], isControl_of_needsEscape h hline, hquote, hbackslash⟩
  all_goals exact .inr ⟨_, rfl, fun rest => ⟨rfl, rfl⟩⟩

theorem basicChar_eq_cons (c : Char) :
    ∃ d code, basicChar c = d :: code ∧ isControl d = false ∧ d ≠ '"' := by
  obtain ⟨heq, hcontrol, hquote, -⟩ | ⟨code, heq, -⟩ := basicChar_cases c
  · exact ⟨c, [], heq, hcontrol, hquote⟩
  · exact ⟨'\\', code, heq, rfl, by decide⟩

end Characters

section OneLine

@[simp] theorem push_some (c : Char) (cs rest : List Char) :
    push c (some (cs, rest)) = some (c :: cs, rest) :=
  rfl

theorem readBasic_basicChar (c : Char) (text : List Char) :
    readBasic (basicChar c ++ text) = push c (readBasic text) := by
  obtain ⟨heq, hcontrol, hquote, hbackslash⟩ | ⟨code, heq, hcode⟩ := basicChar_cases c
  · rw [heq, List.singleton_append, readBasic]
    · simp [hcontrol]
    · exact hquote
    · exact hbackslash
  · rw [heq, List.cons_append, readBasic]
    split
    · next hnone => simp [(hcode text).2] at hnone
    · next hsome =>
        rw [(hcode text).2] at hsome
        cases hsome
        rfl

theorem readBasic_written (cs rest : List Char) :
    readBasic (cs.flatMap basicChar ++ '"' :: rest) = some (cs, rest) := by
  induction cs with
  | nil => simp [readBasic]
  | cons c cs ih =>
      rw [List.flatMap_cons, List.append_assoc, readBasic_basicChar, ih, push_some]

theorem readLiteral_written {cs : List Char} (rest : List Char)
    (h : ∀ c ∈ cs, isControl c = false ∧ c ≠ '\'') :
    readLiteral (cs ++ '\'' :: rest) = some (cs, rest) := by
  induction cs with
  | nil => simp [readLiteral]
  | cons c cs ih =>
      obtain ⟨hcontrol, hquote⟩ := h c List.mem_cons_self
      have hrest := ih fun c hc => h c (List.mem_cons_of_mem _ hc)
      rw [List.cons_append, readLiteral]
      · simp [hcontrol, hrest]
      · exact hquote

end OneLine

section Lines

variable {quotes : Nat} {c : Char} {cs text rest : List Char}

/-- Up to two quotes before the closing ones belong to the string. -/
theorem closing_replicate {quote : Char} (hquotes : quotes ≤ 2)
    (hrest : rest.head? ≠ some quote) :
    closing quote (List.replicate quotes quote ++ rest) =
      (List.replicate quotes quote, rest) := by
  cases rest with
  | nil => interval_cases quotes <;> simp [closing, List.replicate]
  | cons c rest =>
      have hc : c ≠ quote := by simpa using hrest
      interval_cases quotes
      · cases rest <;> simp [closing, hc]
      · simp [closing, hc, List.replicate]
      · simp [closing, List.replicate]

theorem replicate_append_three (hquotes : quotes ≤ 2) (quote : Char) :
    List.replicate quotes quote ++ quote :: quote :: quote :: rest =
      quote :: quote :: quote :: (List.replicate quotes quote ++ rest) := by
  interval_cases quotes <;> rfl

/-- A reader that stops at three quotes takes up to two of them as content in front of
something else. -/
theorem read_quotes {read : Read (List Char)} {quote : Char}
    (hquote : ∀ text, (∀ more, text ≠ quote :: quote :: more) →
      read (quote :: text) = push quote (read text))
    (hquotes : quotes ≤ 2) (hc : c ≠ quote)
    (hread : read (c :: text) = some (cs, rest)) :
    read (List.replicate quotes quote ++ c :: text) =
      some (List.replicate quotes quote ++ cs, rest) := by
  have hone : read (quote :: c :: text) = some (quote :: cs, rest) := by
    rw [hquote _ (by simp [hc]), hread, push_some]
  interval_cases quotes
  · exact hread
  · exact hone
  · have htwo := hquote (quote :: c :: text) (by simp [hc])
    rwa [hone, push_some] at htwo

theorem readBasicLines_quote (text : List Char) (h : ∀ more, text ≠ '"' :: '"' :: more) :
    readBasicLines false ('"' :: text) = push '"' (readBasicLines false text) := by
  rw [readBasicLines]
  · rfl
  all_goals simp [h]

theorem readLiteralLines_quote (text : List Char)
    (h : ∀ more, text ≠ '\'' :: '\'' :: more) :
    readLiteralLines ('\'' :: text) = push '\'' (readLiteralLines text) := by
  rw [readLiteralLines]
  · rfl
  all_goals simp [h]

theorem ne_lineEnd_of_not_isControl (h : isControl c = false) :
    c ≠ '\n' ∧ c ≠ '\r' := by
  constructor
  · rintro rfl
    cases h
  · rintro rfl
    cases h

/-- What a character is written as starts with no quote. -/
theorem readBasicLines_basicChar (c : Char)
    (hread : readBasicLines false text = some (cs, rest)) :
    ∃ d tail, basicChar c ++ text = d :: tail ∧ d ≠ '"' ∧
      readBasicLines false (d :: tail) = some (c :: cs, rest) := by
  obtain ⟨heq, hcontrol, hquote, hbackslash⟩ | ⟨code, heq, hcode⟩ := basicChar_cases c
  · obtain ⟨hfeed, hreturn⟩ := ne_lineEnd_of_not_isControl hcontrol
    refine ⟨c, text, by rw [heq, List.singleton_append], hquote, ?_⟩
    rw [readBasicLines]
    · simp [hcontrol, hread]
    all_goals simp [hfeed, hreturn, hquote, hbackslash]
  · obtain ⟨hline, hescape⟩ := hcode text
    refine ⟨'\\', code ++ text, by rw [heq, List.cons_append], by decide, ?_⟩
    rw [readBasicLines, if_neg (by simp [hline])]
    split
    · next hnone => simp [hescape] at hnone
    · next hsome =>
        rw [hescape] at hsome
        cases hsome
        rw [hread, push_some]

/-- The quotes that have been passed go on in the string, up to the closing ones. -/
theorem readBasicLines_written (cs : List Char) (hquotes : quotes ≤ 2)
    (hrest : rest.head? ≠ some '"') :
    readBasicLines false (List.replicate quotes '"' ++ basicLines quotes cs ++
        '"' :: '"' :: '"' :: rest) =
      some (List.replicate quotes '"' ++ cs, rest) := by
  induction cs generalizing quotes with
  | nil =>
      rw [basicLines, List.append_nil, replicate_append_three hquotes, readBasicLines,
        closing_replicate hquotes hrest]
  | cons c cs ih =>
      have hread : readBasicLines false (basicLines 0 cs ++ '"' :: '"' :: '"' :: rest) =
          some (cs, rest) := by
        simpa using ih (Nat.zero_le 2)
      have hchar : readBasicLines false (List.replicate quotes '"' ++
          (basicChar c ++ (basicLines 0 cs ++ '"' :: '"' :: '"' :: rest))) =
            some (List.replicate quotes '"' ++ c :: cs, rest) := by
        obtain ⟨d, tail, hd, hne, hsome⟩ := readBasicLines_basicChar c hread
        rw [hd]
        exact read_quotes readBasicLines_quote hquotes hne hsome
      by_cases hfeed : c = '\n'
      · subst hfeed
        rw [basicLines, List.append_assoc, List.cons_append]
        refine read_quotes readBasicLines_quote hquotes (by decide) ?_
        rw [readBasicLines, hread]
        rfl
      · by_cases hquote : c = '"'
        · subst hquote
          rw [basicLines]
          split_ifs with hlt
          · have hlt : quotes + 1 ≤ 2 := hlt
            simpa [List.replicate_succ'] using ih hlt
          · rw [List.append_assoc]
            exact hchar
        · rw [basicLines, List.append_assoc, List.append_assoc]
          · exact hchar
          · exact hfeed
          · exact hquote

theorem readLiteralLines_written (hescape : cs.any needsEscape = false)
    (hquotes : longestRun '\'' quotes cs ≤ 2) (hrest : rest.head? ≠ some '\'') :
    readLiteralLines (List.replicate quotes '\'' ++ cs ++
        '\'' :: '\'' :: '\'' :: rest) =
      some (List.replicate quotes '\'' ++ cs, rest) := by
  induction cs generalizing quotes with
  | nil =>
      rw [longestRun] at hquotes
      rw [List.append_nil, replicate_append_three hquotes, readLiteralLines,
        closing_replicate hquotes hrest]
  | cons c cs ih =>
      obtain ⟨hc, hcs⟩ : needsEscape c = false ∧ cs.any needsEscape = false := by
        simpa using hescape
      rw [longestRun] at hquotes
      split_ifs at hquotes with hquote
      · subst hquote
        simpa [List.replicate_succ'] using ih hcs hquotes
      · obtain ⟨hbefore, hbehind⟩ := max_le_iff.1 hquotes
        have hread := ih hcs hbehind
        rw [List.append_assoc, List.cons_append]
        refine read_quotes readLiteralLines_quote hbefore hquote ?_
        by_cases hfeed : c = '\n'
        · subst hfeed
          rw [readLiteralLines]
          simpa using congrArg (push '\n') hread
        · have hcontrol := isControl_of_needsEscape hc hfeed
          obtain ⟨-, hreturn⟩ := ne_lineEnd_of_not_isControl hcontrol
          rw [readLiteralLines, if_neg (by simp [hcontrol])]
          · simpa using congrArg (push c) hread
          all_goals simp [hfeed, hreturn, hquote]

end Lines

section Opening

variable {cs rest : List Char}

theorem dropLineEnd_eq_self {text : List Char}
    (h : ∀ c, text.head? = some c → isControl c = false) : dropLineEnd text = text := by
  match text with
  | [] => rfl
  | c :: text =>
      obtain ⟨hfeed, hreturn⟩ := ne_lineEnd_of_not_isControl (h c rfl)
      rw [dropLineEnd]
      all_goals simp [hfeed, hreturn]

/-- The line feed behind the opening quotes is there to be dropped, and the text that
follows it starts with a line end only if it is. -/
theorem dropLineEnd_openingLineFeed {text : List Char}
    (h : '\n' ∉ cs → ∀ c, text.head? = some c → isControl c = false) :
    dropLineEnd (openingLineFeed cs ++ text) = text := by
  unfold openingLineFeed
  split_ifs with hfeed
  · rfl
  · exact dropLineEnd_eq_self (h (by simpa using hfeed))

theorem isControl_head_basicLines (hfeed : '\n' ∉ cs) {c : Char}
    (hhead : (basicLines 0 cs ++ '"' :: rest).head? = some c) : isControl c = false := by
  match cs with
  | [] =>
      obtain rfl : '"' = c := by simpa [basicLines] using hhead
      rfl
  | d :: cs =>
      by_cases hquote : d = '"'
      · subst hquote
        obtain rfl : '"' = c := by simpa [basicLines] using hhead
        rfl
      · obtain ⟨e, code, hcode, hcontrol, -⟩ := basicChar_eq_cons d
        rw [basicLines] at hhead
        · obtain rfl : e = c := by simpa [hcode] using hhead
          exact hcontrol
        · exact fun h => hfeed (h ▸ List.mem_cons_self)
        · exact hquote

theorem isControl_head_append (hescape : cs.any needsEscape = false) (hfeed : '\n' ∉ cs)
    {c : Char} (hhead : (cs ++ '\'' :: rest).head? = some c) : isControl c = false := by
  cases cs with
  | nil =>
      obtain rfl : '\'' = c := by simpa using hhead
      rfl
  | cons d cs =>
      obtain rfl : d = c := by simpa using hhead
      refine isControl_of_needsEscape ?_ (fun h => hfeed (h ▸ List.mem_cons_self))
      simpa using List.any_eq_false.1 hescape d List.mem_cons_self

end Opening

section Styles

variable {cs rest : List Char}

theorem le_longestRun (q : Char) (run : Nat) (cs : List Char) :
    run ≤ longestRun q run cs := by
  induction cs generalizing run with
  | nil => exact le_rfl
  | cons c cs ih =>
      rw [longestRun]
      split_ifs
      · exact (Nat.le_succ run).trans (ih (run + 1))
      · exact le_max_left _ _

theorem not_mem_of_longestRun_eq_zero {q : Char} {run : Nat}
    (h : longestRun q run cs = 0) : q ∉ cs := by
  induction cs generalizing run with
  | nil => exact List.not_mem_nil
  | cons c cs ih =>
      rw [longestRun] at h
      split_ifs at h with hc
      · have hle := le_longestRun q (run + 1) cs
        omega
      · have hzero : longestRun q 0 cs = 0 := by omega
        rw [List.mem_cons, not_or]
        exact ⟨Ne.symm hc, ih hzero⟩

theorem of_choose_eq_literal (h : Style.choose (.ofChars cs) = .literal) :
    ∀ c ∈ cs, isControl c = false ∧ c ≠ '\'' := by
  have hfeatures : cs.any needsEscape = false ∧ longestRun '\'' 0 cs = 0 ∧ '\n' ∉ cs := by
    unfold Style.choose at h
    split_ifs at h with _ hliteral
    simpa [Features.ofChars, and_assoc] using hliteral
  obtain ⟨hescape, hquotes, hfeed⟩ := hfeatures
  intro c hc
  constructor
  · refine isControl_of_needsEscape ?_ (fun h => hfeed (h ▸ hc))
    simpa using List.any_eq_false.1 hescape c hc
  · exact fun h => not_mem_of_longestRun_eq_zero hquotes (h ▸ hc)

theorem of_choose_eq_literalLines (h : Style.choose (.ofChars cs) = .literalLines) :
    cs.any needsEscape = false ∧ longestRun '\'' 0 cs ≤ 2 := by
  unfold Style.choose at h
  split_ifs at h with _ _ _ hlines
  simpa [Features.ofChars] using hlines

end Styles

section Strings

variable {rest : List Char}

/-- A string on one line does not look as if it were opened by three quotes. -/
theorem append_quote_ne {quote : Char} {body : List Char}
    (hbody : body.head? ≠ some quote) (hrest : rest.head? ≠ some quote)
    (text : List Char) : body ++ quote :: rest ≠ quote :: quote :: text := by
  intro h
  cases body with
  | nil =>
      cases h
      exact hrest rfl
  | cons c body => exact hbody (congrArg List.head? h)

/-- A written string is read back, whatever characters it holds, in front of
everything but another quote. -/
theorem readQuoted_writeString (cs : List Char)
    (hdouble : rest.head? ≠ some '"') (hsingle : rest.head? ≠ some '\'') :
    readQuoted (writeString cs ++ rest) = some (cs, rest) := by
  unfold writeString
  cases hstyle : Style.choose (.ofChars cs) with
  | basic =>
      have hhead : (cs.flatMap basicChar).head? ≠ some '"' := by
        cases cs with
        | nil => simp
        | cons c cs =>
            obtain ⟨d, code, hcode, -, hne⟩ := basicChar_eq_cons c
            simpa [hcode] using hne
      simp only [writeAs, List.append_assoc, List.cons_append, List.nil_append]
      rw [readQuoted, readBasic_written]
      exact append_quote_ne hhead hdouble
  | literal =>
      have hplain := of_choose_eq_literal hstyle
      have hhead : cs.head? ≠ some '\'' := fun h =>
        (hplain _ (List.mem_of_head? h)).2 rfl
      simp only [writeAs, List.append_assoc, List.cons_append, List.nil_append]
      rw [readQuoted, readLiteral_written rest hplain]
      exact append_quote_ne hhead hsingle
  | basicLines =>
      have hread := readBasicLines_written cs (Nat.zero_le 2) hdouble
      simp only [writeAs, List.append_assoc, List.cons_append, List.nil_append]
      rw [readQuoted, dropLineEnd_openingLineFeed]
      · exact hread
      · exact fun hfeed c => isControl_head_basicLines hfeed
  | literalLines =>
      obtain ⟨hescape, hquotes⟩ := of_choose_eq_literalLines hstyle
      have hread := readLiteralLines_written hescape hquotes hsingle
      simp only [writeAs, List.append_assoc, List.cons_append, List.nil_append]
      rw [readQuoted, dropLineEnd_openingLineFeed]
      · exact hread
      · exact fun hfeed c => isControl_head_append hescape hfeed

/-- The opening quote of a written string. -/
theorem writeString_eq_cons (cs : List Char) :
    ∃ quote text, writeString cs = quote :: text ∧ (quote = '"' ∨ quote = '\'') := by
  unfold writeString
  cases Style.choose (.ofChars cs) with
  | basic => exact ⟨_, _, rfl, .inl rfl⟩
  | literal => exact ⟨_, _, rfl, .inr rfl⟩
  | basicLines => exact ⟨_, _, rfl, .inl rfl⟩
  | literalLines => exact ⟨_, _, rfl, .inr rfl⟩

end Strings

end Toml
end Templating
