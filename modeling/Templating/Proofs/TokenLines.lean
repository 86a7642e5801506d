import Templating.Listing
import Templating.Proofs.QuotedTexts
import Templating.Text.Split

/-!
# The lines of a token listing

A listing shows its tokens one by one.  A token is shown by its kind, in a column of a fixed
width, and by its payload in quotes.  A line feed ends what is shown, and there is none inside
it, so that the lines of the text are those of the tokens.  The column tells the kind, and what
stands behind the column tells the payload; the line for an empty listing has no quotes and is
not that of any token.

Main statement: `Listing.text_unambiguous`.
-/

namespace Templating

open Text

namespace Listing

section Columns

/-- The column of a kind. -/
def kindColumn (k : Kind) : List Char :=
  aligned .left kindWidth none k.name.toList

/-- What a line shows of a token, without its end. -/
def shown (t : Token) : List Char :=
  kindColumn t.kind ++ quotedChars t.payload.toList

theorem length_kindColumn (k : Kind) : (kindColumn k).length = kindWidth := by
  cases k <;> rfl

/-- The name of a kind ends at the first space of its column. -/
theorem ofName?_kindColumn (k : Kind) :
    Kind.ofName? (String.ofList ((kindColumn k).takeWhile (· ≠ ' '))) = some k := by
  cases k <;> rfl

/-- **What is shown of a token tells the token.** -/
theorem shown_injective : Function.Injective shown := by
  rintro ⟨kind, payload⟩ ⟨kind', payload'⟩ h
  obtain ⟨hcolumn, hquoted⟩ :
      kindColumn kind = kindColumn kind' ∧
        quotedChars payload.toList = quotedChars payload'.toList :=
    List.append_inj h (by rw [length_kindColumn, length_kindColumn])
  have hkind : kind = kind' := by
    have hname := ofName?_kindColumn kind
    rw [hcolumn, ofName?_kindColumn] at hname
    exact (Option.some.inj hname).symm
  have hpayload : payload = payload' := String.toList_injective (quotedChars_injective hquoted)
  rw [hkind, hpayload]

theorem lineFeed_not_mem_shown (t : Token) : '\n' ∉ shown t := by
  have hcolumn (k : Kind) : '\n' ∉ kindColumn k := by
    cases k <;> decide
  exact List.not_mem_append (hcolumn t.kind) (lineFeed_not_mem_quotedChars t.payload.toList)

theorem quote_mem_shown (t : Token) : '"' ∈ shown t :=
  List.mem_append_right _ List.mem_cons_self

end Columns

section Lines

/-- The lines of a listing, without their ends. -/
def lines : List Token → List (List Char)
  | [] => ["No tokens.".toList]
  | t :: ts => (t :: ts).map shown

/-- The text of a listing is its lines, each with a line feed behind it. -/
theorem toList_text (listing : Listing) :
    listing.text.toList = (lines listing.tokens).flatMap (· ++ ['\n']) := by
  obtain ⟨template, tokens⟩ := listing
  cases tokens with
  | nil =>
      have hempty : "No tokens.\n".toList = ["No tokens.".toList].flatMap (· ++ ['\n']) := by
        decide
      exact hempty
  | cons t ts =>
      have hlines :
          (t :: ts).flatMap line = ((t :: ts).map shown).flatMap (· ++ ['\n']) := by
        rw [List.flatMap_map]
        rfl
      rw [text, String.toList_ofList, hlines, lines]

theorem lineFeed_not_mem_line {tokens : List Token} {cs : List Char}
    (h : cs ∈ lines tokens) : '\n' ∉ cs := by
  cases tokens with
  | nil =>
      obtain rfl := List.mem_singleton.1 h
      decide
  | cons t ts =>
      obtain ⟨u, -, rfl⟩ := List.mem_map.1 h
      exact lineFeed_not_mem_shown u

/-- The text of a listing, cut at the line feeds. -/
theorem splitAt_text (listing : Listing) :
    splitAt '\n' listing.text.toList = lines listing.tokens ++ [[]] := by
  rw [toList_text, splitAt_ended fun _ => lineFeed_not_mem_line]

/-- **The lines tell the tokens.**  No token is shown by the line for an empty listing, which
has no quotes. -/
theorem lines_injective : Function.Injective lines := by
  have hquotes (t : Token) : shown t ≠ "No tokens.".toList := by
    intro h
    exact absurd (h ▸ quote_mem_shown t) (by decide)
  rintro (_ | ⟨t, ts⟩) (_ | ⟨u, us⟩) h
  · rfl
  · exact absurd (List.cons.inj h).1.symm (hquotes u)
  · exact absurd (List.cons.inj h).1 (hquotes t)
  · exact (List.map_inj_right fun _ _ hshown => shown_injective hshown).1 h

end Lines

section Text

/-- **A listing is unambiguous.**  Two listings have the same text exactly when they have the
same tokens.  The text for at least one token is a line for each token, in their order: what is
shown of the token, and a line feed, which is the only one of the line. -/
theorem text_unambiguous :
    (∀ listing other : Listing,
      listing.text = other.text ↔ listing.tokens = other.tokens) ∧
    ∀ listing : Listing, listing.tokens ≠ [] →
      listing.text.toList = (listing.tokens.map shown).flatMap (· ++ ['\n']) ∧
      ∀ t ∈ listing.tokens, '\n' ∉ shown t := by
  refine ⟨fun listing other => ⟨fun h => ?_, fun h => ?_⟩, fun listing h => ⟨?_, ?_⟩⟩
  · have hlines : lines listing.tokens ++ [[]] = lines other.tokens ++ [[]] := by
      rw [← splitAt_text, h, splitAt_text]
    exact lines_injective (List.append_cancel_right hlines)
  · rw [text, text, h]
  · obtain ⟨t, ts, htokens⟩ := List.exists_cons_of_ne_nil h
    rw [toList_text, htokens, lines]
  · exact fun t _ => lineFeed_not_mem_shown t

/-- Payloads that look like the quoted forms of each other. -/
def lookalikes : Listing :=
  ⟨"page.html", [.text "a\n", .text "a\\n", .block "\"\u0301\"", .text "\\u0301"]⟩

theorem text_lookalikes :
    lookalikes.tokens ≠ [] ∧
    lookalikes.text.toList =
      ["text     \"a\\n\"\n",
       "text     \"a\\\\n\"\n",
       "block    \"\\\"\\u\x7b301\x7d\\\"\"\n",
       "text     \"\\\\u0301\"\n"].flatMap String.toList ∧
    ∀ t ∈ lookalikes.tokens, '\n' ∉ shown t := by
  have h : lookalikes.tokens ≠ [] := by decide
  obtain ⟨htext, hends⟩ := text_unambiguous.2 lookalikes h
  exact ⟨h, htext.trans (by decide), hends⟩

end Text

end Listing
end Templating
