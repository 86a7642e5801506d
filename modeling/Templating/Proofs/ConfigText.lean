import Templating.Config
import Templating.Proofs.TomlStrings

/-!
# The text of a configuration

The text of a configuration has two sections with one pair each.  It is read line by
line into the table that it was written from, and the table gives the configuration
back, with every search directory as it was.

Main definition: `Config.table`.  Main statements: `Config.read?_text`,
`Config.ofTable?_table` and `Config.ofText?_text`.
-/

namespace Templating

open Toml

section Arrays

namespace Toml

/-- A written string is read as an item, and does not look like the end of an array. -/
theorem writeString_item (depth : Nat) (s : String) (rest : List Char)
    (hdouble : rest.head? ≠ some '"') (hsingle : rest.head? ≠ some '\'') :
    ∃ quote text, writeString s.toList ++ rest = quote :: text ∧ quote ≠ ']' ∧
      skipGap false (quote :: text) = some (quote :: text) ∧
      readItem depth (quote :: text) = some (.string s, rest) := by
  have hread := readQuoted_writeString s.toList hdouble hsingle
  obtain ⟨quote, text, htext, hquote⟩ := writeString_eq_cons s.toList
  rw [htext, List.cons_append] at hread ⊢
  refine ⟨quote, text ++ rest, rfl, ?_⟩
  rcases hquote with rfl | rfl
  · refine ⟨by decide, rfl, ?_⟩
    cases depth <;> simp [readItem, hread]
  · refine ⟨by decide, rfl, ?_⟩
    cases depth <;> simp [readItem, hread]

theorem readList_cons {α : Type} {one : Read α} {close c : Char} {fuel : Nat} {x : α}
    {xs : List α} {cs entry rest rest' : List Char}
    (hgap : skipGap false cs = some (c :: entry)) (hc : c ≠ close) (hclose : close ≠ ',')
    (hone : one (c :: entry) = some (x, ',' :: rest))
    (hrest : readList one close fuel rest = some (xs, rest')) :
    readList one close (fuel + 1) cs = some (x :: xs, rest') := by
  have hcomma : skipGap false (',' :: rest) = some (',' :: rest) := rfl
  simp [readList, hgap, hc, hone, hcomma, hclose.symm, hrest]

theorem readList_last {α : Type} {one : Read α} {close c : Char} {fuel : Nat} {x : α}
    {cs entry rest : List Char}
    (hgap : skipGap false cs = some (c :: entry)) (hc : c ≠ close)
    (hone : one (c :: entry) = some (x, close :: rest))
    (hclose : skipGap false (close :: rest) = some (close :: rest)) :
    readList one close (fuel + 1) cs = some ([x], rest) := by
  simp [readList, hgap, hc, hone, hclose]

/-- The items of an array are told apart by the blanks in front of them and the commas
behind them. -/
theorem readList_strings (depth : Nat) (strings : List String) (rest : List Char)
    {fuel : Nat} (hfuel : strings.length < fuel) :
    readList (readItem depth) ']' fuel
        ('\n' :: (strings.flatMap (fun s =>
          List.replicate 4 ' ' ++ (writeString s.toList ++ [',', '\n'])) ++ ']' :: rest)) =
      some (strings.map .string, rest) := by
  obtain ⟨fuel, rfl⟩ : ∃ n, fuel = n + 1 := ⟨fuel - 1, by omega⟩
  induction strings generalizing fuel with
  | nil => rfl
  | cons s strings ih =>
      obtain ⟨fuel, rfl⟩ : ∃ n, fuel = n + 1 := ⟨fuel - 1, by simp at hfuel; omega⟩
      have hrest := ih fuel (by simpa using hfuel)
      simp only [List.flatMap_cons, List.append_assoc, List.cons_append, List.nil_append,
        List.map_cons]
      generalize '\n' :: (List.flatMap _ strings ++ ']' :: rest) = more at hrest ⊢
      obtain ⟨quote, text, htext, hclose, hgap, hitem⟩ :=
        writeString_item depth s (',' :: more) (by simp) (by simp)
      rw [htext]
      exact readList_cons hgap hclose (by decide) hitem hrest

theorem length_le_length_flatMap {α β : Type} (xs : List α) {f : α → List β}
    (hf : ∀ x, f x ≠ []) : xs.length ≤ (xs.flatMap f).length := by
  induction xs with
  | nil => exact Nat.zero_le _
  | cons x xs ih =>
      have hx := List.length_pos_iff.2 (hf x)
      rw [List.flatMap_cons, List.length_cons, List.length_append]
      omega

theorem readItem_bracket (depth : Nat) (text : List Char) :
    readItem (depth + 1) ('[' :: text) =
      (readList (readItem depth) ']' (text.length + 1) text).map
        (Prod.map .array id) :=
  rfl

/-- An array of strings is read back, whether it is on one line or not. -/
theorem readItem_dirsText (depth : Nat) (dirs : List String) (rest : List Char) :
    readItem (depth + 1) (Config.dirsText dirs ++ rest) =
      some (.array (dirs.map .string), rest) := by
  match dirs with
  | [] => rfl
  | [dir] =>
      obtain ⟨quote, text, htext, hclose, hgap, hitem⟩ :=
        writeString_item depth dir (']' :: rest) (by simp) (by simp)
      simp only [Config.dirsText, List.cons_append, List.append_assoc, List.nil_append,
        htext, readItem_bracket]
      rw [readList_last hgap hclose hitem rfl]
      rfl
  | dir :: dir' :: dirs =>
      simp only [Config.dirsText, List.cons_append, List.append_assoc, List.nil_append,
        readItem_bracket]
      rw [readList_strings]
      · rfl
      · have hlength := length_le_length_flatMap (dir :: dir' :: dirs)
          (f := fun s => List.replicate 4 ' ' ++ (writeString s.toList ++ [',', '\n']))
          (by simp)
        simp only [List.length_cons, List.length_append] at hlength ⊢
        omega

end Toml

end Arrays

section Lines

namespace Toml

variable {cs entry value rest rest' : List Char}

theorem readEntry_pair {key : Key} {item : Item} (hcs : cs.head? ≠ some '[')
    (hkey : readKey cs = some (key, '=' :: ' ' :: value))
    (hvalue : skipSpaces value = value)
    (hitem : readItem maxDepth value = some (item, rest)) :
    readEntry cs = some (.pair ⟨key, item⟩, rest) := by
  have hpair : readPair (some ∘ skipSpaces) (readItem maxDepth) cs =
      some (⟨key, item⟩, rest) := by
    have hequals : skipSpaces ('=' :: ' ' :: value) = '=' :: ' ' :: value := rfl
    have hblank : skipSpaces (' ' :: value) = skipSpaces value := rfl
    simp [readPair, hkey, hequals, hblank, hvalue, hitem]
  match cs with
  | [] => simp [readEntry, hpair]
  | c :: cs =>
      have hc : c ≠ '[' := by simpa using hcs
      simp [readEntry, hc, hpair]

theorem readLines_cons {fuel : Nat} {c : Char} {line : Line} {lines : List Line}
    (hgap : skipGap false cs = some (c :: entry))
    (hentry : readEntry (c :: entry) = some (line, rest))
    (hline : skipLine false rest = some rest')
    (hlines : readLines fuel rest' = some lines) :
    readLines (fuel + 1) cs = some (line :: lines) := by
  simp [readLines, hgap, hentry, hline, hlines]

end Toml

end Lines

section Config

namespace Config

/-- What the text of a configuration says. -/
def table (c : Config) : Table :=
  [("loader", .table [("template_dirs", .array (c.dirs.map .string))]),
    ("parser", .table [("strict_tags", .bool c.strict)])]

/-- The lines of the text of a configuration. -/
def lines (c : Config) : List Line :=
  [.header ⟨⟨[], "parser"⟩, false⟩,
    .pair ⟨⟨[], "strict_tags"⟩, .bool c.strict⟩,
    .header ⟨⟨[], "loader"⟩, false⟩,
    .pair ⟨⟨[], "template_dirs"⟩, .array (c.dirs.map .string)⟩]

theorem toList_text (c : Config) :
    c.text.toList =
      "[parser]".toList ++ '\n' :: ("strict_tags = ".toList ++
        (if c.strict then "true" else "false").toList ++ '\n' :: '\n' ::
          ("[loader]".toList ++ '\n' :: ("template_dirs = ".toList ++
            (dirsText c.dirs ++ ['\n'])))) := by
  -- rewriting with `text` itself would evaluate its literals
  delta text
  simp only [String.toList_append, String.toList_ofList]
  cases c.strict
  · rfl
  · rfl

theorem dirsText_eq_cons (dirs : List String) :
    ∃ text, dirsText dirs = '[' :: text := by
  match dirs with
  | [] => exact ⟨_, rfl⟩
  | [_] => exact ⟨_, rfl⟩
  | _ :: _ :: _ => exact ⟨_, rfl⟩

theorem readLines_text (c : Config) (fuel : Nat) :
    readLines (fuel + 5) c.text.toList = some c.lines := by
  have hdirs : readEntry ("template_dirs = ".toList ++ (dirsText c.dirs ++ ['\n'])) =
      some (.pair ⟨⟨[], "template_dirs"⟩, .array (c.dirs.map .string)⟩, ['\n']) := by
    have hitem := readItem_dirsText (maxDepth - 1) c.dirs ['\n']
    obtain ⟨text, htext⟩ := dirsText_eq_cons c.dirs
    rw [htext] at hitem ⊢
    exact readEntry_pair (by simp) rfl rfl hitem
  have hstrict (rest : List Char) : readEntry ("strict_tags = ".toList ++
        (if c.strict then "true" else "false").toList ++ '\n' :: rest) =
      some (.pair ⟨⟨[], "strict_tags"⟩, .bool c.strict⟩, '\n' :: rest) := by
    cases c.strict
    · rfl
    · rfl
  rw [toList_text]
  refine readLines_cons rfl rfl rfl ?_
  refine readLines_cons rfl (hstrict _) rfl ?_
  refine readLines_cons rfl rfl rfl ?_
  refine readLines_cons rfl hdirs rfl ?_
  rfl

/-- The text of a configuration is read into the table it was written from. -/
theorem read?_text (c : Config) : read? c.text = some c.table := by
  -- Four characters are enough to see the fuel for four lines and the end.
  obtain ⟨text, htext⟩ : ∃ text, c.text.toList = '[' :: 'p' :: 'a' :: 'r' :: text :=
    ⟨_, toList_text c⟩
  have hlines := readLines_text c text.length
  have hsections : Table.ofSections? (sectionsOf none c.lines) = some c.table := rfl
  rw [htext] at hlines
  rw [read?, htext]
  change (readLines (text.length + 5) ('[' :: 'p' :: 'a' :: 'r' :: text)).bind _ = _
  rw [hlines, Option.bind_some, hsections]

theorem strings?_map (strings : List String) :
    strings? (.array (strings.map .string)) = some strings := by
  induction strings with
  | nil => rfl
  | cons s strings ih =>
      simp only [strings?, List.map_cons, List.mapM_cons] at ih ⊢
      rw [ih]
      rfl

/-- The table of a configuration gives the configuration back. -/
theorem ofTable?_table (c : Config) : ofTable? c.table = some c := by
  have hothers : othersSkippable ["parser", "loader"] c.table = true := rfl
  have hstrict : field? "parser" parserSection? false c.table = some c.strict := rfl
  have hdirs : field? "loader" loaderSection? [] c.table = some c.dirs :=
    strings?_map c.dirs
  simp [ofTable?, hothers, hstrict, hdirs]

/-- **A configuration is read back from its text**, whatever characters there are in its
search directories and however many of them there are. -/
theorem ofText?_text (c : Config) : ofText? c.text = some c := by
  rw [ofText?, read?_text, Option.bind_some, ofTable?_table]

end Config

end Config

end Templating
