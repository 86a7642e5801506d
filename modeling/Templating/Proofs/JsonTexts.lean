import Templating.Proofs.JsonStrings

/-!
# Values in JSON

A value is written without blanks, or with one item a line.  The two layouts differ in
blanks only, and the reader passes over blanks.  This module shows that both are read back.

**One container.**  What the items of a container are read to gives what the container is
read to, for any blanks in front of the items and in front of the closing bracket
(`Reads.array`, `Reads.object`).

**All values.**  Without numbers, and with containers nested no deeper than the reader goes
(`Readable`), a value is read back from both of its texts, with the fields of its objects in
the order of the names (`Value.sorted`).

Main definitions: `Reads`, `Readable` and `Value.sorted`.  Main statement:
`read?_written`.
-/

namespace Templating

section Defs

namespace Value

mutual

/-- The value with the fields of all objects in the order of their names; of two fields
with one name the last stays. -/
def sorted : Value → Value
  | .null => .null
  | .bool b => .bool b
  | .number n => .number n
  | .string s => .string s
  | .array items => .array (sortedItems items)
  | .object fields => .ofFields (sortedFields fields)

def sortedItems : List Value → List Value
  | [] => []
  | v :: rest => v.sorted :: sortedItems rest

def sortedFields : List (String × Value) → List (String × Value)
  | [] => []
  | (key, v) :: rest => (key, v.sorted) :: sortedFields rest

end

theorem sortedItems_eq_map (items : List Value) :
    sortedItems items = items.map sorted := by
  induction items with
  | nil => rfl
  | cons v rest ih => rw [sortedItems, ih, List.map_cons]

theorem sortedFields_eq_map (fields : List (String × Value)) :
    sortedFields fields = fields.map fun f => (f.1, f.2.sorted) := by
  induction fields with
  | nil => rfl
  | cons f rest ih => rw [sortedFields, ih, List.map_cons]

end Value

namespace Json

/-- Values without numbers, in which containers are nested at most so deep. -/
inductive Readable : Nat → Value → Prop
  | null (depth : Nat) : Readable depth .null
  | bool (depth : Nat) (b : Bool) : Readable depth (.bool b)
  | string (depth : Nat) (s : String) : Readable depth (.string s)
  | array {depth : Nat} {items : List Value} (h : ∀ v ∈ items, Readable depth v) :
      Readable (depth + 1) (.array items)
  | object {depth : Nat} {fields : List (String × Value)}
      (h : ∀ f ∈ fields, Readable depth f.2) : Readable (depth + 1) (.object fields)

/-- The text is read to the value, whatever follows it, and it can stand behind blanks and
behind an opening bracket. -/
structure Reads (depth : Nat) (cs : List Char) (v : Value) : Prop where
  starts : ∃ c rest, cs = c :: rest ∧ isSpace c = false ∧ c ≠ ']'
  read : ∀ rest, readValue depth (cs ++ rest) = some (v, rest)

/-- Texts with commas between them, and then what closes them. -/
def closedBy (close : List Char) : List (List Char) → List Char
  | [] => close
  | [text] => text ++ close
  | text :: rest => text ++ ',' :: closedBy close rest

/-- A text in a container, the blanks in front of it, and what it is read to. -/
structure Item where
  gap : List Char
  text : List Char
  value : Value

namespace Item

/-- The text as an item of an array. -/
def written (i : Item) : List Char :=
  i.gap ++ i.text

/-- The text under a name, with other blanks behind the colon. -/
def named (colonGap : List Char) (key : String) (i : Item) : List Char :=
  i.gap ++ quote key.toList ++ ':' :: (colonGap ++ i.text)

/-- The item is read, and there are only blanks in front of it. -/
structure Fits (depth : Nat) (i : Item) : Prop where
  blank : ∀ c ∈ i.gap, isSpace c = true
  reads : Reads depth i.text i.value

end Item

end Json

end Defs

namespace Json

section Blanks

theorem skipSpace_append {gap : List Char} (h : ∀ c ∈ gap, isSpace c = true)
    (rest : List Char) : skipSpace (gap ++ rest) = skipSpace rest :=
  List.dropWhile_append_of_pos h

theorem skipSpace_cons {c : Char} (h : isSpace c = false) (rest : List Char) :
    skipSpace (c :: rest) = c :: rest := by
  simp [skipSpace, h]

theorem skipSpace_skipSpace (cs : List Char) : skipSpace (skipSpace cs) = skipSpace cs := by
  have hhead := List.head?_dropWhile_not isSpace cs
  cases hcs : skipSpace cs with
  | nil => rfl
  | cons c rest =>
      rw [← skipSpace, hcs] at hhead
      exact skipSpace_cons (by simpa using hhead) rest

/-- Blanks in front of a text that is read. -/
theorem Reads.skipSpace_append {depth : Nat} {gap cs : List Char} {v : Value}
    (h : Reads depth cs v) (hgap : ∀ c ∈ gap, isSpace c = true) (rest : List Char) :
    skipSpace (gap ++ (cs ++ rest)) = cs ++ rest := by
  obtain ⟨c, more, rfl, hc, -⟩ := h.starts
  rw [Json.skipSpace_append hgap, List.cons_append, skipSpace_cons hc]

end Blanks

section Containers

variable {depth fuel : Nat} {gap : List Char}

@[simp] theorem closedBy_nil (close : List Char) : closedBy close [] = close := rfl

@[simp] theorem closedBy_singleton (close text : List Char) :
    closedBy close [text] = text ++ close := rfl

@[simp] theorem closedBy_cons_cons (close text next : List Char)
    (rest : List (List Char)) :
    closedBy close (text :: next :: rest) = text ++ ',' :: closedBy close (next :: rest) :=
  rfl

theorem length_le_closedBy (close : List Char) (c : Char) (texts : List (List Char)) :
    texts.length ≤ (closedBy (close ++ [c]) texts).length := by
  induction texts with
  | nil => exact Nat.zero_le _
  | cons text rest ih =>
      cases rest with
      | nil =>
          simp only [closedBy_singleton, List.length_append, List.length_cons]
          omega
      | cons next rest =>
          simp only [closedBy_cons_cons, List.length_append, List.length_cons] at ih ⊢
          omega

/-- Behind the blanks at its front, a container starts with its first text, and what
follows is long enough for the other texts. -/
theorem exists_skipSpace_closedBy {text : List Char}
    (htext : ∀ rest, skipSpace (gap ++ (text ++ rest)) = text ++ rest) (close : List Char)
    (c : Char) (texts : List (List Char)) (rest : List Char) :
    ∃ behind, skipSpace (closedBy (close ++ [c]) ((gap ++ text) :: texts) ++ rest) =
      text ++ behind ∧ texts.length + 1 ≤ behind.length := by
  cases texts with
  | nil =>
      refine ⟨close ++ [c] ++ rest, ?_, by simp; omega⟩
      rw [closedBy_singleton, List.append_assoc, List.append_assoc, htext]
  | cons next texts =>
      have hlength := length_le_closedBy close c (next :: texts)
      refine ⟨',' :: closedBy (close ++ [c]) (next :: texts) ++ rest, ?_, ?_⟩
      · rw [closedBy_cons_cons, List.append_assoc, List.append_assoc, htext]
      · simp only [List.length_append, List.length_cons, List.cons_append] at hlength ⊢
        omega

/-- An item is read up to what follows it. -/
theorem readItems_written {i : Item} (hi : i.Fits depth) (next : List Char) :
    readItems (readValue depth) (fuel + 1) (i.written ++ next) =
      match skipSpace next with
      | ',' :: rest => do
          let (vs, rest) ← readItems (readValue depth) fuel rest
          some (i.value :: vs, rest)
      | ']' :: rest => some ([i.value], rest)
      | _ => none := by
  have htext := hi.reads.skipSpace_append hi.blank next
  simp only [readItems, Item.written, List.append_assoc, htext, hi.reads.read]
  rfl

/-- Items up to the closing bracket. -/
theorem readItems_closedBy (hgap : ∀ c ∈ gap, isSpace c = true) {items : List Item}
    (hne : items ≠ []) (hitems : ∀ i ∈ items, i.Fits depth) (hfuel : items.length ≤ fuel)
    (rest : List Char) :
    readItems (readValue depth) fuel
        (closedBy (gap ++ [']']) (items.map Item.written) ++ rest) =
      some (items.map Item.value, rest) := by
  induction items generalizing fuel with
  | nil => exact absurd rfl hne
  | cons i tail ih =>
      obtain ⟨hi, htail⟩ := List.forall_mem_cons.1 hitems
      obtain ⟨fuel, rfl⟩ : ∃ n, fuel = n + 1 := ⟨fuel - 1, by simp at hfuel; omega⟩
      cases tail with
      | nil =>
          have hclose : skipSpace (gap ++ [']'] ++ rest) = ']' :: rest := by
            rw [List.append_assoc, skipSpace_append hgap]
            exact skipSpace_cons rfl rest
          simp only [List.map_cons, List.map_nil, closedBy_singleton]
          rw [List.append_assoc, readItems_written hi, hclose]
          rfl
      | cons next tail =>
          have hrest := ih (List.cons_ne_nil next tail) htail (Nat.le_of_succ_le_succ hfuel)
          have hcomma (more : List Char) : skipSpace (',' :: more) = ',' :: more :=
            skipSpace_cons rfl more
          simp only [List.map_cons, closedBy_cons_cons] at hrest ⊢
          rw [List.append_assoc, readItems_written hi, List.cons_append, hcomma]
          simp [hrest]

theorem skipSpace_colon (rest : List Char) : skipSpace (':' :: rest) = ':' :: rest :=
  skipSpace_cons rfl rest

/-- A field starts with the quote of its name. -/
theorem skipSpace_named {i : Item} (hi : i.Fits depth) (colonGap : List Char) (key : String)
    (next : List Char) :
    skipSpace (i.named colonGap key ++ next) =
      '"' :: (key.toList.flatMap escapeChar ++
        '"' :: ':' :: (colonGap ++ (i.text ++ next))) := by
  have hquote (more : List Char) : skipSpace ('"' :: more) = '"' :: more :=
    skipSpace_cons rfl more
  simp [Item.named, quote, skipSpace_append hi.blank, hquote]

section Fields

variable {colonGap : List Char} (hcolon : ∀ c ∈ colonGap, isSpace c = true) {i : Item}
  (hi : i.Fits depth) (key : String) {next rest : List Char}
include hcolon hi

/-- A field in front of a comma is read together with the fields behind it. -/
theorem readFields_named_comma (hnext : skipSpace next = ',' :: rest)
    {fields : List (String × Value)} {more : List Char}
    (hrest : readFields (readValue depth) fuel rest = some (fields, more)) :
    readFields (readValue depth) (fuel + 1) (i.named colonGap key ++ next) =
      some ((key, i.value) :: fields, more) := by
  have hvalue := hi.reads.skipSpace_append hcolon next
  simp only [readFields, skipSpace_named hi, readString_written, skipSpace_colon, hvalue,
    hi.reads.read, hnext, hrest, bind, Option.bind_some, String.ofList_toList]

/-- A field in front of the closing brace is the last one. -/
theorem readFields_named_brace (hnext : skipSpace next = '\x7d' :: rest) :
    readFields (readValue depth) (fuel + 1) (i.named colonGap key ++ next) =
      some ([(key, i.value)], rest) := by
  have hvalue := hi.reads.skipSpace_append hcolon next
  simp only [readFields, skipSpace_named hi, readString_written, skipSpace_colon, hvalue,
    hi.reads.read, hnext, bind, Option.bind_some, String.ofList_toList]

end Fields

/-- Fields up to the closing brace. -/
theorem readFields_closedBy (hgap : ∀ c ∈ gap, isSpace c = true)
    {colonGap : List Char} (hcolon : ∀ c ∈ colonGap, isSpace c = true)
    {fields : List (String × Item)} (hne : fields ≠ [])
    (hfields : ∀ f ∈ fields, f.2.Fits depth) (hfuel : fields.length ≤ fuel)
    (rest : List Char) :
    readFields (readValue depth) fuel
        (closedBy (gap ++ ['\x7d']) (fields.map fun f => f.2.named colonGap f.1) ++ rest) =
      some (fields.map fun f => (f.1, f.2.value), rest) := by
  induction fields generalizing fuel with
  | nil => exact absurd rfl hne
  | cons f tail ih =>
      obtain ⟨hf, htail⟩ := List.forall_mem_cons.1 hfields
      obtain ⟨fuel, rfl⟩ : ∃ n, fuel = n + 1 := ⟨fuel - 1, by simp at hfuel; omega⟩
      cases tail with
      | nil =>
          have hclose : skipSpace (gap ++ ['\x7d'] ++ rest) = '\x7d' :: rest := by
            rw [List.append_assoc, skipSpace_append hgap]
            exact skipSpace_cons rfl rest
          simp only [List.map_cons, List.map_nil, closedBy_singleton]
          rw [List.append_assoc, readFields_named_brace hcolon hf f.1 hclose]
      | cons next tail =>
          have hrest := ih (List.cons_ne_nil next tail) htail (Nat.le_of_succ_le_succ hfuel)
          have hcomma (more : List Char) : skipSpace (',' :: more) = ',' :: more :=
            skipSpace_cons rfl more
          simp only [List.map_cons, closedBy_cons_cons] at hrest ⊢
          rw [List.append_assoc, List.cons_append,
            readFields_named_comma hcolon hf f.1 (hcomma _) hrest]

end Containers

section Values

variable {depth : Nat} {gap : List Char}

theorem reads_null (depth : Nat) : Reads depth (compact .null) .null where
  starts := ⟨_, _, rfl, rfl, by decide⟩
  read rest := by cases depth <;> rfl

theorem reads_bool (depth : Nat) (b : Bool) : Reads depth (compact (.bool b)) (.bool b) where
  starts := by cases b <;> exact ⟨_, _, rfl, rfl, by decide⟩
  read rest := by cases b <;> cases depth <;> rfl

theorem reads_string (depth : Nat) (s : String) :
    Reads depth (compact (.string s)) (.string s) where
  starts := ⟨_, _, rfl, rfl, by decide⟩
  read rest := by
    have hscalar (cs : List Char) : readValue depth ('"' :: cs) = readScalar ('"' :: cs) := by
      cases depth <;> rfl
    have htext : compact (.string s) ++ rest =
        '"' :: (s.toList.flatMap escapeChar ++ '"' :: rest) := by
      simp [compact, quote]
    rw [htext, hscalar, readScalar, readString_written]
    simp

theorem readItems_skipSpace (one : Read Value) (fuel : Nat) (cs : List Char) :
    readItems one fuel (skipSpace cs) = readItems one fuel cs := by
  cases fuel <;> simp [readItems, skipSpace_skipSpace]

theorem readFields_skipSpace (one : Read Value) (fuel : Nat) (cs : List Char) :
    readFields one fuel (skipSpace cs) = readFields one fuel cs := by
  cases fuel <;> simp [readFields, skipSpace_skipSpace]

/-- Behind an opening bracket there are items, unless the closing one follows. -/
theorem readValue_bracket {cs more : List Char} {c : Char} (h : skipSpace cs = c :: more)
    (hc : c ≠ ']') :
    readValue (depth + 1) ('[' :: cs) =
      (readItems (readValue depth) ((skipSpace cs).length + 1) cs).map
        (Prod.map .array id) := by
  rw [← readItems_skipSpace, readValue, h]
  split
  · next heq => exact absurd (List.cons.inj heq).1 hc
  · rfl

/-- Behind an opening brace there are fields, unless the closing one follows. -/
theorem readValue_brace {cs more : List Char} {c : Char} (h : skipSpace cs = c :: more)
    (hc : c ≠ '\x7d') :
    readValue (depth + 1) ('\x7b' :: cs) =
      (readFields (readValue depth) ((skipSpace cs).length + 1) cs).map
        (Prod.map .ofFields id) := by
  rw [← readFields_skipSpace, readValue, h]
  split
  · next heq => exact absurd (List.cons.inj heq).1 hc
  · rfl

/-- **An array is read from its items.** -/
theorem Reads.array (hgap : ∀ c ∈ gap, isSpace c = true) (items : List Item)
    (hne : items ≠ []) (hitems : ∀ i ∈ items, i.Fits depth) :
    Reads (depth + 1) ('[' :: closedBy (gap ++ [']']) (items.map Item.written))
      (.array (items.map Item.value)) where
  starts := ⟨_, _, rfl, rfl, by decide⟩
  read rest := by
    cases items with
    | nil => exact absurd rfl hne
    | cons i tail =>
        have hi := (List.forall_mem_cons.1 hitems).1
        obtain ⟨c, more, hstart, -, hc⟩ := hi.reads.starts
        obtain ⟨behind, hfront, hlength⟩ := exists_skipSpace_closedBy
          (hi.reads.skipSpace_append hi.blank) gap ']' (tail.map Item.written) rest
        rw [List.length_map] at hlength
        have hfuel : (i :: tail).length ≤ (i.text ++ behind).length + 1 := by
          simp only [List.length_append, List.length_cons]
          omega
        have hskip : skipSpace (closedBy (gap ++ [']']) ((i :: tail).map Item.written) ++
            rest) = i.text ++ behind := hfront
        have hsome : i.text ++ behind = c :: (more ++ behind) := by
          rw [hstart, List.cons_append]
        rw [List.cons_append, readValue_bracket (hskip.trans hsome) hc, hskip,
          readItems_closedBy hgap hne hitems hfuel]
        rfl

/-- **An object is read from its fields.** -/
theorem Reads.object (hgap : ∀ c ∈ gap, isSpace c = true)
    {colonGap : List Char} (hcolon : ∀ c ∈ colonGap, isSpace c = true)
    (fields : List (String × Item)) (hne : fields ≠ [])
    (hfields : ∀ f ∈ fields, f.2.Fits depth) :
    Reads (depth + 1)
      ('\x7b' :: closedBy (gap ++ ['\x7d']) (fields.map fun f => f.2.named colonGap f.1))
      (.ofFields (fields.map fun f => (f.1, f.2.value))) where
  starts := ⟨_, _, rfl, rfl, by decide⟩
  read rest := by
    cases fields with
    | nil => exact absurd rfl hne
    | cons f tail =>
        have hf := (List.forall_mem_cons.1 hfields).1
        let text := quote f.1.toList ++ ':' :: (colonGap ++ f.2.text)
        have htext (next : List Char) :
            skipSpace (f.2.gap ++ (text ++ next)) = text ++ next := by
          rw [Json.skipSpace_append hf.blank]
          exact skipSpace_cons rfl _
        obtain ⟨behind, hfront, hlength⟩ := exists_skipSpace_closedBy htext gap '\x7d'
          (tail.map fun f => f.2.named colonGap f.1) rest
        rw [List.length_map] at hlength
        have hfuel : (f :: tail).length ≤ (text ++ behind).length + 1 := by
          simp only [List.length_append, List.length_cons]
          omega
        have hskip : skipSpace (closedBy (gap ++ ['\x7d'])
            ((f :: tail).map fun f => f.2.named colonGap f.1) ++ rest) = text ++ behind := by
          rw [← hfront]
          simp [Item.named, text]
        rw [List.cons_append, readValue_brace hskip (by decide), hskip,
          readFields_closedBy hgap hcolon hne hfields hfuel]
        rfl

end Values

section Layouts

variable {depth : Nat} {v : Value}

/-- Texts that are written one by one with commas between them. -/
theorem append_eq_closedBy {α : Type} {all : List α → List Char} {one : α → List Char}
    (hnil : all [] = []) (hone : ∀ x, all [x] = one x)
    (hmore : ∀ x y rest, all (x :: y :: rest) = one x ++ ',' :: all (y :: rest))
    (close : List Char) (xs : List α) : all xs ++ close = closedBy close (xs.map one) := by
  induction xs with
  | nil => rw [hnil, List.nil_append, List.map_nil, closedBy_nil]
  | cons x tail ih =>
      cases tail with
      | nil => rw [hone, List.map_singleton, closedBy_singleton]
      | cons y tail =>
          rw [hmore, List.append_assoc, List.cons_append, ih]
          rfl

theorem compactItems_append (close : List Char) (items : List Value) :
    compactItems items ++ close = closedBy close (items.map compact) :=
  append_eq_closedBy rfl (fun _ => rfl) (fun _ _ _ => rfl) close items

theorem compactFields_append (close : List Char) (fields : List (String × Value)) :
    compactFields fields ++ close =
      closedBy close (fields.map fun f => quote f.1.toList ++ ':' :: compact f.2) :=
  append_eq_closedBy rfl (fun _ => rfl) (fun _ _ _ => rfl) close fields

theorem prettyItems_append (level : Nat) (close : List Char) (items : List Value) :
    prettyItems level items ++ close =
      closedBy close (items.map fun v => newline level ++ pretty level v) :=
  append_eq_closedBy rfl (fun _ => rfl) (fun _ _ _ => rfl) close items

theorem prettyFields_append (level : Nat) (close : List Char)
    (fields : List (String × Value)) :
    prettyFields level fields ++ close = closedBy close (fields.map fun f =>
      newline level ++ quote f.1.toList ++ ':' :: ' ' :: pretty level f.2) :=
  append_eq_closedBy rfl (fun _ => rfl) (fun _ _ _ => rfl) close fields

theorem isSpace_newline (level : Nat) : ∀ c ∈ newline level, isSpace c = true := by
  intro c hc
  rcases List.mem_cons.1 hc with rfl | hc
  · rfl
  · rw [List.eq_of_mem_replicate hc]
    rfl

theorem reads_emptyArray (depth : Nat) : Reads (depth + 1) ['[', ']'] (.array []) where
  starts := ⟨_, _, rfl, rfl, by decide⟩
  read _ := rfl

theorem reads_emptyObject (depth : Nat) :
    Reads (depth + 1) ['\x7b', '\x7d'] (.object []) where
  starts := ⟨_, _, rfl, rfl, by decide⟩
  read _ := rfl

/-- The text without blanks is read back. -/
theorem reads_compact (h : Readable depth v) : Reads depth (compact v) v.sorted := by
  have hblank : ∀ c ∈ ([] : List Char), isSpace c = true := List.forall_mem_nil _
  induction h with
  | null depth => exact reads_null depth
  | bool depth b => exact reads_bool depth b
  | string depth s => exact reads_string depth s
  | @array depth items _ ih =>
      cases items with
      | nil => exact reads_emptyArray depth
      | cons v tail =>
          have hreads := Reads.array hblank
            ((v :: tail).map fun v => ⟨[], compact v, v.sorted⟩) (by simp)
            (List.forall_mem_map.2 fun v hv => ⟨hblank, ih v hv⟩)
          rw [List.map_map, List.map_map] at hreads
          rw [compact, Value.sorted, Value.sortedItems_eq_map, List.cons_append,
            compactItems_append]
          exact hreads
  | @object depth fields _ ih =>
      cases fields with
      | nil => exact reads_emptyObject depth
      | cons f tail =>
          have hreads := Reads.object hblank hblank
            ((f :: tail).map fun f => (f.1, ⟨[], compact f.2, f.2.sorted⟩)) (by simp)
            (List.forall_mem_map.2 fun f hf => ⟨hblank, ih f hf⟩)
          rw [List.map_map, List.map_map] at hreads
          rw [compact, Value.sorted, Value.sortedFields_eq_map, List.cons_append,
            compactFields_append]
          exact hreads

/-- The text with one item a line is read back, from every level. -/
theorem reads_pretty (h : Readable depth v) :
    ∀ level, Reads depth (pretty level v) v.sorted := by
  induction h with
  | null depth => exact fun _ => reads_null depth
  | bool depth b => exact fun _ => reads_bool depth b
  | string depth s => exact fun _ => reads_string depth s
  | @array depth items _ ih =>
      intro level
      cases items with
      | nil => exact reads_emptyArray depth
      | cons v tail =>
          have hreads := Reads.array (isSpace_newline level)
            ((v :: tail).map fun v =>
              ⟨newline (level + 1), pretty (level + 1) v, v.sorted⟩) (by simp)
            (List.forall_mem_map.2 fun v hv =>
              ⟨isSpace_newline (level + 1), ih v hv (level + 1)⟩)
          rw [List.map_map, List.map_map] at hreads
          rw [pretty, Value.sorted, Value.sortedItems_eq_map, List.append_assoc,
            List.cons_append, prettyItems_append]
          exact hreads
  | @object depth fields _ ih =>
      intro level
      cases fields with
      | nil => exact reads_emptyObject depth
      | cons f tail =>
          have hcolon : ∀ c ∈ [' '], isSpace c = true := by simp [isSpace]
          have hreads := Reads.object (isSpace_newline level) hcolon
            ((f :: tail).map fun f =>
              (f.1, ⟨newline (level + 1), pretty (level + 1) f.2, f.2.sorted⟩)) (by simp)
            (List.forall_mem_map.2 fun f hf =>
              ⟨isSpace_newline (level + 1), ih f hf (level + 1)⟩)
          rw [List.map_map, List.map_map] at hreads
          rw [pretty, Value.sorted, Value.sortedFields_eq_map, List.append_assoc,
            List.cons_append, prettyFields_append]
          exact hreads

end Layouts

section Documents

variable {v : Value} {cs : List Char} {back : String}

/-- A text that is read is a document, with blanks behind it. -/
theorem Reads.read?_eq (h : Reads maxDepth cs v)
    (hback : ∀ c ∈ back.toList, isSpace c = true) :
    read? (String.ofList cs ++ back) = some v := by
  have hfront : skipSpace (cs ++ back.toList) = cs ++ back.toList :=
    h.skipSpace_append (List.forall_mem_nil _) back.toList
  have hend : skipSpace back.toList = [] := by
    rw [← List.append_nil back.toList, Json.skipSpace_append hback]
    rfl
  rw [read?, String.toList_append, String.toList_ofList, hfront, h.read]
  simp [hend]

/-- **Values without numbers are read back** from both of their texts, whatever blanks
follow, with the fields of objects in the order of the names. -/
theorem read?_written (h : Readable maxDepth v)
    (hback : ∀ c ∈ back.toList, isSpace c = true) :
    read? (compactText v ++ back) = some v.sorted ∧
      read? (prettyText v ++ back) = some v.sorted :=
  ⟨(reads_compact h).read?_eq hback, (reads_pretty h 0).read?_eq hback⟩

theorem read?_compactText (h : Readable maxDepth v) :
    read? (compactText v) = some v.sorted := by
  have hblank : ∀ c ∈ "".toList, isSpace c = true := List.forall_mem_nil _
  have hread := (read?_written h hblank).1
  rwa [String.append_empty] at hread

theorem read?_prettyText (h : Readable maxDepth v) :
    read? (prettyText v) = some v.sorted := by
  have hblank : ∀ c ∈ "".toList, isSpace c = true := List.forall_mem_nil _
  have hread := (read?_written h hblank).2
  rwa [String.append_empty] at hread

end Documents

end Json

end Templating
