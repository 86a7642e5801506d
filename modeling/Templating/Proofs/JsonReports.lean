import Templating.CommandLine.Run
import Templating.Proofs.JsonTexts

/-!
# Reports in JSON

What the program writes as JSON holds strings, arrays and objects only, so that it is read
back whatever is in the strings.  The fields come back in the order of their names; a token
does not depend on this order.

Main statement: `json_mode_lossless`.
-/

namespace Templating

section Fields

namespace Keyed

variable {β : Type} {key other : String}

/-- Two fields with different names are both found, in whatever order they are kept. -/
theorem find?_ofFields_pair (h : key ≠ other) (x y : β) :
    find? key (ofList [(key, x), (other, y)]) = some x ∧
      find? other (ofList [(key, x), (other, y)]) = some y := by
  have hfirst : find? key (insert other y (insert key x [])) = some x := by
    rw [find?_insert_of_ne y _ h, find?_insert_self]
  exact ⟨hfirst, find?_insert_self other y _⟩

end Keyed

end Fields

section Tokens

namespace Token

theorem readable_toValue (t : Token) (depth : Nat) :
    Json.Readable (depth + 1) t.toValue :=
  .object (List.forall_mem_cons.2
    ⟨.string depth t.kind.name, List.forall_mem_singleton.2 (.string depth t.payload)⟩)

/-- A token does not depend on the order of its fields. -/
theorem ofValue?_sorted (t : Token) : ofValue? t.toValue.sorted = some t := by
  obtain ⟨hkind, hvalue⟩ := Keyed.find?_ofFields_pair (by decide : "kind" ≠ "value")
    t.kind.toValue (.string t.payload)
  have hsorted : t.toValue.sorted =
      .object (Keyed.ofList [("kind", t.kind.toValue), ("value", .string t.payload)]) := rfl
  simp only [hsorted, ofValue?, hkind, hvalue, Kind.ofValue?_toValue, Option.map_some]

/-- Tokens that have been written one by one. -/
theorem mapM_ofValue?_sorted (tokens : List Token) :
    (tokens.map fun t => t.toValue.sorted).mapM ofValue? = some tokens := by
  induction tokens with
  | nil => rfl
  | cons t rest ih => simp [List.mapM_cons, ofValue?_sorted, ih]

end Token

end Tokens

section Reports

theorem Listing.readable_toValue (listing : Listing) (depth : Nat) :
    Json.Readable (depth + 3) listing.toValue := by
  have htokens : ∀ v ∈ listing.tokens.map Token.toValue, Json.Readable (depth + 1) v :=
    List.forall_mem_map.2 fun t _ => t.readable_toValue depth
  exact .object (List.forall_mem_cons.2
    ⟨.string (depth + 2) listing.template, List.forall_mem_singleton.2 (.array htokens)⟩)

/-- A listing, with its fields in the order of their names. -/
theorem Listing.toValue_sorted (listing : Listing) :
    listing.toValue.sorted =
      .object (Keyed.ofList [("template", .string listing.template),
        ("tokens", .array (listing.tokens.map fun t => t.toValue.sorted))]) := by
  simp only [toValue, Value.sorted, Value.sortedFields, Value.sortedItems_eq_map,
    List.map_map, Value.ofFields]
  rfl

theorem Rendering.readable_toValue (r : Rendering) (depth : Nat) :
    Json.Readable (depth + 1)
      (.object [("template", .string r.template), ("output", .string r.output)]) :=
  .object (List.forall_mem_cons.2
    ⟨.string depth r.template, List.forall_mem_singleton.2 (.string depth r.output)⟩)

/-- A line feed is blank. -/
theorem isSpace_lineFeed : ∀ c ∈ "\n".toList, Json.isSpace c = true :=
  List.forall_mem_singleton.2 rfl

namespace CommandLine

/-- **JSON mode loses nothing.**  The JSON of a listing, also with the line feed that the
program writes behind it, is one document, which holds the path and the tokens.  So is the
JSON of a single token.  The JSON of a rendering holds the path and the output, and it is
written for what is written to people without it. -/
theorem json_mode_lossless :
    (∀ listing : Listing, ∃ fields items,
      Json.read? listing.json = some (.object fields) ∧
      Json.read? (listing.json ++ "\n") = some (.object fields) ∧
      Keyed.find? "template" fields = some (.string listing.template) ∧
      Keyed.find? "tokens" fields = some (.array items) ∧
      items.mapM Token.ofValue? = some listing.tokens) ∧
    (∀ t : Token, ∃ v,
      Json.read? (Json.compactText t.toValue) = some v ∧ Token.ofValue? v = some t) ∧
    (∀ r : Rendering, ∃ fields,
      Json.read? r.json = some (.object fields) ∧
      Json.read? (r.json ++ "\n") = some (.object fields) ∧
      Keyed.find? "template" fields = some (.string r.template) ∧
      Keyed.find? "output" fields = some (.string r.output)) ∧
    ∀ env (request : RenderRequest), Command.run env true (.render request) =
      (Command.run env false (.render request)).map fun output =>
        (Rendering.mk request.template output).json ++ "\n" := by
  refine ⟨fun listing => ?_, fun t => ?_, fun r => ?_, fun env request => ?_⟩
  · have hreadable : Json.Readable Json.maxDepth listing.toValue :=
      listing.readable_toValue 124
    have hread := Json.read?_prettyText hreadable
    have hreadLine := (Json.read?_written hreadable isSpace_lineFeed).2
    rw [listing.toValue_sorted] at hread hreadLine
    obtain ⟨htemplate, htokens⟩ := Keyed.find?_ofFields_pair
      (by decide : "template" ≠ "tokens") (Value.string listing.template)
      (Value.array (listing.tokens.map fun t => t.toValue.sorted))
    exact ⟨_, _, hread, hreadLine, htemplate, htokens,
      Token.mapM_ofValue?_sorted listing.tokens⟩
  · have hreadable : Json.Readable Json.maxDepth t.toValue := t.readable_toValue 126
    exact ⟨_, Json.read?_compactText hreadable, t.ofValue?_sorted⟩
  · have hreadable := r.readable_toValue 126
    obtain ⟨htemplate, houtput⟩ := Keyed.find?_ofFields_pair
      (by decide : "template" ≠ "output") (Value.string r.template)
      (Value.string r.output)
    exact ⟨_, Json.read?_prettyText hreadable,
      (Json.read?_written hreadable isSpace_lineFeed).2, htemplate, houtput⟩
  · simp only [Command.run, if_true, Bool.false_eq_true, if_false]
    cases request.run env with
    | ok output => rfl
    | error e => rfl

end CommandLine

end Reports

end Templating
