import Templating.Text.Split

/-!
# Paths

A path is a string of segments with slashes between them. A path that starts
with a slash is absolute. Empty segments and `.` stay where they are, `..` goes
up.

Main definitions:

* `Path.segments` and `Path.isAbsolute`;
* `Path.join`, a name seen from a directory;
* `Path.parts`, what a path is made of, and `Path.isContained`, the test that a
  name cannot leave its directory;
* `Path.parent?` and `Path.extension?`.

`Path.isContained_iff` says which names pass the test.
-/

namespace Templating
namespace Path

open Text

section Join

/-- The segments between the slashes. -/
def segments (path : String) : List String :=
  splitString '/' path

/-- Whether the path starts at the root. -/
def isAbsolute (path : String) : Bool :=
  path.toList.head? == some '/'

/-- A name seen from a directory. An absolute name stands for itself, and the
empty directory adds nothing. -/
def join (directory name : String) : String :=
  if isAbsolute name ∨ directory = "" then name
  else if directory.toList.getLast? = some '/' then directory ++ name
  else directory ++ "/" ++ name

end Join

section Parts

/-- What a path is made of. -/
inductive Part where
  | root
  /-- A dot that starts a relative path. -/
  | here
  | up
  | name (segment : String)
deriving DecidableEq, Repr

/-- What a segment adds to a path: nothing if it is empty or a dot. -/
def Part.ofSegment? (segment : String) : Option Part :=
  if segment = "" ∨ segment = "." then none
  else if segment = ".." then some .up
  else some (.name segment)

/-- What a path starts with before its segments add anything. -/
def lead? (path : String) : Option Part :=
  if isAbsolute path then some .root
  else if (segments path).head? = some "." then some .here
  else none

/-- The parts of a path, from the first to the last. -/
def parts (path : String) : List Part :=
  (lead? path).toList ++ (segments path).filterMap Part.ofSegment?

/-- Whether a part leads no further up than where it starts. -/
def Part.stays : Part → Bool
  | .here => true
  | .name _ => true
  | .root => false
  | .up => false

/-- Whether a name stays below the directory it is joined to. -/
def isContained (name : String) : Bool :=
  name != "" && (parts name).all Part.stays

theorem stays_lead?_iff (path : String) :
    (∀ part, lead? path = some part → part.stays = true) ↔
      isAbsolute path = false := by
  unfold lead?
  by_cases h : isAbsolute path = true
  · simp [h, Part.stays]
  · by_cases hdot : (segments path).head? = some "."
    · simp [h, hdot, Part.stays]
    · simp [h, hdot]

theorem stays_ofSegment?_iff (segment : String) :
    (∀ part, Part.ofSegment? segment = some part → part.stays = true) ↔
      segment ≠ ".." := by
  unfold Part.ofSegment?
  split
  · next h => rcases h with rfl | rfl <;> simp
  · split
    · next h => simp [h, Part.stays]
    · next h => simp [h, Part.stays]

/-- A name passes if it is neither empty nor absolute, and none of its segments goes
up. -/
theorem isContained_iff (name : String) :
    isContained name = true ↔
      name ≠ "" ∧ isAbsolute name = false ∧ ".." ∉ segments name := by
  have hsegments : (∀ part ∈ (segments name).filterMap Part.ofSegment?,
      part.stays = true) ↔ ".." ∉ segments name := by
    constructor
    · intro h hmem
      have hup := h .up (List.mem_filterMap.2 ⟨"..", hmem, rfl⟩)
      cases hup
    · intro h part hpart
      obtain ⟨segment, hmem, hsegment⟩ := List.mem_filterMap.1 hpart
      have hne : segment ≠ ".." := fun heq => h (heq ▸ hmem)
      exact (stays_ofSegment?_iff segment).2 hne part hsegment
  simp only [isContained, parts, Bool.and_eq_true, bne_iff_ne, List.all_append,
    List.all_eq_true, Option.mem_toList, stays_lead?_iff, hsegments]

end Parts

section Components

/-- The names from the root after one more segment. -/
def enter (names : List String) (segment : String) : List String :=
  if segment = "" ∨ segment = "." then names
  else if segment = ".." then names.dropLast
  else names ++ [segment]

/-- The names from the root at which a path starts, seen from a directory that is
itself given by its names. -/
def origin (here : List String) (path : String) : List String :=
  if isAbsolute path then [] else here

/-- The names from the root to what a path leads to. -/
def names (here : List String) (path : String) : List String :=
  (segments path).foldl enter (origin here path)

/-- The names from the root to each place that a path passes on its way. -/
def passed (here : List String) (path : String) : List (List String) :=
  ((segments path).dropLast.foldl
    (fun r segment => (enter r.1 segment, enter r.1 segment :: r.2))
    (origin here path, [])).2

/-- A path in its segments from the last to the first, without the empty and
`.` segments at its end. A `.` that starts a relative path stays. -/
def dropTail : List String → List String
  | [] => []
  | [s] => if s = "" then [] else [s]
  | s :: t :: rest =>
      if s = "" ∨ s = "." then dropTail (t :: rest) else s :: t :: rest

/-- The segments from the last to the first, from the last one that names
something. -/
def components (path : String) : List String :=
  dropTail (segments path).reverse

/-- The path of segments that are given from the last to the first. -/
def ofReversed (segs : List String) : String :=
  "/".intercalate segs.reverse

/-- The path without its last component, if it has one. -/
def parent? (path : String) : Option String :=
  match components path with
  | [] => none
  | _ :: rest =>
      match dropTail rest with
      | [] => some (if isAbsolute path then "/" else "")
      | segs => some (ofReversed segs)

/-- The last component, if it is a name. -/
def fileName? (path : String) : Option String :=
  match components path with
  | [] => none
  | s :: _ => if s = "." ∨ s = ".." then none else some s

/-- What follows the last dot of the file name; a dot in front does not count. -/
def extension? (path : String) : Option String :=
  (fileName? path).bind fun name =>
    match (splitAt '.' name.toList).reverse with
    | _ :: [[]] => none
    | last :: _ :: _ => some (String.ofList last)
    | _ => none

end Components

end Path
end Templating
