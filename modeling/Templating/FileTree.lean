import Templating.Keyed
import Templating.Path

/-!
# File trees

A snapshot of the files that a program can see: the working directory and the
directories above it, up to the root. A path is followed segment by segment;
what lies at its end is a directory, a text, or a file that is not text.

Main definitions:

* `Entry`, `Directory` and `FileTree`;
* `FileError` with the wording of each cause;
* `FileTree.isFile`, `FileTree.exists?`, `FileTree.read` and `FileTree.write`;
* `FileTree.ofEntries` and `FileTree.ofPaths`.
-/

namespace Templating

section Types

/-- What a directory holds under a name. -/
inductive Entry where
  | text (content : String)
  /-- A file whose bytes are not text. -/
  | binary
  | directory (entries : List (String × Entry))

/-- Names and what they stand for. -/
abbrev Directory := List (String × Entry)

/-- The working directory and the directories above it, the root last. -/
structure FileTree where
  here : Directory
  above : List Directory

/-- Why a path cannot be read or written. -/
inductive FileError where
  | missing
  | isDirectory
  | notDirectory
  | nameTooLong
  | notText
  | nulInPath
deriving DecidableEq, Repr

/-- The wording of a cause. -/
def FileError.message : FileError → String
  | .missing => "No such file or directory (os error 2)"
  | .isDirectory => "Is a directory (os error 21)"
  | .notDirectory => "Not a directory (os error 20)"
  | .nameTooLong => "File name too long (os error 36)"
  | .notText => "stream did not contain valid UTF-8"
  | .nulInPath => "file name contained an unexpected NUL byte"

end Types

section Walk

/-- A place in a tree: a directory, the directories passed on the way down with
the name taken in each, and the directories above the start. -/
structure Cursor where
  dir : Directory
  passed : List (String × Directory)
  level : Nat

/-- What a path leads to. -/
inductive Found where
  | directory (cursor : Cursor)
  | file (entry : Entry)

/-- The longest name that a directory can hold, in bytes. -/
def maxNameBytes : Nat :=
  255

/-- The length from which on a path is refused, in bytes. -/
def maxPathBytes : Nat :=
  4096

namespace FileTree

/-- The directories from the working directory to the root. -/
def levels (t : FileTree) : List Directory :=
  t.here :: t.above

/-- A level as a place to start from. -/
def start (t : FileTree) (level : Nat) : Cursor :=
  ⟨t.levels.getD level [], [], level⟩

/-- One directory up; the root is its own parent. -/
def up (t : FileTree) (c : Cursor) : Cursor :=
  match c.passed with
  | (_, d) :: rest => ⟨d, rest, c.level⟩
  | [] =>
      if c.level < t.above.length then t.start (c.level + 1) else c

/-- Follows one segment. -/
def step (t : FileTree) (c : Cursor) (segment : String) :
    Except FileError Found :=
  if segment = "" ∨ segment = "." then
    .ok (.directory c)
  else if segment = ".." then
    .ok (.directory (t.up c))
  else if maxNameBytes < segment.utf8ByteSize then
    .error .nameTooLong
  else
    match Keyed.find? segment c.dir with
    | none => .error .missing
    | some (.directory d) =>
        .ok (.directory ⟨d, (segment, c.dir) :: c.passed, c.level⟩)
    | some entry => .ok (.file entry)

/-- Follows segments. Nothing can follow a file, not even an empty segment. -/
def walk (t : FileTree) : Cursor → List String → Except FileError Found
  | c, [] => .ok (.directory c)
  | c, segment :: rest =>
      match t.step c segment with
      | .error e => .error e
      | .ok (.directory c) => t.walk c rest
      | .ok (.file entry) =>
          if rest.isEmpty then .ok (.file entry) else .error .notDirectory

/-- Where a path starts. -/
def origin (t : FileTree) (path : String) : Cursor :=
  t.start (if Path.isAbsolute path then t.above.length else 0)

/-- What refuses a path before any of it is followed. -/
def refusal? (path : String) : Option FileError :=
  if path.toList.contains '\x00' then some .nulInPath
  else if path = "" then some .missing
  else if maxPathBytes ≤ path.utf8ByteSize then some .nameTooLong
  else none

/-- What a path leads to. -/
def resolve (t : FileTree) (path : String) : Except FileError Found :=
  match refusal? path with
  | some e => .error e
  | none => t.walk (t.origin path) (Path.segments path)

end FileTree

end Walk

section Read

namespace FileTree

/-- Whether the path leads to a file. -/
def isFile (t : FileTree) (path : String) : Bool :=
  match t.resolve path with
  | .ok (.file _) => true
  | _ => false

/-- Whether the path leads anywhere. -/
def exists? (t : FileTree) (path : String) : Bool :=
  match t.resolve path with
  | .ok _ => true
  | .error _ => false

/-- The text of a file. -/
def read (t : FileTree) (path : String) : Except FileError String :=
  match t.resolve path with
  | .ok (.file (.text content)) => .ok content
  | .ok (.file _) => .error .notText
  | .ok (.directory _) => .error .isDirectory
  | .error e => .error e

end FileTree

mutual

/-- The texts below an entry. -/
def Entry.texts : Entry → List String
  | .text content => [content]
  | .binary => []
  | .directory entries => textsOf entries

/-- The texts below all entries. -/
def textsOf : List (String × Entry) → List String
  | [] => []
  | (_, e) :: rest => e.texts ++ textsOf rest

end

/-- All texts of the tree. -/
def FileTree.texts (t : FileTree) : List String :=
  t.levels.flatMap textsOf

end Read

section Write

namespace FileTree

/-- Puts a changed directory back into the directories it was reached through. -/
def rebuild : List (String × Directory) → Directory → Directory
  | [], dir => dir
  | (name, parent) :: rest, dir =>
      rebuild rest (Keyed.insert name (.directory dir) parent)

/-- The tree with the directory of a cursor replaced. -/
def replace (t : FileTree) (c : Cursor) (dir : Directory) : FileTree :=
  let dir := rebuild c.passed dir
  match c.level with
  | 0 => { t with here := dir }
  | level + 1 => { t with above := t.above.set level dir }

/-- Writes a text file, in place of a file of the same name. The directory must
exist, and a path that ends in a slash or in a dot segment names no file. -/
def write (t : FileTree) (path content : String) :
    Except FileError FileTree :=
  match refusal? path with
  | some e => .error e
  | none =>
      match (Path.segments path).reverse.dropWhile (· = "") with
      | [] => .error .isDirectory
      | last :: before =>
          match t.walk (t.origin path) before.reverse with
          | .error e => .error e
          | .ok (.file _) => .error .notDirectory
          | .ok (.directory c) =>
              if last = "." ∨ last = ".." ∨ path.toList.getLast? = some '/' then
                .error .isDirectory
              else if maxNameBytes < last.utf8ByteSize then
                .error .nameTooLong
              else
                match Keyed.find? last c.dir with
                | some (.directory _) => .error .isDirectory
                | _ => .ok (t.replace c (Keyed.insert last (.text content) c.dir))

/-- Puts an entry under a list of names, with the directories it needs. A
directory that is there already stays as it is. -/
def plant : List String → Entry → Directory → Directory
  | [], _, dir => dir
  | [name], entry, dir =>
      match entry, Keyed.find? name dir with
      | .directory [], some (.directory _) => dir
      | _, _ => Keyed.insert name entry dir
  | name :: names, entry, dir =>
      let inner :=
        match Keyed.find? name dir with
        | some (.directory d) => d
        | _ => []
      Keyed.insert name (.directory (plant names entry inner)) dir

/-- The directories along a list of names, the last one first. -/
def along (dir : Directory) : List String → List Directory
  | [] => [dir]
  | name :: names =>
      let inner :=
        match Keyed.find? name dir with
        | some (.directory d) => d
        | _ => []
      along inner names ++ [dir]

/-- A tree that holds the given entries, each under its names from the root, seen
from a directory in it. -/
def ofEntries (here : List String) (entries : List (List String × Entry)) :
    FileTree :=
  let root :=
    entries.foldl (fun dir e => plant e.1 e.2 dir)
      (plant here (.directory []) [])
  match along root here with
  | dir :: above => ⟨dir, above⟩
  | [] => ⟨root, []⟩

/-- A tree whose working directory holds the given entries, each under a
relative path; nothing is seen above it. -/
def ofPaths (entries : List (String × Entry)) : FileTree :=
  { here :=
      entries.foldl (fun dir e => plant (Path.names [] e.1) e.2 dir) []
    above := [[]] }

end FileTree

end Write

end Templating
