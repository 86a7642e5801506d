import Templating.Template

/-!
# Notices

What can be told of a run beside its result: which configuration it has loaded,
which templates it has included and loaded, and which directives it has dropped
because no tag has their name.

Main definitions: `Notice`, `Notice.text`, the lines in which it is written,
`droppedTags`, and `Loader.inclusionNotices`, what there is to tell of an
inclusion.
-/

namespace Templating

section Notice

/-- What is told of a run. -/
inductive Notice where
  /-- A configuration has been loaded. -/
  | configured (path : String)
  | including (name : String)
  | loading (name path : String)
  /-- A directive has been dropped. -/
  | dropping (name : String)
deriving DecidableEq, Repr

namespace Notice

/-- The wording. -/
def message : Notice → String
  | .configured path => "loaded config from " ++ path
  | .including name => "including `" ++ name ++ "`"
  | .loading name path => "loading template `" ++ name ++ "` from " ++ path
  | .dropping name => "dropping unknown tag `" ++ name ++ "`"

/-- A text in which the lines after the first are moved to the right. -/
def indented (text : List Char) : List Char :=
  text.flatMap fun c => if c = '\n' then ['\n', ' ', ' ', ' ', ' '] else [c]

/-- The notice on lines of its own, the first of which begins with a bracket. -/
def text (n : Notice) : String :=
  "[debug] " ++ String.ofList (indented n.message.toList) ++ "\n"

end Notice

end Notice

section Dropped

/-- The first so many names of directives that are dropped. -/
def droppedWithin : Nat → List Token → List String
  | 0, _ => []
  | more + 1, tokens =>
      match parseQueue true tokens with
      | (.error (.unknownTag name), rest) =>
          name ::
            droppedWithin more
              (tokens.take (tokens.length - rest.length - 1) ++ rest)
      | _ => []

/-- The names of the directives that a parse drops, in its order. These are the
directives at which a strict parse fails, if each is taken out before the next is
looked for. -/
def droppedTags (tokens : List Token) : List String :=
  droppedWithin tokens.length tokens

end Dropped

section Loading

namespace Loader

/-- What there is to tell of parsing the template in a file. -/
def fileNotices (loader : Loader) (files : FileTree) (path : String) :
    List Notice :=
  match files.read path with
  | .error _ => []
  | .ok source =>
      if loader.strict then []
      else (droppedTags (Token.tokenize source)).map .dropping

/-- What there is to tell of beginning an inclusion. -/
def inclusionNotices (loader : Loader) (files : FileTree) (name : String) :
    List Notice :=
  .including name ::
    match loader.find? files name with
    | none => []
    | some path => .loading name path :: loader.fileNotices files path

end Loader

end Loading

end Templating
