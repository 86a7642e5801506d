import Templating.FileTree

/-!
# What can go wrong

Parsing, loading and rendering each have their own causes of failure, and one
function each for the wording. A failure that another one caused keeps it.

Main definitions: `ParseError`, `LoadError`, `RenderError`, and
`LoadError.chain` and `RenderError.chain`, the messages from the failure to its
first cause.
-/

namespace Templating

section Parsing

/-- What is wrong with the arguments of a directive. -/
inductive Misuse where
  /-- Another number of arguments than the usage shows. -/
  | argumentCount (expected found : Nat) (usage : String)
  /-- The word `in` was expected. -/
  | missingIn (found usage : String)
  /-- More than the one argument that may be given. -/
  | tooMany (usage : String)
  /-- A reason given by a registered tag. -/
  | other (reason : String)
deriving DecidableEq, Repr

/-- The wording of a misuse. -/
def Misuse.message : Misuse → String
  | .argumentCount expected found usage =>
      "expected " ++ expected.repr ++ " argument(s), found " ++ found.repr ++
        "; usage: " ++ usage
  | .missingIn found usage =>
      "expected `in`, found `" ++ found ++ "`; usage: " ++ usage
  | .tooMany usage => "expected at most one argument; usage: " ++ usage
  | .other reason => reason

/-- Why tokens do not form a template. -/
inductive ParseError where
  /-- A directive with the wrong arguments. -/
  | misuse (tag : String) (cause : Misuse)
  /-- A tag whose closing directive was not found. -/
  | unclosed (tag expected : String)
  /-- A directive that names no tag. -/
  | unknownTag (name : String)
deriving DecidableEq, Repr

/-- The wording of a parse error. -/
def ParseError.message : ParseError → String
  | .misuse tag cause => "`" ++ tag ++ "` tag: " ++ cause.message
  | .unclosed tag expected =>
      "`" ++ tag ++ "` tag was not closed; expected `" ++ expected ++ "`"
  | .unknownTag name => "unknown tag `" ++ name ++ "`"

end Parsing

section Loading

/-- Why a template cannot be loaded. -/
inductive LoadError where
  | parse (cause : ParseError)
  /-- No search directory has such a file. -/
  | notFound (name : String) (searched : List String)
  /-- The name could leave the search directories. -/
  | invalidName (name : String)
  | unreadable (path : String) (cause : FileError)
deriving DecidableEq, Repr

namespace LoadError

/-- The wording of a load error. -/
def message : LoadError → String
  | .parse cause => "parse error: " ++ cause.message
  | .notFound name searched =>
      "template `" ++ name ++ "` not found (searched " ++
        searched.length.repr ++ " director" ++
        (if searched.length = 1 then "y" else "ies") ++ ")"
  | .invalidName name =>
      "invalid template name `" ++ name ++
        "`: must be relative and stay inside the template directories"
  | .unreadable path cause =>
      "failed to read " ++ path ++ ": " ++ cause.message

/-- The messages from the error to its first cause. -/
def chain (e : LoadError) : List String :=
  match e with
  | .parse cause => [e.message, cause.message]
  | .unreadable _ cause => [e.message, cause.message]
  | _ => [e.message]

end LoadError

end Loading

section Rendering

/-- Why a template cannot be rendered. -/
inductive RenderError where
  /-- A registered tag failed. -/
  | handler (reason : String)
  | invalidFormat (format : String)
  /-- An inclusion without a loader. -/
  | missingLoader (name : String)
  /-- A template that is already being included, outermost name first. -/
  | recursiveInclude (name : String) (including : List String)
  /-- A template to include that could not be loaded. -/
  | inclusion (name : String) (cause : LoadError)
deriving DecidableEq, Repr

namespace RenderError

/-- The wording of a render error. -/
def message : RenderError → String
  | .handler reason => reason
  | .invalidFormat format => "invalid date format `" ++ format ++ "`"
  | .missingLoader name =>
      "cannot include `" ++ name ++ "`: no template loader in context"
  | .recursiveInclude name including =>
      "recursive include of `" ++ name ++ "` (via " ++
        " -> ".intercalate including ++ ")"
  | .inclusion name cause =>
      "failed to include `" ++ name ++ "`: " ++ cause.message

/-- The messages from the error to its first cause. -/
def chain (e : RenderError) : List String :=
  match e with
  | .inclusion _ cause => e.message :: cause.chain
  | _ => [e.message]

end RenderError

end Rendering

end Templating
