import Templating.Loader
import Templating.Parser.Progress
import Templating.Token.Scan

/-!
# Templates

A template is the list of nodes that a source is parsed to, and a name if it has
been loaded. With the built-in tags every source is parsed to nodes or to an
error, so that no bound is left in the results.

Main definitions:

* `parseTokens` and `Template.parse`, parsing with the built-in tags;
* `Loader.loadFile`, a template from a path;
* `Loader.load`, a template by its name.
-/

namespace Templating

section Parse

/-- Parses tokens with the built-in tags; what is left of the queue after an
error comes with it. -/
def parseQueue (strict : Bool) (tokens : List Token) :
    Except ParseError (List Node) × List Token :=
  let parsed := Parser.parse (tokens.length + 1) (.ofTokens strict tokens)
  (parsed.1.toExcept (Parser.ofTokens_not_exhausted strict tokens),
    parsed.2.queue)

/-- Parses tokens with the built-in tags. -/
def parseTokens (strict : Bool) (tokens : List Token) :
    Except ParseError (List Node) :=
  (parseQueue strict tokens).1

/-- A parsed template. -/
structure Template where
  name : Option String
  nodes : List Node

namespace Template

/-- The template of a source, without a name. -/
def parse (strict : Bool) (source : String) : Except ParseError Template :=
  (parseTokens strict (Token.tokenize source)).map fun nodes => ⟨none, nodes⟩

/-- The template under another name. -/
def named (name : String) (t : Template) : Template :=
  { t with name := some name }

end Template

end Parse

section Load

namespace Loader

/-- The template in a file, named by its path. -/
def loadFile (loader : Loader) (files : FileTree) (path : String) :
    Except LoadError Template :=
  match files.read path with
  | .error e => .error (.unreadable path e)
  | .ok source =>
      match Template.parse loader.strict source with
      | .error e => .error (.parse e)
      | .ok t => .ok (t.named path)

/-- The template of a name, looked up in the search directories. -/
def load (loader : Loader) (files : FileTree) (name : String) :
    Except LoadError Template :=
  if Path.isContained name then
    match loader.find? files name with
    | none => .error (.notFound name loader.dirs)
    | some path => (loader.loadFile files path).map (Template.named name)
  else
    .error (.invalidName name)

end Loader

end Load

end Templating
