import Templating.Template
import Templating.Toml.Value
import Templating.Toml.Writer

/-!
# Configuration

Whether unknown directives are errors, and where templates are looked up. The
configuration is written as TOML, in a section for the parser and one for the
loader. Both sections and what is in them may be left out; other names are
skipped. A section may also be an array of what is in it.

Main definitions:

* `Config`, `Config.ofText?` and `Config.text`;
* `Config.load`, `Config.loadOrDefault` and `Config.save`;
* `Config.loader`.
-/

namespace Templating

open Toml

section Config

/-- Whether unknown directives are errors, and the search directories. -/
structure Config where
  strict : Bool
  dirs : List String
deriving DecidableEq, Repr

/-- Why a configuration cannot be read or written. -/
inductive ConfigError where
  | io (path : String) (cause : FileError)
  /-- The text is no configuration. -/
  | invalid
deriving DecidableEq, Repr

/-- The wording of a configuration error. What is wrong with an invalid text is
not said. -/
def ConfigError.message : ConfigError → String
  | .io path cause => "config io error on " ++ path ++ ": " ++ cause.message
  | .invalid => "invalid config"

end Config

section Reading

namespace Config

/-- Not strict, and without search directories. -/
def default : Config :=
  ⟨false, []⟩

/-- A field that may be left out. -/
def field? {α : Type} (name : String) (read : Item → Option α) (absent : α)
    (table : Table) : Option α :=
  match Keyed.find? name table with
  | none => some absent
  | some item => read item

/-- Whether all fields but those with the given names can be skipped. -/
def othersSkippable (names : List String) (table : Table) : Bool :=
  fieldsSkippable (table.filter fun f => !names.contains f.1)

/-- The only field of a section: under its name in a table, or as the first item
of an array. A datetime is a section without it. -/
def soleField? {α : Type} (name : String) (read : Item → Option α) (absent : α) :
    Item → Option α
  | .table fields =>
      if othersSkippable [name] fields then field? name read absent fields
      else none
  | .array [] => some absent
  | .array (item :: _) => read item
  | .datetime _ => some absent
  | _ => none

/-- A boolean. -/
def bool? : Item → Option Bool
  | .bool b => some b
  | _ => none

/-- An array of strings. -/
def strings? : Item → Option (List String)
  | .array items =>
      items.mapM fun
        | .string s => some s
        | _ => none
  | _ => none

/-- The section for the parser. -/
def parserSection? : Item → Option Bool :=
  soleField? "strict_tags" bool? false

/-- The section for the loader. -/
def loaderSection? : Item → Option (List String) :=
  soleField? "template_dirs" strings? []

/-- The configuration of a table. -/
def ofTable? (table : Table) : Option Config :=
  if othersSkippable ["parser", "loader"] table then do
    let strict ← field? "parser" parserSection? false table
    let dirs ← field? "loader" loaderSection? [] table
    some ⟨strict, dirs⟩
  else
    none

/-- The configuration of a text. -/
def ofText? (text : String) : Option Config :=
  (read? text).bind ofTable?

end Config

end Reading

section Writing

namespace Config

/-- The search directories as an array: on one line if there is at most one,
else one a line. -/
def dirsText : List String → List Char
  | [] => ['[', ']']
  | [dir] => '[' :: writeString dir.toList ++ [']']
  | dirs =>
      ['[', '\n'] ++
        dirs.flatMap (fun dir =>
          List.replicate 4 ' ' ++ writeString dir.toList ++ [',', '\n']) ++
        [']']

/-- The configuration as TOML. -/
def text (c : Config) : String :=
  "[parser]\nstrict_tags = " ++ (if c.strict then "true" else "false") ++
    "\n\n[loader]\ntemplate_dirs = " ++ String.ofList (dirsText c.dirs) ++ "\n"

end Config

end Writing

section Files

namespace Config

/-- The search directories as seen from a base directory. -/
def rebase (base : String) (c : Config) : Config :=
  { c with dirs := c.dirs.map (Path.join base) }

/-- The configuration in a file. Relative search directories are relative to the
directory of the file. -/
def load (files : FileTree) (path : String) : Except ConfigError Config :=
  match files.read path with
  | .error e => .error (.io path e)
  | .ok content =>
      match ofText? content with
      | none => .error .invalid
      | some c =>
          match Path.parent? path with
          | none => .ok c
          | some base => .ok (c.rebase base)

/-- The configuration in a file, or the default one if there is no such file. -/
def loadOrDefault (files : FileTree) (path : String) :
    Except ConfigError Config :=
  if files.exists? path then load files path else .ok default

/-- The files after the configuration has been written to one of them. -/
def save (c : Config) (files : FileTree) (path : String) :
    Except ConfigError FileTree :=
  match files.write path c.text with
  | .error e => .error (.io path e)
  | .ok files => .ok files

/-- The loader with the search directories, which is strict as configured. -/
def loader (c : Config) : Loader :=
  ⟨c.dirs, c.strict⟩

end Config

end Files

end Templating
