/-!
# The command line

Arguments are flags, settings with a value, subcommands and operands. A flag is
written out after two hyphens or as one letter after one; letters can be put
together. The value of a setting follows its name, an equals sign or its letter,
or is the next argument if that is not itself a flag or a setting. After `--` all
arguments are operands.

Arguments are taken in order, so that the first one that is wrong, or that asks
for help or for the version, decides.

Main definitions:

* `Level.scan`, arguments into pieces;
* `Command` and `Invocation`;
* `Invocation.ofArguments?`.
-/

namespace Templating
namespace CommandLine

section Names

/-- Arguments that stand for themselves. -/
inductive Flag where
  | verbose
  | json
  | help
  | version
  | strict
deriving DecidableEq, Repr

/-- The name of a flag after two hyphens. -/
def Flag.long : Flag → String
  | .verbose => "verbose"
  | .json => "json"
  | .help => "help"
  | .version => "version"
  | .strict => "strict"

/-- The letter of a flag, if it has one. -/
def Flag.short? : Flag → Option Char
  | .verbose => some 'v'
  | .json => none
  | .help => some 'h'
  | .version => some 'V'
  | .strict => none

/-- Arguments that have a value. -/
inductive Setting where
  | context
  | define
  | config
  | templateDir
deriving DecidableEq, Repr

/-- The name of a setting after two hyphens. -/
def Setting.long : Setting → String
  | .context => "context"
  | .define => "define"
  | .config => "config"
  | .templateDir => "template-dir"

/-- The letter of a setting, if it has one. -/
def Setting.short? : Setting → Option Char
  | .context => some 'c'
  | .define => some 'D'
  | .config => none
  | .templateDir => some 'I'

/-- What the program can be told to do. -/
inductive Subcommand where
  | render
  | tokens
  | tags
  | version
  | help
deriving DecidableEq, Repr

/-- The subcommand of a name. -/
def Subcommand.ofName? : String → Option Subcommand
  | "render" => some .render
  | "tokens" => some .tokens
  | "tags" => some .tags
  | "version" => some .version
  | "help" => some .help
  | _ => none

end Names

section Pieces

/-- An argument by its role. -/
inductive Piece where
  | flag (flag : Flag)
  | setting (setting : Setting) (value : String)
  | operand (value : String)
  | subcommand (name : Subcommand) (arguments : List String)
  /-- An argument that has no role here. -/
  | unknown
deriving DecidableEq, Repr

/-- What can stand at one level of the command line. -/
structure Level where
  flags : List Flag
  settings : List Setting
  subcommands : Bool

namespace Level

/-- The pieces of an argument after two hyphens, and the setting that waits for
its value. -/
def longPieces (level : Level) (cs : List Char) :
    List Piece × Option Setting :=
  let name := String.ofList (cs.takeWhile (· != '='))
  let attached :=
    match cs.dropWhile (· != '=') with
    | _ :: value => some (String.ofList value)
    | [] => none
  match level.flags.find? (·.long = name), attached with
  | some f, none => ([.flag f], none)
  | some _, some _ => ([.unknown], none)
  | none, attached =>
      match level.settings.find? (·.long = name), attached with
      | some s, some value => ([.setting s value], none)
      | some s, none => ([], some s)
      | none, _ => ([.unknown], none)

/-- The pieces of the letters after one hyphen, and the setting that waits for
its value. -/
def letterPieces (level : Level) : List Char → List Piece × Option Setting
  | [] => ([], none)
  | c :: rest =>
      match level.flags.find? (·.short? = some c) with
      | some f =>
          let (pieces, waiting) := level.letterPieces rest
          (.flag f :: pieces, waiting)
      | none =>
          match level.settings.find? (·.short? = some c), rest with
          | some s, [] => ([], some s)
          | some s, '=' :: value => ([.setting s (String.ofList value)], none)
          | some s, value => ([.setting s (String.ofList value)], none)
          | none, _ => ([.unknown], none)

/-- Whether an argument can be the value of the setting before it. A hyphen
alone can. -/
def isValue (argument : String) : Bool :=
  match argument.toList with
  | '-' :: _ :: _ => false
  | _ => true

/-- The pieces of the arguments; `waiting` is a setting without its value. -/
def scan (level : Level) : Option Setting → List String → List Piece
  | none, [] => []
  | some _, [] => [.unknown]
  | some s, argument :: rest =>
      if isValue argument then .setting s argument :: level.scan none rest
      else [.unknown]
  | none, argument :: rest =>
      if argument = "--" then
        rest.map .operand
      else
        match level.subcommands, Subcommand.ofName? argument with
        | true, some name => [.subcommand name rest]
        | _, _ =>
            match argument.toList with
            | '-' :: '-' :: cs =>
                let (pieces, waiting) := level.longPieces cs
                pieces ++ level.scan waiting rest
            | '-' :: c :: cs =>
                let (pieces, waiting) := level.letterPieces (c :: cs)
                pieces ++ level.scan waiting rest
            | _ => .operand argument :: level.scan none rest

/-- The level of the program itself. -/
def root : Level :=
  ⟨[.verbose, .json, .help, .version], [], true⟩

/-- The level of a subcommand without settings. -/
def plain : Level :=
  ⟨[.verbose, .json, .help], [], false⟩

/-- The level of the subcommand that renders. -/
def render : Level :=
  ⟨[.verbose, .json, .help, .strict],
    [.context, .define, .config, .templateDir], false⟩

end Level

end Pieces

section Commands

/-- What to render and how. Settings that can be repeated are in the order of
the arguments. -/
structure RenderRequest where
  template : String
  context : Option String
  defines : List String
  config : Option String
  dirs : List String
  strict : Bool
deriving DecidableEq, Repr

/-- What the program is asked to do. -/
inductive Command where
  /-- Nothing; the program says what it is. -/
  | introduce
  /-- The version as a flag. -/
  | showVersion
  | help
  | render (request : RenderRequest)
  | tokens (template : String)
  | tags
  /-- The version as a subcommand. -/
  | version
deriving DecidableEq, Repr

/-- A command, whether its result is written as JSON, and whether notices are
written. -/
structure Invocation where
  command : Command
  json : Bool
  verbose : Bool
deriving DecidableEq, Repr

/-- A command with the flags that go with it. -/
def Invocation.ofFlags (command : Command) (flags : List Flag) : Invocation :=
  ⟨command, flags.contains .json, flags.contains .verbose⟩

/-- The arguments at one level so far. -/
structure Gathered where
  flags : List Flag
  operands : List String
  settings : List (Setting × String)

/-- A level read to its end, or up to an argument that ends it. -/
inductive Reading where
  | done (gathered : Gathered)
  | help
  | version
  | subcommand (gathered : Gathered) (name : Subcommand)
      (arguments : List String)

namespace Gathered

/-- No arguments. -/
def empty : Gathered :=
  ⟨[], [], []⟩

/-- Whether a setting can be given more than once. -/
def canRepeat : Setting → Bool
  | .context => false
  | .define => true
  | .config => false
  | .templateDir => true

/-- Whether a setting can have an empty value. Paths cannot be empty. -/
def canBeEmpty : Setting → Bool
  | .define => true
  | _ => false

/-- Adds a flag, which can be given once. -/
def addFlag (f : Flag) (g : Gathered) : Option Gathered :=
  if g.flags.contains f then none else some { g with flags := g.flags ++ [f] }

/-- Adds a setting. -/
def addSetting (s : Setting) (value : String) (g : Gathered) :
    Option Gathered :=
  if value = "" ∧ !canBeEmpty s then none
  else if !canRepeat s ∧ g.settings.any (·.1 = s) then none
  else some { g with settings := g.settings ++ [(s, value)] }

/-- Adds an operand if there are fewer than `limit`. Operands are paths. -/
def addOperand (limit : Nat) (value : String) (g : Gathered) :
    Option Gathered :=
  if value = "" then none
  else if g.operands.length < limit then
    some { g with operands := g.operands ++ [value] }
  else
    none

/-- The values of a setting in order. -/
def values (s : Setting) (g : Gathered) : List String :=
  g.settings.filterMap fun e => if e.1 = s then some e.2 else none

/-- Takes pieces in order. -/
def read (limit : Nat) : List Piece → Gathered → Option Reading
  | [], g => some (.done g)
  | .flag .help :: _, _ => some .help
  | .flag .version :: _, _ => some .version
  | .flag f :: rest, g => (g.addFlag f).bind (read limit rest)
  | .setting s value :: rest, g => (g.addSetting s value).bind (read limit rest)
  | .operand value :: rest, g => (g.addOperand limit value).bind (read limit rest)
  | .subcommand name arguments :: _, g => some (.subcommand g name arguments)
  | .unknown :: _, _ => none

/-- What to render, if a template is given. -/
def request? (g : Gathered) : Option RenderRequest :=
  g.operands.head?.map fun template =>
    { template
      context := (g.values .context).head?
      defines := g.values .define
      config := (g.values .config).head?
      dirs := g.values .templateDir
      strict := g.flags.contains .strict }

end Gathered

/-- A level that has no subcommands, with the flags of the level above; `make`
gives the command of what has been gathered. -/
def Level.invocation? (level : Level) (limit : Nat) (flags : List Flag)
    (make : Gathered → Option Command) (arguments : List String) :
    Option Invocation :=
  match Gathered.read limit (level.scan none arguments) .empty with
  | some (.done g) =>
      (make g).map fun command => .ofFlags command (flags ++ g.flags)
  | some .help => some (.ofFlags .help flags)
  | some .version => some (.ofFlags .showVersion flags)
  | _ => none

/-- A subcommand with its arguments and the flags in front of it. -/
def Subcommand.invocation? (flags : List Flag) (arguments : List String) :
    Subcommand → Option Invocation
  | .render =>
      Level.render.invocation? 1 flags (fun g => g.request?.map .render) arguments
  | .tokens =>
      Level.plain.invocation? 1 flags (fun g => g.operands.head?.map .tokens)
        arguments
  | .tags => Level.plain.invocation? 0 flags (fun _ => some .tags) arguments
  | .version => Level.plain.invocation? 0 flags (fun _ => some .version) arguments
  | .help =>
      match arguments with
      | [] => some (.ofFlags .help flags)
      | [name] => (Subcommand.ofName? name).map fun _ => .ofFlags .help flags
      | _ => none

/-- What the arguments of the program ask for, if they are right. -/
def Invocation.ofArguments? (arguments : List String) : Option Invocation :=
  match Gathered.read 0 (Level.root.scan none arguments) .empty with
  | some (.done g) => some (.ofFlags .introduce g.flags)
  | some .help => some (.ofFlags .help [])
  | some .version => some (.ofFlags .showVersion [])
  | some (.subcommand g name arguments) => name.invocation? g.flags arguments
  | none => none

end Commands

end CommandLine
end Templating
