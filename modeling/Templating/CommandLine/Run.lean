import Templating.CommandLine
import Templating.Config
import Templating.Json.Reader
import Templating.Listing
import Templating.Render

/-!
# Running a command

A command gives a text for the standard output, or fails with a chain of
messages from the failure to its first cause. Nothing but the files and the
clock is seen.

Main definitions: `Failure` and `Command.run`.
-/

namespace Templating
namespace CommandLine

section Failures

/-- Why a command fails. -/
inductive Failure where
  | config (cause : ConfigError)
  | load (template : String) (cause : LoadError)
  | unreadable (path : String) (cause : FileError)
  | invalidToml (path : String)
  | invalidJson (path : String)
  | invalidContext (cause : InvalidContext)
  /-- A variable without an equals sign. -/
  | invalidDefine (text : String)
  | render (template : String) (cause : RenderError)
  /-- A template that could not be rendered within its bound. -/
  | exhausted (template : String)

/-- The messages from the failure to its first cause. -/
def Failure.chain : Failure → List String
  | .config (.io path cause) =>
      [(ConfigError.io path cause).message, cause.message]
  | .config .invalid => [ConfigError.invalid.message]
  | .load template cause => ("failed to load " ++ template) :: cause.chain
  | .unreadable path cause => ["failed to read " ++ path, cause.message]
  | .invalidToml path => ["invalid TOML in " ++ path]
  | .invalidJson path => ["invalid JSON in " ++ path]
  | .invalidContext cause => [cause.message]
  | .invalidDefine text =>
      ["invalid define `" ++ text ++ "`, expected KEY=VALUE"]
  | .render template cause => ("failed to render " ++ template) :: cause.chain
  | .exhausted template => ["failed to render " ++ template]

end Failures

section Rendering

/-- The configuration file that is read when none is named. -/
def configFile : String :=
  "stencil.toml"

/-- The configuration of a request: from its file, strict also if the request is,
and with the directories of the request in front and that of the template
behind. -/
def RenderRequest.loader (request : RenderRequest) (files : FileTree) :
    Except Failure Loader :=
  let config :=
    match request.config with
    | some path => Config.load files path
    | none => Config.loadOrDefault files configFile
  match config with
  | .error e => .error (.config e)
  | .ok c =>
      .ok
        ⟨request.dirs ++ c.dirs ++ (Path.parent? request.template).toList,
          c.strict || request.strict⟩

/-- The value in a context file: TOML if its name says so, else JSON. -/
def readContext (files : FileTree) (path : String) : Except Failure Value :=
  match files.read path with
  | .error e => .error (.unreadable path e)
  | .ok content =>
      if Path.extension? path = some "toml" then
        match Toml.readValue? content with
        | some v => .ok v
        | none => .error (.invalidToml path)
      else
        match Json.read? content with
        | some v => .ok v
        | none => .error (.invalidJson path)

/-- The context from a file, or an empty one. -/
def RenderRequest.baseContext (request : RenderRequest) (files : FileTree) :
    Except Failure Context :=
  match request.context with
  | none => .ok Context.empty
  | some path =>
      match readContext files path with
      | .error e => .error e
      | .ok v =>
          match Context.ofValue v with
          | .ok c => .ok c
          | .error e => .error (.invalidContext e)

/-- The name and the value of a variable, split at the first equals sign. The
name has no blanks at its ends. -/
def splitDefine? (text : String) : Option (String × String) :=
  match text.toList.dropWhile (· != '=') with
  | _ :: value =>
      some
        (Text.trim (String.ofList (text.toList.takeWhile (· != '='))),
          String.ofList value)
  | [] => none

/-- Sets variables one after another. -/
def define : List String → Context → Except Failure Context
  | [], c => .ok c
  | text :: rest, c =>
      match splitDefine? text with
      | some (name, value) => define rest (c.set name (.string value))
      | none => .error (.invalidDefine text)

/-- The template of a request, rendered. -/
def RenderRequest.rendered (request : RenderRequest) (env : Environment) :
    Except Failure Rendered := do
  let loader ← request.loader env.files
  let template ←
    match loader.loadFile env.files request.template with
    | .ok t => .ok t
    | .error e => .error (.load request.template e)
  let base ← request.baseContext env.files
  let context ← define request.defines base
  .ok (template.render env (context.withLoader loader))

/-- The output of a request. -/
def RenderRequest.run (request : RenderRequest) (env : Environment) :
    Except Failure String := do
  let rendered ← request.rendered env
  match rendered.outcome with
  | .ok output => .ok output
  | .error e => .error (.render request.template e)
  | .exhausted => .error (.exhausted request.template)

end Rendering

section Lemmas

/-- What it takes to render a request: a loader, the template, a context, and its
variables. -/
theorem RenderRequest.rendered_eq_ok_iff {request : RenderRequest} {env : Environment}
    {r : Rendered} :
    request.rendered env = .ok r ↔
      ∃ loader t base c, request.loader env.files = .ok loader ∧
        loader.loadFile env.files request.template = .ok t ∧
        request.baseContext env.files = .ok base ∧
        define request.defines base = .ok c ∧
        r = t.render env (c.withLoader loader) := by
  unfold RenderRequest.rendered
  cases hloader : request.loader env.files with
  | error e => simp [bind, Except.bind]
  | ok loader =>
      cases hload : loader.loadFile env.files request.template with
      | error e => simp [bind, Except.bind, hload]
      | ok t =>
          cases hbase : request.baseContext env.files with
          | error e => simp [bind, Except.bind, hload]
          | ok base =>
              cases hdefine : define request.defines base with
              | error e => simp [bind, Except.bind, hload, hdefine]
              | ok c => simp [bind, Except.bind, hload, hdefine, eq_comm]

/-- The output of a request is that of what it renders. -/
theorem RenderRequest.run_eq_ok_iff {request : RenderRequest} {env : Environment}
    {output : String} :
    request.run env = .ok output ↔
      ∃ r, request.rendered env = .ok r ∧ r.outcome = .ok output := by
  unfold RenderRequest.run
  cases hrendered : request.rendered env with
  | error e => simp [bind, Except.bind]
  | ok r => cases houtcome : r.outcome <;> simp [bind, Except.bind, houtcome]

end Lemmas

section Commands

/-- The version of the program. -/
def versionNumber : String :=
  "0.1.0"

/-- How the program is used, one line each. -/
def usageLines : List String :=
  ["Render templates built from pluggable block tags",
    "",
    "Usage: stencil [OPTIONS] [COMMAND]",
    "",
    "Commands:",
    "  render   Render a template file to stdout",
    "  tokens   Print the tokens of a template file",
    "  tags     List the built-in tags",
    "  version  Show version",
    "  help     Print this message",
    "",
    "Options:",
    "  -v, --verbose  Enable verbose output",
    "      --json     Output in JSON format",
    "  -h, --help     Print help",
    "  -V, --version  Print version"]

/-- How the program is used. -/
def usage : String :=
  String.join (usageLines.map (· ++ "\n"))

/-- The tokens of a template. -/
def listTokens (files : FileTree) (template : String) :
    Except Failure Listing :=
  match files.read template with
  | .error e => .error (.unreadable template e)
  | .ok source => .ok ⟨template, Token.tokenize source⟩

/-- What a command writes, as JSON if that is asked for. -/
def Command.run (env : Environment) (json : Bool) :
    Command → Except Failure String
  | .introduce =>
      .ok ("stencil v" ++ versionNumber ++ "\nRun 'stencil --help' for usage\n")
  | .showVersion => .ok ("stencil " ++ versionNumber ++ "\n")
  | .help => .ok usage
  | .render request =>
      (request.run env).map fun output =>
        if json then (Rendering.mk request.template output).json ++ "\n"
        else output
  | .tokens template =>
      (listTokens env.files template).map fun listing =>
        if json then listing.json ++ "\n" else listing.text
  | .tags =>
      let tags := Keyed.keys Tag.builtin
      .ok (if json then tagListingJson tags ++ "\n" else tagListing tags)
  | .version =>
      .ok
        (if json then
          Json.compactText (.object [("version", .string versionNumber)]) ++ "\n"
        else
          "stencil v" ++ versionNumber ++ "\n")

end Commands

end CommandLine
end Templating
