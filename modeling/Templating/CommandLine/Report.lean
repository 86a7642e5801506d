import Templating.CommandLine.Run
import Templating.Notice

/-!
# Reports

What the program writes to the standard output and to the standard error, and
the code it ends with. Notices are written if they are asked for, and in front of
the message of a failure.

Main definitions: `Command.notices`, `Report`, and `CommandLine.run`.
-/

namespace Templating
namespace CommandLine

section Notices

/-- What there is to tell of loading the configuration, if that succeeds. -/
def RenderRequest.configNotices (request : RenderRequest) (files : FileTree) :
    List Notice :=
  match request.config with
  | some path => [.configured path]
  | none => if files.exists? configFile then [.configured configFile] else []

/-- What there is to tell of a request. -/
def RenderRequest.notices (request : RenderRequest) (env : Environment) :
    List Notice :=
  match request.loader env.files with
  | .error _ => []
  | .ok loader =>
      let inclusions :=
        match request.rendered env with
        | .error _ => []
        | .ok rendered => rendered.inclusions
      request.configNotices env.files ++
        loader.fileNotices env.files request.template ++
        inclusions.flatMap (loader.inclusionNotices env.files)

/-- What there is to tell of a command. -/
def Command.notices (env : Environment) : Command → List Notice
  | .render request => request.notices env
  | _ => []

end Notices

section Reports

/-- What the program writes, and the code it ends with. -/
structure Report where
  code : Nat
  stdout : String
  stderr : String
deriving DecidableEq, Repr

/-- Runs the program with the given arguments. -/
def run (env : Environment) (arguments : List String) : Report :=
  match Invocation.ofArguments? arguments with
  | none => ⟨2, "", "usage error\n"⟩
  | some invocation =>
      let notices :=
        if invocation.verbose then
          String.join ((invocation.command.notices env).map Notice.text)
        else ""
      match invocation.command.run env invocation.json with
      | .ok output => ⟨0, output, notices⟩
      | .error e =>
          ⟨1, "", notices ++ "error: " ++ ": ".intercalate e.chain ++ "\n"⟩

end Reports

end CommandLine
end Templating
