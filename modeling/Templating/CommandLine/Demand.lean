import Templating.CommandLine.Run

/-!
# The files that a command looks at

A command can be run on a snapshot that holds the files it looks at. Which files
these are is known from the arguments, and then from the files themselves: a
configuration names directories, and a template names templates. If the snapshot
holds all files that are demanded, the command sees the same as on all files.

Main definition: `demanded`.
-/

namespace Templating
namespace CommandLine

section Demand

/-- The paths at which the names that can be included are looked up, as far as
the template, its loader and its context are known. -/
def RenderRequest.includePaths (request : RenderRequest) (files : FileTree) :
    List String :=
  match request.loader files with
  | .error _ => []
  | .ok loader =>
      match loader.loadFile files request.template,
          (request.baseContext files).bind (define request.defines) with
      | .ok template, .ok context =>
          ((includableNames files template.nodes (context.withLoader loader)).filter
            Path.isContained).flatMap loader.candidates
      | _, _ => []

/-- The paths that a command looks at, as far as they are known. -/
def Command.paths (files : FileTree) : Command → List String
  | .render request =>
      (request.config.getD configFile) :: request.template ::
        (request.context.toList ++ request.includePaths files)
  | .tokens template => [template]
  | _ => []

/-- The paths that the program looks at with the given arguments, as far as they
are known. -/
def demanded (arguments : List String) (files : FileTree) : List String :=
  match Invocation.ofArguments? arguments with
  | none => []
  | some invocation => invocation.command.paths files

end Demand

end CommandLine
end Templating
