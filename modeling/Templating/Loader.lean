import Templating.FileTree

/-!
# Where templates are looked up

A loader has an ordered list of search directories. A name is looked up in each
of them in turn, and the first regular file is taken.

Main definitions: `Loader` and `Loader.find?`.
-/

namespace Templating

section Loader

/-- Search directories, and whether the templates found in them are parsed
strictly. -/
structure Loader where
  dirs : List String
  strict : Bool
deriving DecidableEq, Repr

namespace Loader

/-- The paths that a name can stand for, in the order of the search. -/
def candidates (loader : Loader) (name : String) : List String :=
  loader.dirs.map fun dir => Path.join dir name

/-- The file that a name stands for. A name that could leave the search
directories stands for none. -/
def find? (loader : Loader) (files : FileTree) (name : String) :
    Option String :=
  if Path.isContained name then
    (loader.candidates name).find? files.isFile
  else
    none

end Loader

end Loader

end Templating
