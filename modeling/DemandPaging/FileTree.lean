import DemandPaging.HostError

/-!
# The directories of a host

A path is walked name by name, from the root or from the working directory.
Every name on the way has to be a directory or a link to one. Places are kept
innermost name first, so that the directory around a place is its tail.
-/

namespace DemandPaging

/-- The place of a directory: its name, followed by the names of the directories around it. -/
abbrev Place := List String

/-- The directories of a host. -/
structure FileTree where
  /-- The directories in which files can be created. -/
  directories : List Place
  /-- The directories that take no new files. -/
  closed : List Place
  /-- The links, each with the path that stands for it. -/
  links : List (Place × String)
  /-- The directory in which relative paths start. -/
  workingDirectory : Place

namespace FileTree

/-- Bytes in the longest path. -/
abbrev pathLimit : Nat := 4095

/-- Links that are followed on one path. -/
abbrev linkLimit : Nat := 40

/-- There is a directory at a place. -/
def isDirectory (t : FileTree) (p : Place) : Bool := t.directories.contains p || t.closed.contains p

/-- The names in a path. -/
def names (path : String) : List String := path.splitOn "/"

/-- The directory in which a path starts, if relative paths start at `p`. -/
def startOf (path : String) (p : Place) : Place := if path.startsWith "/" then [] else p

/-- Walk along a list of names from the directory at `p` and follow at most `links` links. The path of a link is walked
in its place, from the directory that holds it. -/
def walk (t : FileTree) (links : Nat) (p : Place) : List String → Except HostError Place
  | [] => .ok p
  | name :: rest =>
    if name = "" ∨ name = "." then walk t links p rest
    else if name = ".." then walk t links p.tail rest
    else match t.links.lookup (name :: p), links with
      | some path, links + 1 => walk t links (startOf path p) (names path ++ rest)
      | some _, 0 => .error .tooManyLinks
      | none, links =>
        if t.isDirectory (name :: p) then walk t links (name :: p) rest else .error .notFound
termination_by l => (links, l.length)

/-- The place of the directory to which a path leads. -/
def resolve (t : FileTree) (path : String) : Except HostError Place :=
  if pathLimit < path.utf8ByteSize then .error .nameTooLong
  else t.walk linkLimit (startOf path t.workingDirectory) (names path)

/-- Why no file can be created in the directory to which a path leads. -/
def refusal (t : FileTree) (path : String) : Option HostError :=
  match t.resolve path with
  | .error e => some e
  | .ok p => if t.closed.contains p then some .permissionDenied else none

end FileTree

end DemandPaging
