import TableModels.Text.Pieces

/-! # Paths

A path is a text whose parts are divided by slashes. Empty parts and a single dot change nothing,
except that a dot which the path begins with is kept, so two texts with the same parts are the same
path. A path names a file when its last part is neither a dot nor two dots.

## Implementation notes

The text of a path is kept, because it is shown as it was given. -/

namespace TableModels

/-- A path as it was given. -/
structure Path where
  text : String
  deriving DecidableEq

namespace Path

/-- The path starts at the root. -/
def isAbsolute (path : Path) : Bool :=
  path.text.toList.head? == some '/'

/-- The parts of a path between its slashes, without the empty ones. -/
def segments (path : Path) : List String :=
  ((Text.split (· == '/') path.text.toList).filter (!·.isEmpty)).map String.ofList

/-- The path can only lead to a directory, because a slash ends it. -/
def endsInSlash (path : Path) : Bool :=
  path.text.toList.getLast? == some '/'

/-- The parts of a path that tell where it leads. -/
def components (path : Path) : List String :=
  match path.segments with
  | [] => []
  | first :: rest =>
      let later := rest.filter (· != ".")
      if first == "." && path.isAbsolute then later else first :: later

/-- Two paths are the same when they start at the same place and have the same components. -/
def isSame (path other : Path) : Bool :=
  path.isAbsolute == other.isAbsolute && path.components == other.components

/-- The name of the file that a path leads to. -/
def fileName? (path : Path) : Option String :=
  path.components.getLast?.filter fun name => name != "." && name != ".."

/-- The path with the given components. -/
def ofComponents (absolute : Bool) (components : List String) : Path :=
  ⟨(if absolute then "/" else "") ++ String.intercalate "/" components⟩

/-- The path to the directory of a path. It has no components when that is the working directory. -/
def parent (path : Path) : Path :=
  ofComponents path.isAbsolute path.components.dropLast

/-- The path to a file of the given name beside the path. -/
def sibling (path : Path) (name : String) : Path :=
  ofComponents path.isAbsolute (path.components.dropLast ++ [name])

/-- The path to a name inside the directory that a path leads to. -/
def child (path : Path) (name : String) : Path :=
  if path.text.isEmpty || path.endsInSlash then ⟨path.text ++ name⟩
  else ⟨path.text ++ "/" ++ name⟩

theorem isSame_refl (path : Path) : path.isSame path = true := by
  simp [isSame]

end Path

end TableModels
