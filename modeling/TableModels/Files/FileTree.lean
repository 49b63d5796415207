import TableModels.Files.Path

/-! # Trees of files

Directories and regular files below a root, and what reading, writing and renaming do to them. Each
operation either does its whole work or, when it fails, leaves the tree as it was; only the making
of directories may stop halfway, and then the directories made so far stay.

## Implementation notes

A place is the list of names that leads from the root to a node. The root and the working directory
are directories without being listed. Paths are followed name by name: each name but the last must
be that of a directory, and two dots lead to the directory above. -/

namespace TableModels

/-- What stands at a place. -/
inductive FileNode where
  | directory
  | file (content : ByteArray)

/-- The names that lead from the root to a node. -/
abbrev Place := List String

/-- A tree of files with its working directory. -/
structure FileTree where
  workingDirectory : Place
  nodes : List (Place × FileNode)

namespace FileTree

/-- The node at a place. -/
def node? (tree : FileTree) (place : Place) : Option FileNode :=
  if place.isPrefixOf tree.workingDirectory then some .directory else tree.nodes.lookup place

/-- There is a directory at a place. -/
def isDirectory (tree : FileTree) (place : Place) : Bool :=
  match tree.node? place with
  | some .directory => true
  | _ => false

/-- The tree with a node put at a place. -/
def put (tree : FileTree) (place : Place) (node : FileNode) : FileTree :=
  { tree with nodes := (place, node) :: tree.nodes.filter (·.1 != place) }

/-- The tree without the node at a place. -/
def erase (tree : FileTree) (place : Place) : FileTree :=
  { tree with nodes := tree.nodes.filter (·.1 != place) }

/-- The directory that names lead to from a directory. -/
def follow? (tree : FileTree) (place : Place) : List String → Option Place
  | [] => some place
  | name :: rest =>
      if name = "." then tree.follow? place rest
      else if name = ".." then tree.follow? place.dropLast rest
      else if tree.isDirectory (place ++ [name]) then tree.follow? (place ++ [name]) rest
      else none

/-- The directory at which a path starts. -/
def start (tree : FileTree) (path : Path) : Place :=
  if path.isAbsolute then [] else tree.workingDirectory

/-- The place that a path leads to, at which nothing need stand. -/
def locate? (tree : FileTree) (path : Path) : Option Place :=
  if path.text.isEmpty || path.text.toList.contains '\x00' then
    none
  else
    match path.segments.getLast? with
    | none => some []
    | some last =>
        match tree.follow? (tree.start path) path.segments.dropLast with
        | none => none
        | some place =>
            if last = "." then some place
            else if last = ".." then some place.dropLast
            else some (place ++ [last])

/-- The node that a path leads to. -/
def find? (tree : FileTree) (path : Path) : Option FileNode :=
  match (tree.locate? path).bind tree.node? with
  | some (.file content) => if path.endsInSlash then none else some (.file content)
  | found => found

/-- The content of the file that a path leads to. -/
def read? (tree : FileTree) (path : Path) : Option ByteArray :=
  match tree.find? path with
  | some (.file content) => some content
  | _ => none

/-- The tree in which the path leads to a file with the given content. -/
def write? (tree : FileTree) (path : Path) (content : ByteArray) : Option FileTree :=
  match tree.locate? path with
  | none => none
  | some place =>
      if path.endsInSlash || tree.isDirectory place then none
      else some (tree.put place (.file content))

/-- The tree in which the file at one path has moved to another, where it replaces a file but no
directory. -/
def rename? (tree : FileTree) (source target : Path) : Option FileTree :=
  match tree.locate? source, tree.read? source, tree.locate? target with
  | some fromPlace, some content, some toPlace =>
      if target.endsInSlash || tree.isDirectory toPlace then none
      else some ((tree.erase fromPlace).put toPlace (.file content))
  | _, _, _ => none

/-- Make the directories that names lead to from a directory, as far as no file is in the way. -/
def makeAlong (tree : FileTree) (place : Place) : List String → Bool × FileTree
  | [] => (true, tree)
  | name :: rest =>
      if name = "." then tree.makeAlong place rest
      else if name = ".." then tree.makeAlong place.dropLast rest
      else
        match tree.node? (place ++ [name]) with
        | some .directory => tree.makeAlong (place ++ [name]) rest
        | some (.file _) => (false, tree)
        | none => (tree.put (place ++ [name]) .directory).makeAlong (place ++ [name]) rest

/-- Make the directory that a path leads to with all those above it, and tell whether it is there
now. -/
def makeDirectories (tree : FileTree) (path : Path) : Bool × FileTree :=
  if path.text.toList.contains '\x00' then (false, tree)
  else tree.makeAlong (tree.start path) path.segments

theorem lookup_filter_ne {nodes : List (Place × FileNode)} {place other : Place}
    (h : other ≠ place) : (nodes.filter (·.1 != place)).lookup other = nodes.lookup other := by
  induction nodes with
  | nil => rfl
  | cons first rest ih =>
      obtain ⟨here, node⟩ := first
      by_cases hhere : here = place
      · subst hhere
        have hne : (other == here) = false := by simpa using h
        simp [ih, List.lookup_cons, hne]
      · by_cases hother : other = here
        · subst hother
          simp [hhere]
        · have hne : (other == here) = false := by simpa using hother
          simp [hhere, List.lookup_cons, hne, ih]

theorem node?_put_of_ne (tree : FileTree) {place other : Place} (node : FileNode)
    (h : other ≠ place) : (tree.put place node).node? other = tree.node? other := by
  have hne : (other == place) = false := by simpa using h
  simp [node?, put, List.lookup_cons, hne, lookup_filter_ne h]

theorem node?_put_self (tree : FileTree) {place : Place} (node : FileNode)
    (h : tree.isDirectory place = false) : (tree.put place node).node? place = some node := by
  have hprefix : place.isPrefixOf tree.workingDirectory = false := by
    rw [Bool.eq_false_iff]
    intro hp
    simp [isDirectory, node?, hp] at h
  simp [node?, put, hprefix]

theorem node?_erase_of_ne (tree : FileTree) {place other : Place} (h : other ≠ place) :
    (tree.erase place).node? other = tree.node? other := by
  simp [node?, erase, lookup_filter_ne h]

end FileTree

end TableModels
