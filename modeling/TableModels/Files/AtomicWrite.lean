import TableModels.Files.FileScript

/-! # Atomic writes

A file is replaced by writing a temporary file beside it and moving that to its place, so that at
every moment the file has either its old content or its new one. When the move fails the temporary
file stays. -/

namespace TableModels

/-- Why an atomic write failed. -/
inductive WriteError where
  /-- A file operation failed. -/
  | io
  /-- The path names no file. -/
  | invalidPath (path : Path)
  deriving DecidableEq

/-- The path of the temporary file beside a path that names a file. -/
def temporaryPath? (path : Path) : Option Path :=
  path.fileName?.map fun name => path.sibling ("." ++ name ++ ".tmp")

/-- Replace the content of a file, making the directories above it. -/
def writeAtomically (path : Path) (content : ByteArray) : ExceptT WriteError FileScript Unit := do
  unless ← (.makeDirectories path.parent .done : FileScript Bool) do
    throw .io
  match temporaryPath? path with
  | none => throw (.invalidPath path)
  | some temporary =>
      unless ← (.writeFile temporary content .done : FileScript Bool) do
        throw .io
      unless ← (.renameFile temporary path .done : FileScript Bool) do
        throw .io

end TableModels
