import TableModels.Files.FileTree

/-! # Scripts over files

A script asks for one file operation after the other and goes on with what it is told. The same
script can be run on a tree of files and performed on the files of a machine.

## Implementation notes

Each request is a constructor of its own, with a continuation that waits for the answer. A write is
answered by whether it succeeded. -/

namespace TableModels

/-- A script that ends with a value. -/
inductive FileScript (α : Type) where
  | done (value : α)
  /-- Ask for the content of a file. -/
  | readFile (path : Path) (next : Option ByteArray → FileScript α)
  /-- Ask whether a path leads anywhere. -/
  | isPresent (path : Path) (next : Bool → FileScript α)
  /-- Make a directory with all those above it. -/
  | makeDirectories (path : Path) (next : Bool → FileScript α)
  /-- Make a file or replace its content. -/
  | writeFile (path : Path) (content : ByteArray) (next : Bool → FileScript α)
  /-- Move a file, replacing the file that is there. -/
  | renameFile (source target : Path) (next : Bool → FileScript α)

namespace FileScript

variable {α β : Type}

/-- One script, and then the script that its value leads to. -/
def bind (script : FileScript α) (next : α → FileScript β) : FileScript β :=
  match script with
  | done value => next value
  | readFile path resume => .readFile path fun answer => (resume answer).bind next
  | isPresent path resume => .isPresent path fun answer => (resume answer).bind next
  | makeDirectories path resume => .makeDirectories path fun answer => (resume answer).bind next
  | writeFile path content resume =>
      .writeFile path content fun answer => (resume answer).bind next
  | renameFile source target resume =>
      .renameFile source target fun answer => (resume answer).bind next

instance : Monad FileScript where
  pure := done
  bind := bind

theorem bind_done (script : FileScript α) : script.bind done = script := by
  induction script with
  | done value => rfl
  | readFile path resume ih => exact congrArg (FileScript.readFile path) (funext ih)
  | isPresent path resume ih => exact congrArg (FileScript.isPresent path) (funext ih)
  | makeDirectories path resume ih => exact congrArg (FileScript.makeDirectories path) (funext ih)
  | writeFile path content resume ih =>
      exact congrArg (FileScript.writeFile path content) (funext ih)
  | renameFile source target resume ih =>
      exact congrArg (FileScript.renameFile source target) (funext ih)

theorem bind_assoc {γ : Type} (script : FileScript α) (next : α → FileScript β)
    (last : β → FileScript γ) :
    (script.bind next).bind last = script.bind fun value => (next value).bind last := by
  induction script with
  | done value => rfl
  | readFile path resume ih => exact congrArg (FileScript.readFile path) (funext ih)
  | isPresent path resume ih => exact congrArg (FileScript.isPresent path) (funext ih)
  | makeDirectories path resume ih => exact congrArg (FileScript.makeDirectories path) (funext ih)
  | writeFile path content resume ih =>
      exact congrArg (FileScript.writeFile path content) (funext ih)
  | renameFile source target resume ih =>
      exact congrArg (FileScript.renameFile source target) (funext ih)

instance : LawfulMonad FileScript :=
  LawfulMonad.mk' _ bind_done (fun _ _ => rfl) bind_assoc

/-- The value of a script run on a tree, and the tree afterwards. -/
def run (tree : FileTree) : FileScript α → α × FileTree
  | done value => (value, tree)
  | readFile path next => run tree (next (tree.read? path))
  | isPresent path next => run tree (next (tree.find? path).isSome)
  | makeDirectories path next =>
      let (made, after) := tree.makeDirectories path
      run after (next made)
  | writeFile path content next =>
      match tree.write? path content with
      | some after => run after (next true)
      | none => run tree (next false)
  | renameFile source target next =>
      match tree.rename? source target with
      | some after => run after (next true)
      | none => run tree (next false)

theorem run_bind (tree : FileTree) (script : FileScript α) (next : α → FileScript β) :
    (script.bind next).run tree = (next (script.run tree).1).run (script.run tree).2 := by
  induction script generalizing tree with
  | done value => rfl
  | readFile path resume ih => exact ih _ tree
  | isPresent path resume ih => exact ih _ tree
  | makeDirectories path resume ih => exact ih _ _
  | writeFile path content resume ih =>
      simp only [bind, run]
      split <;> exact ih _ _
  | renameFile source target resume ih =>
      simp only [bind, run]
      split <;> exact ih _ _

/-- Read the text of a file, if the file is there and holds text. -/
def readText (path : Path) : FileScript (Option String) :=
  readFile path fun content => done (content.bind String.fromUTF8?)

/-- Read the text of a file, or fail. -/
def readTextOr {ε : Type} (error : ε) (path : Path) : ExceptT ε FileScript String := do
  match ← (readText path : FileScript _) with
  | some text => return text
  | none => throw error

end FileScript

end TableModels
