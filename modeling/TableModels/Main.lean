import TableModels.Command.Outcome

/-! # The program

Scripts over files are performed on the files of the machine, and a run ends with its outcome: what
it tells on the standard output, or on the standard error output what went wrong, and an exit
code. -/

namespace TableModels

/-- Whether an operation succeeds. -/
def succeeds (operation : IO Unit) : BaseIO Bool := do
  return (← operation.toBaseIO).isOk

/-- Perform a script on the files of the machine. -/
def FileScript.perform {α : Type} : FileScript α → BaseIO α
  | .done value => return value
  | .readFile path next => do
      (next (← (IO.FS.readBinFile path.text).toBaseIO).toOption).perform
  | .isPresent path next => do
      (next (← succeeds (discard (IO.FS.realPath path.text)))).perform
  | .makeDirectories path next => do
      let made ← if path.text.isEmpty then pure true else succeeds (IO.FS.createDirAll path.text)
      (next made).perform
  | .writeFile path content next => do
      (next (← succeeds (IO.FS.writeBinFile path.text content))).perform
  | .renameFile source target next => do
      (next (← succeeds (IO.FS.rename source.text target.text))).perform

/-- The present moment, which a new file tells. -/
def presentMoment : IO Moment := do
  let (_, path) ← IO.FS.createTempFile
  let created := (← path.metadata).modified
  IO.FS.removeFile path
  return ⟨created.sec.toNat, created.nsec.toNat⟩

/-- A stamp for a new run. Nothing is known of the commit of the working directory. -/
def newStamp : IO RunStamp := do
  let bytes ← IO.getRandomBytes 16
  return { id := RunStamp.idOfBytes bytes.toList, startedAt := ← presentMoment }

end TableModels

open TableModels in
/-- Run the program with the arguments of the command line. -/
def main (arguments : List String) : IO UInt32 := do
  let outcome ← (runProgram (← newStamp) arguments).perform
  IO.print outcome.stdout
  IO.eprint outcome.stderr
  return outcome.exitCode
