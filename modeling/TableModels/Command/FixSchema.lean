import TableModels.Command.Failure
import TableModels.Command.Invocation
import TableModels.Document.Repair

/-! # The repair command

A document is repaired in its place or written elsewhere. A document that needs no repair is not
written to its own place again. -/

namespace TableModels

/-- The path to which the repaired document goes. -/
def FixSchemaArguments.target (arguments : FixSchemaArguments) : Path :=
  arguments.output.getD arguments.path

/-- Repair a document, and tell what has been done. -/
def performFixSchema (arguments : FixSchemaArguments) :
    ExceptT CommandError FileScript String := do
  let text ← FileScript.readTextOr (.read arguments.path) arguments.path
  let repair := Document.repair text
  if repair.repaired > 0 || !arguments.target.isSame arguments.path then
    (writeAtomically arguments.target repair.text.toUTF8).adapt .output
  return s!"Repaired {repair.repaired} model block(s): {arguments.target.text}\n"

end TableModels
