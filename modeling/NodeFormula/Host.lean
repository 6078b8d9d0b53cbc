import NodeFormula.Value

/-!
# The host application

Operators are run by an application.  They ask it to do things, and tell it at
the end whether they are done.
-/

namespace NodeFormula

inductive OperatorResult
  | finished | cancelled | runningModal
deriving DecidableEq, Repr

namespace OperatorResult

def label : OperatorResult → String
  | .finished => "FINISHED"
  | .cancelled => "CANCELLED"
  | .runningModal => "RUNNING_MODAL"

end OperatorResult

/-- A request to the application, with options in the order of their names. -/
structure Request where
  name : String
  arguments : List Value
  options : Option (List (String × Value))

namespace Request

def report (level text : String) : Request := ⟨"report", [.text level, .text text], none⟩

def operator (name : String) (options : List (String × Value)) : Request := ⟨name, [], some options⟩

def addModalHandler : Request := ⟨"modal_handler_add", [], none⟩

def removeDrawHandler : Request := ⟨"draw_handler_remove", [], none⟩

end Request

end NodeFormula
