import NodeFormula.Mesh

/-!
# Sweeps over an input

A sweep sets one input of the active node to evenly spaced values and renders a
picture for each.  The pictures go to numbered paths, and the folder of the
pictures may be emptied of files first.
-/

namespace NodeFormula

open Calculation.Binary

/-- An input of the active node, as the choice of the swept input sees it. -/
structure InputSocket where
  name : String
  label : String
  kind : String
  isEnabled : Bool
  isLinked : Bool
  value : Value

namespace InputSocket

def isSweepable (socket : InputSocket) : Bool :=
  socket.isEnabled && socket.kind == "VALUE" && !socket.isLinked

def title (socket : InputSocket) : String :=
  if socket.label.isEmpty then socket.name else socket.label

end InputSocket

structure Sweep where
  steps : Int
  input : String
  start : Quantity
  finish : Quantity
  clearsFolder : Bool
  namesValues : Bool

structure Frame where
  path : String
  value : Quantity

namespace Sweep

def choices (inputs : List InputSocket) : List String :=
  (inputs.filter InputSocket.isSweepable).map InputSocket.title

def pathParts (path : String) : List String :=
  (path.splitOn "/").filter fun part => part ≠ "" && part ≠ "."

/-- The folder of the pictures; the path may end before the name of a picture. -/
def folderParts (path : String) : List String := (pathParts (path ++ "_")).dropLast

/-- Follow a path from a folder; there is a folder wherever a file lies below. -/
def follow (files : List (List String)) : List String → List String → Option (List String)
  | folder, [] => some folder
  | folder, part :: rest =>
    if part = ".." then
      if folder.isEmpty then none else follow files folder.dropLast rest
    else
      let next := folder ++ [part]
      if files.any fun file => next.isPrefixOf file && next.length < file.length then
        follow files next rest
      else none

def cleared (files : List (List String)) (path : String) : List (List String) :=
  if path.startsWith "/" then files
  else
    match follow files [] (folderParts path) with
    | some folder => files.filter fun file => file.dropLast ≠ folder
    | none => files

def filesLeft (sweep : Sweep) (files : List (List String)) (path : String) : List (List String) :=
  if sweep.clearsFolder then cleared files path else files

def valueAt (sweep : Sweep) (step : Nat) : Except Calculation.Problem Quantity := do
  let span ← sub.apply sweep.finish sweep.start
  let slope ← div.apply span (.int (sweep.steps - 1))
  let offset ← mul.apply slope (.int step)
  add.apply sweep.start offset

def shownValue : Quantity → String
  | .float value =>
    match Number.ExactFloat.ofFloat? value with
    | some exact => String.ofList (exact.fixed 2)
    | none => Number.showFloat value
  | other => other.written

def framePath (sweep : Sweep) (path : String) (step : Nat) (value : Quantity) : String :=
  let number := toString (step + 1)
  if sweep.namesValues then
    path ++ "_(" ++ sweep.input ++ "_" ++ number ++ "=" ++ shownValue value ++ ")"
  else path ++ number

def frameAt (sweep : Sweep) (path : String) (step : Nat) : Except Calculation.Problem Frame := do
  let value ← sweep.valueAt step
  return ⟨sweep.framePath path step value, value⟩

def frames (sweep : Sweep) (inputs : Option (List InputSocket)) (path : String) :
    Except Fault (List Frame) :=
  match inputs with
  | none => .error (.noAttribute "NoneType" "inputs")
  | some inputs =>
    if inputs.any fun socket => socket.name == sweep.input then
      calculated ((List.range sweep.steps.toNat).mapM (sweep.frameAt path))
    else .error (.unknownKey sweep.input)

def requests (frames : List Frame) : List Request :=
  frames.map (fun _ => .operator "render.render" [("write_still", .bool true)]) ++
    [.report "INFO" "Finished Rendering"]

end Sweep

end NodeFormula
