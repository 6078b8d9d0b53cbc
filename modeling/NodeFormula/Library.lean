import NodeFormula.Compiler
import NodeFormula.Host
import NodeFormula.Library.Standard

/-!
# Libraries of functions

A library holds the functions of the user for each kind of tree.  It is loaded from a folder of
formula files, in the order of their names, and kept there in two caches.
-/

namespace NodeFormula

/-- The functions of the user for each kind of tree. -/
structure Library where
  geometry : FunctionTable
  shader : FunctionTable

inductive Document
  | text (source : String)
  | cache (functions : FunctionTable)

/-- The files of a folder by name, in the order of the names. -/
abbrev Folder := List (String × Document)

abbrev FileReports := String × List Report

namespace Folder

def write (folder : Folder) (name : String) (document : Document) : Folder :=
  folder.takeWhile (·.1 < name) ++ (name, document) ::
    (folder.dropWhile (·.1 < name)).dropWhile (·.1 == name)

def erase (folder : Folder) (name : String) : Folder := folder.filter (·.1 != name)

end Folder

def unifyLineEnds : List Char → List Char
  | '\r' :: '\n' :: rest => '\n' :: unifyLineEnds rest
  | '\r' :: rest => '\n' :: unifyLineEnds rest
  | char :: rest => char :: unifyLineEnds rest
  | [] => []

namespace Library

variable [Evaluator]

def empty : Library := ⟨[], []⟩

def functions (library : Library) : TreeKind → FunctionTable
  | .geometry => library.geometry
  | .shader => library.shader

def withFunctions (library : Library) (kind : TreeKind) (functions : FunctionTable) : Library :=
  match kind with
  | .geometry => { library with geometry := functions }
  | .shader => { library with shader := functions }

def count (library : Library) : Nat :=
  (library.geometry ++ library.shader).foldr (·.2.length + ·) 0

/-- Compile a formula for a named kind of tree and keep the functions it defines. -/
def compile (library : Library) (kind : String) (source : String) :
    Library × Except Fault Compiler.Outcome :=
  match TreeKind.ofLabel kind with
  | .error fault => (library, .error fault)
  | .ok kind =>
    let (functions, outcome) := Compiler.compile kind (library.functions kind) source
    (library.withFunctions kind functions, outcome)

def cacheMark : String := "cache"

def geometryMark : String := "_gn"

def shaderMark : String := "_sh"

def isCache (name : String) : Bool := name.startsWith cacheMark

def isForGeometry (name : String) : Bool := name.endsWith geometryMark || !name.endsWith shaderMark

def isForShader (name : String) : Bool := name.endsWith shaderMark || !name.endsWith geometryMark

def readCaches (library : Library) : Folder → Library × Except Fault Unit
  | [] => (library, .ok ())
  | (name, document) :: rest =>
    if !isCache name then library.readCaches rest
    else
      match document with
      | .text source => (library, .error (.unreadableCache source.isEmpty))
      | .cache functions =>
        if name.endsWith geometryMark then
          { library with geometry := functions }.readCaches rest
        else if name.endsWith shaderMark then
          { library with shader := functions }.readCaches rest
        else library.readCaches rest

structure Loading where
  geometry : Checker
  shader : Checker
  problems : List FileReports

def checkFile (applies : Bool) (checker : Checker) (name source : String) :
    Except Fault (Checker × List FileReports) :=
  if applies then
    match checker.check source with
    | (_, .error fault) => .error fault
    | (checker, .ok _) =>
      .ok (checker, if checker.reports.isEmpty then [] else [(name, checker.reports)])
  else .ok (checker, [])

def checkFiles (loading : Loading) : Folder → Except Fault Loading
  | [] => .ok loading
  | (name, document) :: rest =>
    if isCache name then checkFiles loading rest
    else do
      let source := match document with
        | .text source => String.ofList (unifyLineEnds source.toList)
        | .cache _ => ""
      let (geometry, first) ← checkFile (isForGeometry name) loading.geometry name source
      let (shader, second) ← checkFile (isForShader name) loading.shader name source
      checkFiles ⟨geometry, shader, loading.problems ++ first ++ second⟩ rest

def load (folder : Folder) (force : Bool) :
    Folder × Library × Except Fault (List FileReports) :=
  if !force then
    let (library, result) := empty.readCaches folder
    (folder, library, result.map fun _ => [])
  else
    match checkFiles ⟨.new .geometry [], .new .shader [], []⟩ folder with
    | .error fault => (folder, empty, .error fault)
    | .ok loading =>
      if !loading.problems.isEmpty then (folder, empty, .ok loading.problems)
      else
        let library : Library := ⟨loading.geometry.functions, loading.shader.functions⟩
        let folder := (folder.write (cacheMark ++ geometryMark) (.cache library.geometry)).write
          (cacheMark ++ shaderMark) (.cache library.shader)
        (folder, library, .ok [])

/-- Load a library for the user, who is told how many functions it has. -/
def loadOperator (folder : Folder) (force : Bool) :
    Folder × Library × Except Fault (OperatorResult × List Request) :=
  match load folder force with
  | (folder, library, .error fault) => (folder, library, .error fault)
  | (folder, library, .ok []) =>
    (folder, library, .ok (.finished, [.report "INFO" ("Succesfully loaded " ++
      Number.showInt library.count ++ " custom implementations.")]))
  | (folder, _, .ok (_ :: _)) =>
    (folder, empty, .ok (.cancelled,
      [.report "ERROR" "Errors when loading macros. See console for more details."]))

end Library

end NodeFormula
