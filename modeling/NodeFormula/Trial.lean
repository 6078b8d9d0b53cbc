import NodeFormula.Compiler
import NodeFormula.Sample

/-!
# Trials of the stages of compilation

A trial takes formulas through one stage, one after the other, and prints what
comes of each.  In the end it prints how many went through without a gap in the
program itself.
-/

namespace NodeFormula.Trial

variable [Evaluator]

inductive Emphasis
  | bold | good | bad | warning | neutral
deriving DecidableEq, Repr

def Emphasis.code : Emphasis → String
  | .bold => "\x1b[1m"
  | .good => "\x1b[92m"
  | .bad => "\x1b[91m"
  | .warning => "\x1b[93m"
  | .neutral => "\x1b[96m"

def Emphasis.on (emphasis : Emphasis) (text : String) : String := emphasis.code ++ text ++ "\x1b[0m"

def verdict (kind : String) (hasMistakes : Bool) : String :=
  (if hasMistakes then Emphasis.warning.on (kind ++ " errors")
    else Emphasis.neutral.on ("No " ++ kind.map Char.toLower ++ " errors")) ++ "\n"

def messages (reports : List Report) : String := Text.bracketed (reports.map (·.message)) ++ "\n"

/-- What a trial has printed, and how many formulas it took through. -/
structure Progress where
  printed : String
  passed : Nat
  total : Nat

namespace Progress

def start : Progress := ⟨"", 0, 0⟩

def add (progress : Progress) (name : String) (printed : Except Fault String) :
    Except Fault Progress :=
  let title := progress.printed ++ "Testing: " ++ Emphasis.bold.on name ++ ":  "
  match printed with
  | .ok text =>
    .ok ⟨title ++ Emphasis.good.on "No internal errors" ++ "\n" ++ text, progress.passed + 1,
      progress.total + 1⟩
  | .error (.notSupported _) =>
    .ok ⟨title ++ Emphasis.bad.on "Internal errors" ++ "\n", progress.passed, progress.total + 1⟩
  | .error fault => .error fault

def summary (progress : Progress) : String :=
  progress.printed ++ "Tests done: Passed: (" ++ toString progress.passed ++ "/" ++
    toString progress.total ++ ")\n"

end Progress

def tokens (samples : List (String × String)) : String :=
  String.join (samples.map fun sample =>
    "\nTesting: \"" ++ sample.1 ++ "\"\n" ++
      Text.bracketed ((scan sample.2).dropLast.map Token.brief) ++ "\n")

def reading (samples : List (String × String)) : Except Fault String := do
  let progress ← samples.foldlM (fun (progress : Progress) sample =>
    progress.add sample.1 ((parse sample.2).map fun parsed =>
      verdict "Syntax" (!parsed.reports.isEmpty))) .start
  return progress.summary

def checked (checker : Checker) (accepted : Bool) : String :=
  verdict "Type" (!accepted) ++ (if accepted then "" else messages checker.reports) ++
    (TypedStmt.outlineProgram checker.settledBody).render (some ".") ++ "\n"

/-- Check formulas for geometry trees; each knows the functions of those before. -/
def checking (samples : List (String × String)) : Except Fault String := do
  let (progress, _) ← samples.foldlM (fun (state : Progress × FunctionTable) sample => do
    let (checker, outcome) := (Checker.new .geometry state.2).check sample.2
    let progress ← state.1.add sample.1 (outcome.map (checked checker))
    return (progress, checker.functions)) (.start, [])
  return progress.summary

def compiled (outcome : Compiler.Outcome) : String :=
  verdict "Compiler" (!outcome.accepted) ++
    (if outcome.accepted then messages outcome.reports else "") ++
    "\n".intercalate (outcome.operations.map Operation.written) ++ "\n"

def compiling (samples : List (String × String)) : Except Fault String := do
  let progress ← samples.foldlM (fun (progress : Progress) sample =>
    progress.add sample.1 ((Compiler.compile .geometry [] sample.2).2.map compiled)) .start
  return progress.summary

end NodeFormula.Trial
