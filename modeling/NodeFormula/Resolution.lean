import NodeFormula.Text.EditDistance
import NodeFormula.TreeKind
import NodeFormula.Typed

/-!
# Resolving calls

A function name stands for nodes of the catalog and functions of the user.  The candidate with the
least total conversion price is taken, the first of several; arguments that are left out cost
nothing, and too many arguments never match.
-/

namespace NodeFormula

inductive Callable
  | node (recipe : NodeRecipe)
  | function (definition : TypedFunction)

namespace NodeRecipe

def shape (recipe : NodeRecipe) : NodeShape := (Catalog.shape? recipe.key).getD ⟨[], []⟩

def inputTypes (recipe : NodeRecipe) : List DataType :=
  recipe.inputs.map fun index => (recipe.shape.inputs.getD index ("", .unknown)).2

def results (recipe : NodeRecipe) : List (String × DataType) :=
  recipe.outputs.map fun index => recipe.shape.outputs.getD index ("", .unknown)

end NodeRecipe

namespace Callable

def inputTypes : Callable → List DataType
  | .node recipe => recipe.inputTypes
  | .function definition => definition.inputs.map (·.type)

def results : Callable → List (String × DataType)
  | .node recipe => recipe.results
  | .function definition => definition.outputs.map fun output => (output.name, output.type)

end Callable

def totalPenalty (arguments parameters : List DataType) : Nat :=
  (arguments.zip parameters).foldr (fun pair cost => pair.1.penalty pair.2 + cost) 0

def candidatePenalty? (arguments parameters : List DataType) : Option Nat :=
  if parameters.length < arguments.length then none else some (totalPenalty arguments parameters)

/--
The index of the cheapest candidate from `index` on, given the price `best` to beat and the
candidate `found` that has it.
-/
def cheapestFrom (arguments : List DataType) (index best : Nat) (found : Option Nat) :
    List (List DataType) → Option Nat
  | [] => found
  | parameters :: rest =>
    match candidatePenalty? arguments parameters with
    | none => cheapestFrom arguments (index + 1) best found rest
    | some price =>
      if price < best then
        if price = 0 then some index
        else cheapestFrom arguments (index + 1) price (some index) rest
      else cheapestFrom arguments (index + 1) best found rest

/-- The first candidate of least price, if that price is below a thousand. -/
def cheapest? (arguments : List DataType) (candidates : List (List DataType)) : Option Nat :=
  cheapestFrom arguments 0 1000 none candidates

namespace TreeKind

def recipeOf (kind : TreeKind) : Candidate → NodeRecipe
  | .alias name => (kind.alias? name).getD ⟨name, [], [], []⟩
  | .direct recipe => recipe

def fromTable (kind : TreeKind) (table : List (String × List Candidate)) (name : String) :
    List Callable :=
  ((table.lookup name).getD []).map fun candidate => .node (kind.recipeOf candidate)

/-- Everything that goes by a name; aliases only when there is nothing else. -/
def candidates (kind : TreeKind) (functions : FunctionTable) (name : String) : List Callable :=
  let found := kind.fromTable kind.overloads name ++ kind.fromTable Catalog.sharedOverloads name ++
    ((functions.lookup name).getD []).map .function
  if found.isEmpty then
    ((kind.ownAliases.lookup name).toList ++ (Catalog.sharedAliases.lookup name).toList).map .node
  else found

def knownNames (kind : TreeKind) (functions : FunctionTable) : List String :=
  kind.overloads.map (·.1) ++ Catalog.sharedOverloads.map (·.1) ++ functions.map (·.1) ++
    kind.ownAliases.map (·.1) ++ Catalog.sharedAliases.map (·.1)

def nearest (kind : TreeKind) (functions : FunctionTable) (name : String) : List String :=
  let measured := (kind.knownNames functions).map fun known => (Text.editDistance name known, known)
  (measured.mergeSort fun left right => left.1 ≤ right.1).map (·.2)

def unknownFunction (kind : TreeKind) (functions : FunctionTable) (name : String) : String :=
  match kind.nearest functions name with
  | first :: second :: _ =>
    "No function named \"" ++ name ++ "\" found. Did you mean \"" ++ first ++ "\" or \"" ++
      second ++ "\"?"
  | _ => "No function named \"" ++ name ++ "\" found."

def noInstance (name : String) (arguments : List DataType) : String :=
  "Couldn't find find instance of function \"" ++ name ++ "\" with arguments " ++
    Text.bracketed (arguments.map DataType.shown)

def choose? (candidates : List Callable) (arguments : List DataType) : Option Callable :=
  (cheapest? arguments (candidates.map Callable.inputTypes)).bind (candidates[·]?)

end TreeKind

end NodeFormula
