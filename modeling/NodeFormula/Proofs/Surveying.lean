import Mathlib.Data.List.Forall2
import Mathlib.Data.List.Lex
import NodeFormula.Survey

/-!
# Surveys go through all choices

The combinations of items that a node takes, one for each property, are gone through in
lexicographic order.  An alias is found for each, with the items that the node has at that moment,
and in the end the node has the items back that it had before.
-/

namespace NodeFormula

open List

variable {settings : Settings} {property : SurveyProperty} {properties : List SurveyProperty}

namespace Settings

/-- The settings with all these items chosen. -/
def chooseAll (settings : Settings) (pairs : List (String × String)) : Settings :=
  pairs.foldl (fun settings pair => settings.choose pair.1 pair.2) settings

end Settings

/-- An item that the node takes, with its place. -/
def SurveyProperty.Takes (property : SurveyProperty) (entry : (String × String) × Nat) : Prop :=
  property.items[entry.2]? = some entry.1 ∧ entry.1.1 ∉ property.refused

namespace Survey

/-- Items with their places, one for each of some properties. -/
abbrev Combination := List ((String × String) × Nat)

def combinations : List SurveyProperty → List Combination
  | [] => [[]]
  | property :: properties => property.items.zipIdx.flatMap fun entry =>
    if entry.1.1 ∈ property.refused then [] else (combinations properties).map (entry :: ·)

def nameOf (name : String) (combination : Combination) : String :=
  combination.foldl (fun name entry => name ++ "_" ++ identifier entry.1.2) name

def recorded (properties : List SurveyProperty) (combination : Combination) :
    List (String × String) :=
  zipWith (fun property entry => (property.identifier, entry.1.1)) properties combination

def found (node : SurveyNode) (properties : List SurveyProperty) (name : String)
    (before : List (String × String)) (settings : Settings) : List (String × NodeRecipe) :=
  (combinations properties).map fun combination =>
    aliasOf node (nameOf name combination) (before ++ recorded properties combination)
      (settings.chooseAll (recorded properties combination))

/-- What some property is to get back is refused. -/
def Stuck (settings : Settings) (properties : List SurveyProperty) : Prop :=
  ∃ property ∈ properties, property.items ≠ [] ∧
    ∃ former ∈ settings property.identifier, former ∈ property.refused

/-- The node has its settings, and the places of the properties before are still the same. -/
structure Keeps (settings : Settings) (places : List Nat) (count : Nat) (progress : Progress) :
    Prop where
  settings : progress.settings = settings
  places : ∃ tail, tail.length = count ∧ progress.places = places ++ tail

end Survey

end NodeFormula
