import NodeFormula.TreeKind

/-!
# Surveys of the nodes

The catalog is made from the nodes that the application offers.  Which sockets of a node are
enabled depends on the items chosen for its properties.  The survey goes through all choices, one
property after the other, and writes down an alias for each; a property that was changed gets its
former item back.
-/

namespace NodeFormula

structure SurveySocket where
  name : String
  kind : String
  /-- It is enabled while each of these properties has one of the items beside it. -/
  conditions : List (String × List String)

structure SurveyProperty where
  identifier : String
  kind : String
  isReadOnly : Bool
  items : List (String × String)
  /-- The item that a new node has. -/
  initial : Option String
  /-- The items that the node refuses. -/
  refused : List String

structure SurveyNode where
  key : String
  label : String
  kinds : List TreeKind
  inputs : List SurveySocket
  outputs : List SurveySocket
  properties : List SurveyProperty

/-- The items that the properties of a node have. -/
abbrev Settings := String → Option String

namespace Settings

def choose (settings : Settings) (identifier item : String) : Settings := fun other =>
  if other = identifier then some item else settings other

def fulfils (settings : Settings) (condition : String × List String) : Bool :=
  match settings condition.1 with
  | some item => condition.2.contains item
  | none => false

def enabled (settings : Settings) (sockets : List SurveySocket) : List Nat :=
  (sockets.zipIdx.filter fun entry => entry.1.conditions.all settings.fulfils).map (·.2)

end Settings

namespace SurveyProperty

def set? (property : SurveyProperty) (item : String) (settings : Settings) : Option Settings :=
  if property.refused.contains item then none else some (settings.choose property.identifier item)

end SurveyProperty

namespace Survey

def socketType? : String → Option DataType
  | "VALUE" => some .float
  | "INT" => some .int
  | "BOOLEAN" => some .bool
  | "VECTOR" => some .vec3
  | "STRING" => some .string
  | "RGBA" => some .rgba
  | "SHADER" => some .shader
  | "OBJECT" => some .object
  | "IMAGE" => some .image
  | "GEOMETRY" => some .geometry
  | "COLLECTION" => some .collection
  | "TEXTURE" => some .texture
  | "MATERIAL" => some .material
  | _ => none

def addToWords (c : Char) (words : List (List Char)) : List (List Char) :=
  if Text.isBlank c then [] :: words
  else
    match words with
    | [] => [[c]]
    | word :: rest => (c :: word) :: rest

def words (text : List Char) : List (List Char) :=
  (text.foldr addToWords []).filter fun word => !word.isEmpty

def identifierChars (c : Char) : List Char :=
  if c == '/' || c == '-' || c == '&' then ['_']
  else (Text.toSmall c).filter fun c => Text.isLetter c || Text.isNumeral c || c == '_'

def identifier (label : String) : String :=
  String.ofList ((['_'].intercalate (words label.toList)).flatMap identifierChars)

def mentions (text part : String) : Bool := (text.splitOn part).length > 1

def isSurveyed (key : String) : Bool :=
  mentions key "Node" && !mentions key "Group" &&
    (key.startsWith "Shader" || key.startsWith "Geometry" || key.startsWith "Function")

def homeOf (key : String) : TreeKind := if key.startsWith "Shader" then .shader else .geometry

/-- The properties that are gone through; `common` are those that all nodes have. -/
def choices (common : List String) (node : SurveyNode) : List SurveyProperty :=
  node.properties.filter fun property =>
    !property.isReadOnly && property.kind == "ENUM" && !common.contains property.identifier

def initialSettings (node : SurveyNode) : Settings := fun identifier =>
  (node.properties.find? (·.identifier = identifier)).bind (·.initial)

def sockets (found : List SurveySocket) : Except Fault (List (String × DataType)) :=
  found.mapM fun socket =>
    match socketType? socket.kind with
    | some type => .ok (identifier socket.name, type)
    | none => .error (.unknownKey socket.kind)

/-- The alias for the items chosen so far, with the sockets that are enabled now. -/
def aliasOf (node : SurveyNode) (name : String) (chosen : List (String × String))
    (settings : Settings) : String × NodeRecipe :=
  (name, Catalog.recipe node.key (settings.enabled node.inputs) (settings.enabled node.outputs)
    chosen)

structure Progress where
  settings : Settings
  /-- The place of the item that was tried last, for each property. -/
  places : List Nat
  found : List (String × NodeRecipe)

/-- The items at some places, one for each property. -/
def chosenAt (properties : List SurveyProperty) (places : List Nat) : List (String × String) :=
  properties.zipWith (fun property place =>
    (property.identifier, (property.items.getD place ("", "")).1)) places

def visit (node : SurveyNode) (properties : List SurveyProperty) :
    List SurveyProperty → Nat → String → Progress → Except Fault Progress
  | [], _, name, progress =>
    let chosen := chosenAt properties progress.places
    .ok { progress with found := progress.found ++ [aliasOf node name chosen progress.settings] }
  | property :: rest, depth, name, progress =>
    property.items.zipIdx.foldlM (fun progress (item, place) =>
      let tried := { progress with places := progress.places.set depth place }
      match progress.settings property.identifier, property.set? item.1 progress.settings with
      | some former, some changed => do
        let after ← visit node properties rest (depth + 1) (name ++ "_" ++ identifier item.2)
          { tried with settings := changed }
        match property.set? former after.settings with
        | some restored => .ok { after with settings := restored }
        | none => .error (.unsuitable ("enum \"" ++ former ++ "\" not found"))
      | _, _ => .ok tried) progress

/-- All choices are gone through, with what the node has at the start. -/
def visitAll (node : SurveyNode) (properties : List SurveyProperty) (start : Settings) :
    Except Fault Progress :=
  visit node properties properties 0 (identifier node.label)
    ⟨start, properties.map fun _ => 0, []⟩

def aliases (common : List String) (node : SurveyNode) (start : Settings) :
    Except Fault (List (String × NodeRecipe)) := do
  let properties := choices common node
  let progress ← visitAll node properties start
  return (if properties.isEmpty then [] else [aliasOf node (identifier node.label) [] start]) ++
    progress.found

structure Findings where
  shapes : List (String × NodeShape)
  /-- Aliases for both kinds of trees, for geometry trees only and for shader trees only. -/
  shared : List (String × NodeRecipe)
  geometry : List (String × NodeRecipe)
  shader : List (String × NodeRecipe)

def Findings.file (findings : Findings) (node : SurveyNode) (found : List (String × NodeRecipe)) :
    Findings :=
  if homeOf node.key = .geometry then { findings with geometry := findings.geometry ++ found }
  else if node.kinds.contains .geometry then { findings with shared := findings.shared ++ found }
  else { findings with shader := findings.shader ++ found }

def surveyNode (common : List String) (findings : Findings) (node : SurveyNode) :
    Except Fault Findings := do
  if !isSurveyed node.key || !node.kinds.contains (homeOf node.key) then return findings
  let inputs ← sockets node.inputs
  let outputs ← sockets node.outputs
  if mentions (identifier node.label) "legacy" then return findings
  let found ← aliases common node (initialSettings node)
  return { findings.file node found with
    shapes := findings.shapes ++ [(node.key, ⟨inputs, outputs⟩)] }

def survey (common : List String) (nodes : List SurveyNode) : Except Fault Findings :=
  nodes.foldlM (surveyNode common) ⟨[], [], [], []⟩

end Survey

end NodeFormula
