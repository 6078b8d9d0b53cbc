import NodeFormula.Host

/-!
# A stage for textures

A texture is looked at on a plane from above or on a sphere.  Both objects and
the camera are kept in one collection, which is made when it is first needed.
Setting up one view hides the object of the other.
-/

namespace NodeFormula

structure Location where
  x : Int
  y : Int
  z : Int
deriving DecidableEq, Repr

structure StageObject where
  name : String
  isHidden : Bool
  /-- Its materials; a slot may be empty. -/
  materials : List (Option String)
  location : Option Location
deriving DecidableEq, Repr

structure StageCollection where
  name : String
  isHidden : Bool
  objects : List StageObject
deriving DecidableEq, Repr

inductive Projection
  | orthographic | perspective
deriving DecidableEq, Repr

def Projection.label : Projection → String
  | .orthographic => "ORTHO"
  | .perspective => "PERSP"

structure StageCamera where
  scale : Option Int
  projection : Projection
deriving DecidableEq, Repr

structure Stage where
  collections : List StageCollection
  linked : List String
  camera : Option StageCamera
  /-- Whether the scene has the camera and the resolution of the stage. -/
  isReady : Bool
deriving DecidableEq, Repr

inductive StageView
  | plane | sphere
deriving DecidableEq, Repr

namespace StageView

def objectName : StageView → String
  | .plane => "vf_plane"
  | .sphere => "vf_sphere"

def other : StageView → StageView
  | .plane => .sphere
  | .sphere => .plane

/-- What makes the object of a view. -/
def shapeRequest : StageView → Request
  | .plane =>
    .operator "create_grid"
      [("calc_uvs", .bool true), ("size", .int 1), ("x_segments", .int 2), ("y_segments", .int 2)]
  | .sphere =>
    .operator "create_uvsphere"
      [("calc_uvs", .bool true), ("diameter", .int 2), ("u_segments", .int 32),
       ("v_segments", .int 32)]

def cameraLocation : StageView → Location
  | .plane => ⟨0, 0, 1⟩
  | .sphere => ⟨0, 0, 6⟩

/-- The camera of a view; a sphere keeps the scale that is set. -/
def camera (view : StageView) (current : Option StageCamera) : StageCamera :=
  match view with
  | .plane => ⟨some 2, .orthographic⟩
  | .sphere => ⟨current.bind (·.scale), .perspective⟩

end StageView

namespace StageCollection

def modify (collection : StageCollection) (name : String) (change : StageObject → StageObject) :
    StageCollection :=
  { collection with
    objects := collection.objects.map fun object =>
      if object.name = name then change object else object }

def contains (collection : StageCollection) (name : String) : Bool :=
  collection.objects.any fun object => object.name == name

/-- The collection with an object of that name, which may be there already. -/
def require (collection : StageCollection) (name : String) : StageCollection :=
  if collection.contains name then collection
  else { collection with objects := collection.objects ++ [⟨name, false, [], none⟩] }

end StageCollection

/-- Put a material into the first slot. -/
def StageObject.wear (object : StageObject) (material : Option String) : StageObject :=
  { object with materials := material :: object.materials.drop 1 }

namespace Stage

def collectionName : String := "vf_collection"

def cameraName : String := "vf_camera"

def isOffered (spaceType : String) : Bool := spaceType == "NODE_EDITOR"

def resolution : Nat := 1024

def ofNames (names : List String) : Stage :=
  ⟨names.map fun name => ⟨name, false, []⟩, [], none, false⟩

def index? (stage : Stage) : Option Nat :=
  stage.collections.findIdx? fun collection => collection.name == collectionName

/-- The stage with its collection, which is linked when it is made. -/
def withCollection (stage : Stage) : Stage :=
  match stage.index? with
  | some _ => stage
  | none =>
    { stage with
      collections := stage.collections ++ [⟨collectionName, false, []⟩]
      linked := stage.linked ++ [collectionName] }

def modifyCollection (stage : Stage) (change : StageCollection → StageCollection) : Stage :=
  match stage.index? with
  | some index => { stage with collections := stage.collections.modify index change }
  | none => stage

def contains (stage : Stage) (name : String) : Bool :=
  match stage.index? with
  | some index => (stage.collections[index]?.map (·.contains name)).getD false
  | none => false

def objectRequests (view : StageView) : List Request :=
  [view.shapeRequest, ⟨"to_mesh", [.text view.objectName], none⟩, ⟨"bm.free", [], none⟩]

/-- Set up a view: show its object with the material, and hide that of the other view. -/
def setUp (stage : Stage) (view : StageView) (material : Option String) : Stage × List Request :=
  let requests := if stage.contains view.objectName then [] else objectRequests view
  let arranged := stage.withCollection.modifyCollection fun collection =>
    (((((collection.require view.objectName).modify view.objectName
      (fun object => { object.wear material with isHidden := false })).modify view.other.objectName
      (fun object => { object with isHidden := true })).require cameraName).modify cameraName
      (fun object => { object with location := some view.cameraLocation }))
  ({ arranged with camera := some (view.camera stage.camera), isReady := true }, requests)

/-- Hide all other collections. -/
def isolate (stage : Stage) : Stage :=
  { stage with
    collections := stage.collections.mapIdx fun index collection =>
      if stage.index? = some index then collection else { collection with isHidden := true } }

end Stage

end NodeFormula
