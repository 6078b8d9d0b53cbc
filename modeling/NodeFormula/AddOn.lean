import NodeFormula.Panel

/-!
# Add-ons

An add-on extends the application: its classes are registered, it may add an entry
to a menu, keys that start its operators, and settings of the scene.  All of that
goes away again when the add-on is disabled.
-/

namespace NodeFormula

open Widget

/-- The menus for adding meshes, in recent and in older versions of the application. -/
inductive MeshMenu
  | view | info
deriving DecidableEq, Repr

structure Shortcut where
  operator : String
  key : String
  withControl : Bool
  withShift : Bool
  withAlt : Bool
  settings : List (String × Bool)
deriving DecidableEq, Repr

structure AddOn where
  classes : List String
  removal : List String
  menu : Option MeshMenu
  shortcuts : List Shortcut
  sceneSettings : List String
deriving DecidableEq, Repr

structure Extent where
  viewEntries : Nat
  infoEntries : Nat
  shortcuts : Nat
  sceneSettings : List String
deriving DecidableEq, Repr

namespace Extent

def none : Extent := ⟨0, 0, 0, []⟩

end Extent

inductive AddOnStep
  | register (name : String)
  | unregister (name : String)
  | addShortcut (shortcut : Shortcut)
  | removeShortcut (shortcut : Shortcut)
deriving DecidableEq, Repr

namespace AddOn

def enableSteps (addOn : AddOn) : List AddOnStep :=
  addOn.classes.map .register ++ addOn.shortcuts.map .addShortcut

def disableSteps (addOn : AddOn) : List AddOnStep :=
  addOn.removal.map .unregister ++ addOn.shortcuts.map .removeShortcut

def extent (addOn : AddOn) : Extent :=
  ⟨if addOn.menu = some .view then 1 else 0, if addOn.menu = some .info then 1 else 0,
    addOn.shortcuts.length, addOn.sceneSettings⟩

/-- Formulas: the functions from files, the operators, the preferences and the panels. -/
def formula : AddOn :=
  let loading := ["MF_OT_load_custom_implementations", "MF_OT_generate_node_info"]
  let operators :=
    ["MF_OT_arrange_from_root", "MF_OT_select_from_root", "MF_OT_math_formula_add",
     "MF_OT_type_formula_then_add_nodes"]
  let panels := ["MFMathFormula", "MF_Settings", "MF_PT_add_panel", "MF_PT_file_panel"]
  let select := fun (control shift children parents : Bool) =>
    (⟨"node.mf_select_from_root", "E", control, shift, false,
      [("select_children", children), ("select_parents", parents)]⟩ : Shortcut)
  let shortcuts :=
    [⟨"node.mf_arrange_from_root", "E", false, false, true, []⟩, select true true true true,
     select true false true false, select false true false true,
     ⟨"node.mf_type_formula_then_add_nodes", "F", false, false, true, []⟩]
  { classes := loading ++ operators ++ panels
    removal := operators ++ loading ++ panels
    menu := none
    shortcuts
    sceneSettings := ["math_formula_add"] }

def sweep : AddOn :=
  let classes :=
    ["VF_Settings", "VF_OT_value_finder", "VF_PT_panel", "VF_OT_cam_2d_setup",
     "VF_OT_cam_3d_setup", "VF_OT_isolate_collection"]
  ⟨classes, classes, none, [], ["value_finder"]⟩

def ofMeshOperator (parameters operator : String) (menu : MeshMenu) : AddOn :=
  ⟨[parameters, operator], [parameters, operator], some menu, [], []⟩

end AddOn

inductive MeshOperator
  | fractal
  | formerSupershape
  | supershape
  | parametric
  | timesTable
deriving DecidableEq, Repr

namespace MeshOperator

def addOn : MeshOperator → AddOn
  | .fractal => .ofMeshOperator "Params" "MESH_OT_addFractal" .view
  | .formerSupershape => .ofMeshOperator "Params" "MESH_OT_addSupershape" .info
  | .supershape => .ofMeshOperator "Params" "MESH_OT_addSupershape" .view
  | .parametric => .ofMeshOperator "Parameters" "MESH_OT_add_parametric" .view
  | .timesTable => .ofMeshOperator "Params" "MESH_OT_times_table" .view

def menuEntry (operator : MeshOperator) : Panel :=
  let entry := fun name icon text => [.widget (.button name icon (some text) [])]
  match operator with
  | .fractal => entry "mesh.add_fractal" none "Add Fractal"
  | .formerSupershape => entry "mesh.add_supershape" none "Add SuperShape"
  | .supershape => entry "mesh.add_supershape" none "Add Supershape"
  | .parametric => entry "mesh.add_parametric" (some "OUTLINER_OB_SURFACE") "Add Parametric"
  | .timesTable => entry "mesh.add_times_table" none "Times Table"

def supershapePanel : Panel :=
  [.block .column true
    ([label "Detail level:"] ++ properties ["Detail", "Subdivision", "Smooth_Shading"] ++
      [label "Parameters:"] ++ properties ["M", "A", "B", "n1", "n2", "n3"])]

def panel (operator : MeshOperator) (hasSkin : Bool) : Panel :=
  match operator with
  | .fractal =>
    [.block .column true
      ([label "L-system:"] ++
        properties ["Variables", "Constants", "Rule1", "Rule2", "Axiom"] ++
        [label "Parameters:"] ++
        properties ["RemoveDoubles", "Iterations", "Angle", "Length"])]
  | .formerSupershape | .supershape => supershapePanel
  | .parametric =>
    [.block .column true
      ([label "Help variables"] ++ properties ["help_a", "help_b"] ++
        [label "Functions"] ++ properties ["x_func", "y_func", "z_func"]),
     .block .row true (.label "Domain u" :: properties ["u_from", "u_to"]),
     .block .row true (.label "Domain v" :: properties ["v_from", "v_to"]),
     .block .column true
      (.label "Detail level:" ::
        properties ["Unum", "Vnum", "Subdivision", "Smooth_Shading", "Merge_Doubles"])]
  | .timesTable =>
    [.block .column true
      (.label "Times Table" ::
        properties (["radius", "base", "multiplier", "skin_modifier"] ++
          if hasSkin then ["mean_radius"] else []))]

end MeshOperator

end NodeFormula
