import NodeFormula.Fault
import NodeFormula.Panel

/-!
# The panel for sweeps

The views of the stage can always be set up.  A sweep needs an active node with
inputs and outputs and the choice of an input.
-/

namespace NodeFormula.Panel

open Widget

structure ActiveNode where
  inputs : List String
  outputCount : Nat

def stageWidgets : List Widget :=
  [.button "node.vf_cam_2d_setup" (some "MESH_PLANE") none [],
   .button "node.vf_cam_3d_setup" (some "MESH_UVSPHERE") none [],
   .button "node.vf_isolate_collection" none none []]

def sweepStart (widgets : List Widget) : PanelPart := .block .column true (stageWidgets ++ widgets)

def sweepOutput : Panel :=
  [.setting "use_property_split" true, .setting "use_property_decorate" false,
   .block .column true
    ([label "Output settings:"] ++ properties ["filepath", "engine"] ++
      [property "resolution_x" (some "Resolution X"), .property "resolution_y" (some "Y"),
       .property "resolution_percentage" (some "%"),
       .property "film_transparent" (some "Transparent Background"), .separator,
       .label "Be careful with Clean Folder!"] ++
      properties ["del_files", "image_info"] ++
      [.separator,
       .button "node.vf_value_finder" (some "OUTPUT") (some "Generate Values") []])]

def sweep (active : Option ActiveNode) (input : String) : Except Fault Panel :=
  match active with
  | none => .ok [sweepStart [label "No active node"]]
  | some node =>
    if node.inputs.isEmpty then .ok [sweepStart [label "Active node has no input"]]
    else if node.outputCount = 0 then .ok [sweepStart [label "Active node has no output"]]
    else if input.isEmpty then
      .ok [sweepStart [.separator, .property "input" none, .label "Select an input"]]
    else if node.inputs.contains input then
      .ok (sweepStart
        ([.separator] ++ properties ["input", "steps", "start_input", "end_input"] ++
          [.separator]) :: sweepOutput)
    else .error (.unknownKey input)

end NodeFormula.Panel
