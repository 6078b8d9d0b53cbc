import NodeFormula.Compiler
import NodeFormula.Tree

/-!
# The recipes of the catalog fit their nodes

A recipe is well formed when the sockets exist that it names by index, no input is fed twice and
no property is set twice.  Every recipe that a call can resolve to is well formed, and so are
those of the input nodes.

The tables are checked entry by entry.  Neighbouring entries mostly make the same kind of node, so
its sockets are looked up only where the kind changes, and the sizes of two names are compared
before the names.
-/

namespace NodeFormula

open List

variable {recipe : NodeRecipe} {shape : NodeShape}

/-- The sockets that a recipe uses exist, and nothing is fed or set twice. -/
structure NodeRecipe.WellFormed (recipe : NodeRecipe) : Prop where
  inputs_lt : ∀ index ∈ recipe.inputs, index < recipe.shape.inputs.length
  outputs_lt : ∀ index ∈ recipe.outputs, index < recipe.shape.outputs.length
  inputs_nodup : recipe.inputs.Nodup
  props_nodup : (recipe.props.map (·.1)).Nodup
  /-- Outside the catalog only the two interface nodes of a group have sockets. -/
  isPlain : Catalog.shape? recipe.key = none →
    recipe.key ≠ "NodeGroupInput" ∧ recipe.key ≠ "NodeGroupOutput"

namespace NodeRecipe

def fits (recipe : NodeRecipe) (shape : NodeShape) : Bool :=
  recipe.inputs.all (· < shape.inputs.length) && recipe.outputs.all (· < shape.outputs.length) &&
    decide recipe.inputs.Nodup && decide (recipe.props.map (·.1)).Nodup

theorem wellFormed_of_fits (found : Catalog.shape? recipe.key = some shape)
    (fits : recipe.fits shape = true) : recipe.WellFormed := by
  have shapeEq : recipe.shape = shape := by
    rw [NodeRecipe.shape, found, Option.getD_some]
  simp only [NodeRecipe.fits, Bool.and_eq_true, all_eq_true, decide_eq_true_eq] at fits
  obtain ⟨⟨⟨inputs, outputs⟩, distinct⟩, props⟩ := fits
  rw [← shapeEq] at inputs outputs
  refine ⟨inputs, outputs, distinct, props, ?_⟩
  intro missing
  rw [found] at missing
  cases missing

/-- A node of a new kind has exactly the sockets that its recipe counts on. -/
theorem WellFormed.socketsOf_length (wellFormed : recipe.WellFormed) (tree : NodeTree) :
    (tree.socketsOf recipe.key).1.length = recipe.shape.inputs.length ∧
      (tree.socketsOf recipe.key).2.length = recipe.shape.outputs.length := by
  rw [NodeTree.socketsOf, NodeRecipe.shape]
  cases found : Catalog.shape? recipe.key with
  | some => simp
  | none =>
    obtain ⟨notInput, notOutput⟩ := wellFormed.isPlain found
    simp [notInput, notOutput]

end NodeRecipe

namespace Catalog

def sameName (left right : String) : Bool :=
  Nat.beq left.utf8ByteSize right.utf8ByteSize && left == right

theorem sameName_eq_beq (left right : String) : sameName left right = (left == right) := by
  by_cases same : left = right
  · subst same
    simp [sameName]
  · simp [sameName, same]

def find (key : String) : List (String × NodeShape) → Option NodeShape
  | [] => none
  | (other, shape) :: rest =>
    match sameName key other with
    | true => some shape
    | false => find key rest

theorem find_eq_lookup (key : String) (table : List (String × NodeShape)) :
    find key table = table.lookup key := by
  induction table with
  | nil => rfl
  | cons entry _ ih =>
    rw [find, lookup_cons, sameName_eq_beq]
    cases key == entry.1 with
    | true => rfl
    | false => exact ih

/-- Check the recipes of a table, with the sockets of the kind of node before carried along. -/
def fitsFrom (key : String) (shape : NodeShape) : List (String × NodeRecipe) → Bool
  | [] => true
  | entry :: rest =>
    match sameName entry.2.key key with
    | true => entry.2.fits shape && fitsFrom key shape rest
    | false =>
      match find entry.2.key shapes with
      | none => false
      | some other => entry.2.fits other && fitsFrom entry.2.key other rest

theorem wellFormed_of_fitsFrom (carried : shape? key = some shape)
    (checked : fitsFrom key shape table = true) : ∀ entry ∈ table, entry.2.WellFormed := by
  induction table generalizing key shape with
  | nil => simp
  | cons head _ ih =>
    intro entry member
    rw [fitsFrom, sameName_eq_beq] at checked
    cases same : head.2.key == key with
    | true =>
      rw [same] at checked
      obtain ⟨headFits, restFits⟩ := (Bool.and_eq_true _ _).mp checked
      rcases mem_cons.mp member with rfl | later
      · rw [← eq_of_beq same] at carried
        exact NodeRecipe.wellFormed_of_fits carried headFits
      · exact ih carried restFits entry later
    | false =>
      rw [same, find_eq_lookup] at checked
      cases found : shapes.lookup head.2.key with
      | none =>
        rw [found] at checked
        cases checked
      | some =>
        rw [found] at checked
        obtain ⟨headFits, restFits⟩ := (Bool.and_eq_true _ _).mp checked
        rcases mem_cons.mp member with rfl | later
        · exact NodeRecipe.wellFormed_of_fits found headFits
        · exact ih found restFits entry later

def fitsTable (table : List (String × NodeRecipe)) : Bool :=
  match table with
  | [] => true
  | entry :: _ =>
    match find entry.2.key shapes with
    | none => false
    | some shape => fitsFrom entry.2.key shape table

theorem wellFormed_of_fitsTable (checked : fitsTable table = true) :
    ∀ entry ∈ table, entry.2.WellFormed := by
  cases table with
  | nil => simp
  | cons head =>
    rw [fitsTable, find_eq_lookup] at checked
    cases found : shapes.lookup head.2.key with
    | none =>
      rw [found] at checked
      cases checked
    | some =>
      rw [found] at checked
      exact wellFormed_of_fitsFrom found checked

def directRecipes (table : List (String × List Candidate)) : List (String × NodeRecipe) :=
  table.flatMap fun entry => entry.2.filterMap fun candidate =>
    match candidate with
    | .direct recipe => some (entry.1, recipe)
    | .alias _ => none

def aliasNames (table : List (String × List Candidate)) : List String :=
  table.flatMap fun entry => entry.2.filterMap fun candidate =>
    match candidate with
    | .direct _ => none
    | .alias name => some name

def allOverloads : List (String × List Candidate) :=
  sharedOverloads ++ geometryOverloads ++ shaderOverloads

def builtRecipes : List (String × NodeRecipe) :=
  [("float", ⟨"ShaderNodeValue", [], [0], []⟩), ("bool", ⟨"FunctionNodeInputBool", [], [0], []⟩),
   ("int", ⟨"FunctionNodeInputInt", [], [0], []⟩),
   ("rgba", ⟨"FunctionNodeInputColor", [], [0], []⟩),
   ("string", ⟨"FunctionNodeInputString", [], [0], []⟩),
   ("vec3", ⟨"FunctionNodeInputVector", [], [0], []⟩),
   ("combine", ⟨"ShaderNodeCombineXYZ", [0, 1, 2], [0], []⟩),
   ("separate", ⟨"ShaderNodeSeparateXYZ", [0], [0, 1, 2], []⟩)]

def allRecipes : List (String × NodeRecipe) :=
  sharedAliases ++ geometryAliases ++ shaderAliases ++ directRecipes allOverloads ++ builtRecipes

theorem fitsTable_allRecipes : fitsTable allRecipes = true := by
  decide +kernel

theorem wellFormed_of_mem_allRecipes (member : entry ∈ allRecipes) :
    entry.2.WellFormed :=
  wellFormed_of_fitsTable fitsTable_allRecipes entry member

theorem aliasNames_plain : (aliasNames allOverloads).all (fun name =>
      !sameName name "NodeGroupInput" && !sameName name "NodeGroupOutput") = true := by
  decide +kernel

theorem mem_of_lookup {α : Type} {table : List (String × α)} {value : α}
    (found : table.lookup name = some value) : (name, value) ∈ table := by
  obtain ⟨_, _, split, _⟩ := lookup_eq_some_iff.mp found
  rw [split]
  simp

end Catalog

namespace TreeKind

open Catalog

variable {kind : TreeKind}

theorem ownAliases_subset (kind : TreeKind)
    (member : entry ∈ kind.ownAliases) : entry ∈ allRecipes := by
  cases kind with
  | geometry =>
    simp only [ownAliases] at member
    simp [allRecipes, member]
  | shader =>
    simp only [ownAliases] at member
    simp [allRecipes, member]

theorem wellFormed_of_alias (found : kind.alias? name = some recipe) : recipe.WellFormed := by
  rw [alias?] at found
  cases own : kind.ownAliases.lookup name with
  | some other =>
    rw [own] at found
    obtain rfl : other = recipe := Option.some.inj found
    exact wellFormed_of_mem_allRecipes (kind.ownAliases_subset (mem_of_lookup own))
  | none =>
    rw [own] at found
    have member : (name, recipe) ∈ allRecipes := by
      have shared : (name, recipe) ∈ sharedAliases := mem_of_lookup found
      simp [allRecipes, shared]
    exact wellFormed_of_mem_allRecipes member

theorem overloads_subset (kind : TreeKind) {entry : String × List Candidate}
    (member : entry ∈ kind.overloads) : entry ∈ allOverloads := by
  cases kind with
  | geometry =>
    simp only [overloads] at member
    simp [allOverloads, member]
  | shader =>
    simp only [overloads] at member
    simp [allOverloads, member]

theorem wellFormed_of_candidate {candidates : List Candidate}
    (listed : (name, candidates) ∈ allOverloads) (member : candidate ∈ candidates) :
    (kind.recipeOf candidate).WellFormed := by
  match candidate with
  | .direct recipe =>
    have direct : (name, recipe) ∈ directRecipes allOverloads := by
      simp only [directRecipes, mem_flatMap, mem_filterMap]
      exact ⟨(name, candidates), listed, .direct recipe, member, rfl⟩
    have known : (name, recipe) ∈ allRecipes := by
      simp [allRecipes, direct]
    exact wellFormed_of_mem_allRecipes known
  | .alias name =>
    rw [recipeOf]
    cases found : kind.alias? name with
    | some => exact wellFormed_of_alias found
    | none =>
      have named : name ∈ aliasNames allOverloads := by
        simp only [aliasNames, mem_flatMap, mem_filterMap]
        exact ⟨_, listed, .alias name, member, rfl⟩
      have plain := all_eq_true.mp aliasNames_plain name named
      simp only [sameName_eq_beq, Bool.and_eq_true, Bool.not_eq_true', beq_eq_false_iff_ne]
        at plain
      exact ⟨by simp, by simp, by simp, by simp, fun _ => plain⟩

theorem wellFormed_of_mem_fromTable (subset : ∀ entry ∈ table, entry ∈ allOverloads)
    (member : Callable.node recipe ∈ kind.fromTable table name) : recipe.WellFormed := by
  obtain ⟨candidate, listed, same⟩ := mem_map.mp member
  obtain rfl : kind.recipeOf candidate = recipe := by
    injection same
  cases found : table.lookup name with
  | none =>
    rw [found] at listed
    cases listed
  | some =>
    rw [found] at listed
    exact wellFormed_of_candidate (subset _ (mem_of_lookup found)) listed

theorem wellFormed_of_mem_candidates
    (member : Callable.node recipe ∈ kind.candidates functions name) : recipe.WellFormed := by
  rw [candidates] at member
  split at member
  · simp only [map_append, mem_append, mem_map, Option.mem_toList,
      Callable.node.injEq, exists_eq_right] at member
    rcases member with own | shared
    · exact wellFormed_of_mem_allRecipes (kind.ownAliases_subset (mem_of_lookup own))
    · have known : (name, recipe) ∈ allRecipes := by
        have listed : (name, recipe) ∈ sharedAliases := mem_of_lookup shared
        simp [allRecipes, listed]
      exact wellFormed_of_mem_allRecipes known
  · simp only [mem_append] at member
    rcases member with (own | shared) | defined
    · exact wellFormed_of_mem_fromTable (fun _ => kind.overloads_subset) own
    · refine wellFormed_of_mem_fromTable (fun _ listed => ?_) shared
      simp [allOverloads, listed]
    · simp at defined

end TreeKind

theorem NodeRecipe.WellFormed.withProp (wellFormed : recipe.WellFormed)
    (prop : Option (String × Value)) :
    NodeRecipe.WellFormed { recipe with props := prop.toList } := by
  refine ⟨wellFormed.inputs_lt, wellFormed.outputs_lt, wellFormed.inputs_nodup, ?_,
    wellFormed.isPlain⟩
  cases prop <;> simp

theorem Catalog.wellFormed_built (listed : (name, recipe) ∈ builtRecipes) : recipe.WellFormed := by
  have known : (name, recipe) ∈ allRecipes := by
    simp [allRecipes, listed]
  exact wellFormed_of_mem_allRecipes known

end NodeFormula
