import NodeFormula.Proofs.Layout.Kinship
import NodeFormula.Proofs.Sequencing

/-!
# Steps on the table of entries

What the steps that build the tree do to the kin of the entries.  The depths of entries
decide which way a node is taken, and are left open here.
-/

namespace NodeFormula

open List Option

variable {layout after : Layout} {index : Nat}

def Node.unselected (node : Node) : Node := { node with isSelected := false }

namespace Layout

def kin (layout : Layout) : List Kin := layout.entries.map LayoutEntry.kin

/-- A loop comes to an end if each round does and leaves what the rest of it needs. -/
theorem forM_ok {α : Type} {step : α → Arrange Unit} (items : List α)
    (holds : List α → Layout → Prop) (each : ∀ {item rest layout}, holds (item :: rest) layout →
      ∃ after, step item layout = .ok () after ∧ holds rest after)
    (start : holds items layout) : ∃ after, items.forM step layout = .ok () after ∧
      holds [] after := by
  induction items generalizing layout with
  | nil => exact ⟨layout, rfl, start⟩
  | cons item items ih =>
    obtain ⟨_, done, goesOn⟩ := each start
    obtain ⟨after, rest, finished⟩ := ih goesOn
    exact ⟨after, (bind_of_ok done).trans rest, finished⟩

section Entries

variable {entries : List LayoutEntry}

theorem length_kin (layout : Layout) : layout.kin.length = layout.entries.length :=
  length_map ..

theorem getElem?_kin (layout : Layout) (index : Nat) :
    layout.kin[index]? = layout.entries[index]?.map LayoutEntry.kin :=
  getElem?_map ..

theorem exists_entry {kin} (found : layout.kin[index]? = some kin) :
    ∃ entry, layout.entries[index]? = some entry ∧ entry.kin = kin := by
  rw [getElem?_kin] at found
  exact map_eq_some_iff.1 found

theorem entryAt_of_some (found : layout.entries[index]? = some entry) :
    entryAt index layout = .ok entry layout := by
  show EStateM.Result.ok (layout.entries.getD index .ofRoots) layout = _
  rw [getD_eq_getElem?_getD, found, getD_some]

theorem modifyEntry_eq (layout : Layout) (index : Nat) (change : LayoutEntry → LayoutEntry) :
    modifyEntry index change layout =
      .ok () { layout with entries := layout.entries.modify index change } := rfl

theorem map_kin_modify (commute : ∀ entry, (change entry).kin = turn entry.kin) :
    (entries.modify index change).map LayoutEntry.kin =
      (entries.map LayoutEntry.kin).modify index turn := by
  apply ext_getElem?
  intro place
  rw [getElem?_map, getElem?_modify, getElem?_modify, getElem?_map]
  cases entries[place]? with
  | none => rfl
  | some entry =>
    by_cases here : index = place
    · simp [here, commute]
    · simp [here]

theorem map_kin_modify_same (same : ∀ entry, (change entry).kin = entry.kin) :
    (entries.modify index change).map LayoutEntry.kin = entries.map LayoutEntry.kin := by
  exact (map_kin_modify same).trans (modify_id _ _)

end Entries

def SameKin (before after : Layout) : Prop :=
  after = { before with entries := after.entries } ∧ after.kin = before.kin

namespace SameKin

theorem trans (early : SameKin before after) (late : SameKin after last) : SameKin before last := by
  refine ⟨?_, late.2.trans early.2⟩
  rw [late.1, early.1]

end SameKin

/-- Entries get lower from parents to children. -/
def Falls (height : Nat → Nat) (table : List Kin) : Prop :=
  ∀ {place : Nat} {kin : Kin}, table[place]? = some kin →
    ∀ child ∈ kin.children, height child < height place

theorem setDepth_ok (falls : Falls height layout.kin) (fuel index depth : Nat)
    (enough : height index < fuel) :
    ∃ after, setDepth fuel index depth layout = .ok () after ∧ SameKin layout after := by
  induction fuel generalizing index depth layout with
  | zero => cases enough
  | succ fuel ih =>
    let changed : Layout := { layout with
      entries := layout.entries.modify index fun entry => { entry with depth } }
    have same : SameKin layout changed := ⟨rfl, map_kin_modify_same fun _ => rfl⟩
    have children : ∀ child ∈ (changed.entries.getD index .ofRoots).children,
        height child < height index := by
      rw [getD_eq_getElem?_getD]
      cases found : changed.entries[index]? with
      | none => exact nofun
      | some entry =>
        have isThere : layout.kin[index]? = some entry.kin := by
          rw [← same.2, getElem?_kin, found, map_some]
        exact falls isThere
    have looping := forM_ok (changed.entries.getD index .ofRoots).children
      (fun rest after => SameKin layout after ∧ ∀ child ∈ rest, height child < height index)
      (fun {child rest middle} (holds : SameKin layout middle ∧ _) => by
        obtain ⟨sameMiddle, lower⟩ := holds
        have fallsStill : Falls height middle.kin := by
          rw [sameMiddle.2]
          exact falls
        have low := lower child mem_cons_self
        obtain ⟨after, done, sameAfter⟩ := ih fallsStill child (depth + 1) (by omega)
        exact ⟨after, done, sameMiddle.trans sameAfter,
          fun other member => lower other (mem_cons_of_mem _ member)⟩)
      ⟨same, children⟩
    obtain ⟨after, done, sameAfter, _⟩ := looping
    exact ⟨after, done, sameAfter⟩

/-! ## Moving an entry -/

def modifyAt (place : Option Nat) (change : LayoutEntry → LayoutEntry)
    (entries : List LayoutEntry) : List LayoutEntry :=
  match place with
  | some index => entries.modify index change
  | none => entries

theorem getElem?_modifyAt (place : Option Nat) (change : LayoutEntry → LayoutEntry)
    (entries : List LayoutEntry) (index : Nat) : (modifyAt place change entries)[index]? =
      entries[index]?.map fun entry => if place = some index then change entry else entry := by
  cases place with
  | none => simp [modifyAt]
  | some here =>
    rw [modifyAt, getElem?_modify]
    simp only [Option.some.injEq]
    rfl

def movedEntries (entries : List LayoutEntry) (index parent : Nat) (entry : LayoutEntry) :
    List LayoutEntry :=
  modifyAt (some index) (fun entry => { entry with left := none, right := none })
    (modifyAt entry.right (fun other => { other with left := entry.left })
      (modifyAt entry.left (fun other => { other with right := entry.right })
        (modifyAt (some index) (fun entry => { entry with parent := some parent })
          (modifyAt entry.parent
            (fun other => { other with children := other.children.filter (· != index) }) entries))))

theorem map_kin_movedEntries (entries : List LayoutEntry) (index parent : Nat)
    (entry : LayoutEntry) : (movedEntries entries index parent entry).map LayoutEntry.kin =
      Kin.reparented (entries.map LayoutEntry.kin) index parent entry.kin := by
  apply ext_getElem?
  intro place
  rw [getElem?_map, Kin.reparented, getElem?_mapIdx, getElem?_map]
  simp only [movedEntries, getElem?_modifyAt, Option.map_map, Option.some.injEq]
  congr 1
  funext old
  by_cases here : index = place
  · subst here
    simp only [Function.comp, if_true, LayoutEntry.kin, Kin.moved]
    split <;> split <;> split <;> simp_all
  · have there : ¬ place = index := fun same => here same.symm
    simp only [Function.comp, here, if_false, LayoutEntry.kin, Kin.moved]
    split <;> split <;> split <;> simp_all

section Reparenting

variable {parent : Nat}

theorem reparent_eq (found : layout.entries[index]? = some entry) :
    reparent index parent layout =
      setDepth ((movedEntries layout.entries index parent entry).length + 1) index
        (((movedEntries layout.entries index parent entry).getD parent .ofRoots).depth + 1)
        { layout with entries := movedEntries layout.entries index parent entry } := by
  rw [reparent, bind_of_ok (entryAt_of_some found), movedEntries]
  cases entry.parent <;> cases entry.left <;> cases entry.right <;> rfl

theorem reparent_ok (found : layout.kin[index]? = some entry) (falls : Falls height layout.kin)
    (low : height index ≤ layout.entries.length) (parent : Nat) :
    ∃ after, reparent index parent layout = .ok () after ∧
      after = { layout with entries := after.entries } ∧
      after.kin = Kin.reparented layout.kin index parent entry := by
  obtain ⟨whole, isWhole, rfl⟩ := exists_entry found
  have kin := map_kin_movedEntries layout.entries index parent whole
  have count : (movedEntries layout.entries index parent whole).length = layout.entries.length := by
    have same := congrArg List.length kin
    simpa [Kin.reparented] using same
  have fallsStill : Falls height
      (Layout.kin { layout with entries := movedEntries layout.entries index parent whole }) := by
    intro place after isThere child member
    rw [Layout.kin, kin] at isThere
    obtain ⟨_, isOld, rfl⟩ := Kin.exists_of_reparented isThere
    exact falls isOld child (Kin.mem_children_of_moved member)
  rcases setDepth_ok fallsStill ((movedEntries layout.entries index parent whole).length + 1) index
    (((movedEntries layout.entries index parent whole).getD parent .ofRoots).depth + 1)
    (by omega) with ⟨after, done, same⟩
  refine ⟨after, (reparent_eq isWhole).trans done, same.1, ?_⟩
  rw [same.2, Layout.kin, kin]
  rfl

end Reparenting

/-! ## Adopting children -/

theorem adopt_ok (parent : Nat) (children : List Nat) (left : Option Nat) (layout : Layout) :
    ∃ after, adopt parent left children layout = .ok () after ∧
      after = { layout with entries := after.entries } ∧
      after.kin = Kin.adopted parent left children layout.kin := by
  induction children generalizing left layout with
  | nil => exact ⟨layout, rfl, rfl, rfl⟩
  | cons child rest ih =>
    let changed : Layout := { layout with
      entries := layout.entries.modify child fun entry =>
        { entry with
          parent := some parent
          left := left.orElse fun _ => entry.left
          right := rest.head?.orElse fun _ => entry.right } }
    have turned : changed.kin = layout.kin.modify child (Kin.placedIn parent left rest.head?) := by
      apply map_kin_modify
      intro entry
      cases left <;> cases rest <;> rfl
    obtain ⟨after, done, frame, kin⟩ := ih (some child) changed
    refine ⟨after, done, frame, ?_⟩
    rw [kin, turned, Kin.adopted]

/-! ## Making children -/

/-- Forests that only differ in which nodes are selected. -/
def SameUnselected (before after : Forest) : Prop :=
  ∀ ref, (after.node? ref).map Node.unselected = (before.node? ref).map Node.unselected

/-- What building the tree can change. -/
def Framed (before after : Layout) : Prop :=
  after = { before with
    entries := after.entries, visited := after.visited, forest := after.forest } ∧
    SameUnselected before.forest after.forest

namespace Framed

theorem refl (layout : Layout) : Framed layout layout := ⟨rfl, fun _ => rfl⟩

theorem trans (early : Framed before after) (late : Framed after last) : Framed before last := by
  refine ⟨?_, fun ref => (late.2 ref).trans (early.2 ref)⟩
  rw [late.1, early.1]

theorem links (framed : Framed before after) : after.links = before.links := by
  rw [framed.1]

theorem of_entries (frame : after = { before with entries := after.entries }) :
    Framed before after := by
  refine ⟨?_, ?_⟩
  · rw [frame]
  · rw [frame]
    exact fun _ => rfl

end Framed

def kinOf (forest : Forest) (ref : NodeRef) : Kin :=
  (LayoutEntry.ofNode ref ((forest.node? ref).getD ((NodeTree.empty "" "").freshNode "")) 0).kin

theorem kinOf_congr {before after} (same : SameUnselected before after) (ref : NodeRef) :
    kinOf after ref = kinOf before ref := by
  have here := same ref
  rw [kinOf, kinOf]
  cases beforeNode : before.node? ref with
  | none =>
    rw [beforeNode, map_none, map_eq_none_iff] at here
    rw [here]
  | some old =>
    rw [beforeNode, map_some, map_eq_some_iff] at here
    obtain ⟨new, isNew, agree⟩ := here
    have agreeing := congrArg Node.dimensions agree
    have dimensions : new.dimensions = old.dimensions := agreeing
    rw [isNew]
    simp [LayoutEntry.ofNode, dimensions]

theorem sameUnselected_select (forest : Forest) (ref : NodeRef) :
    SameUnselected forest (forest.modifyNode ref fun node => { node with isSelected := true }) := by
  intro other
  rw [Forest.node?, Forest.node?, Forest.modifyNode, getElem?_modify]
  cases forest[other.tree]? with
  | none => rfl
  | some tree =>
    by_cases here : ref.tree = other.tree
    · simp only [here, if_true, Option.map_eq_map, map_some, bind_some,
        NodeTree.modifyNode, getElem?_modify]
      cases tree.nodes[other.index]? with
      | none => rfl
      | some node =>
        by_cases same : ref.index = other.index <;> simp [same, Node.unselected]
    · simp [here]

def newcomers (found : List (Link × Option Nat)) : List NodeRef :=
  (found.filter (·.2.isNone)).map (·.1.source.owner)

/-- The children for some links, new entries numbered from the first free place. -/
def numbered (first : Nat) : List (Link × Option Nat) → List (Nat × Bool)
  | [] => []
  | (_, some known) :: rest => (known, false) :: numbered first rest
  | (_, none) :: rest => (first, true) :: numbered (first + 1) rest

theorem makeChildren_ok (depth : Nat) (found : List (Link × Option Nat)) (layout : Layout) :
    ∃ after, makeChildren depth found layout = .ok (numbered layout.entries.length found) after ∧
      Framed layout after ∧ after.kin = layout.kin ++ (newcomers found).map (kinOf layout.forest) ∧
      after.visited = layout.visited ++ List.range' layout.entries.length
        (newcomers found).length := by
  induction found generalizing layout with
  | nil => exact ⟨layout, rfl, .refl _, by simp [newcomers], by simp [newcomers]⟩
  | cons first rest ih =>
    rcases first with ⟨link, _ | _⟩
    · let source := link.source.owner
      let forest := layout.forest.modifyNode source fun node => { node with isSelected := true }
      let node := (forest.node? source).getD ((NodeTree.empty "" "").freshNode "")
      let made : Layout := { layout with
        forest
        entries := layout.entries ++ [.ofNode source node (depth + 1)]
        visited := layout.visited ++ [layout.entries.length] }
      have frame : Framed layout made := ⟨rfl, sameUnselected_select _ _⟩
      have kin : made.kin = layout.kin ++ [kinOf layout.forest source] := by
        rw [← kinOf_congr frame.2 source]
        exact map_append
      obtain ⟨after, done, frameRest, kinRest, visitedRest⟩ := ih made
      have count : made.entries.length = layout.entries.length + 1 := by simp [made]
      rw [count] at done visitedRest
      refine ⟨after, ?_, frame.trans frameRest, ?_, ?_⟩
      · exact bind_of_ok done
      · rw [kinRest, kin, append_assoc, funext (kinOf_congr frame.2)]
        rfl
      · rw [visitedRest, append_assoc]
        rfl
    · obtain ⟨after, done, frame, kin, visited⟩ := ih layout
      refine ⟨after, ?_, frame, kin, visited⟩
      rw [makeChildren, bind_of_ok done]
      rfl

end Layout

end NodeFormula
