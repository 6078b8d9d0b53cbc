import NodeFormula.Proofs.Layout.FirstWalk

/-!
# The second walk

The entries get their places: each level in its own column, and in a column what was found
in the first walk.  Every entry of the tree is met once, and only its node moves.
-/

namespace NodeFormula

open List

variable {after : Layout}

def Node.unlocated (node : Node) : Node := { node with location := ⟨0, 0⟩ }

theorem Forest.node?_modifyNode (forest : Forest) (ref : NodeRef) (change : Node → Node)
    (other : NodeRef) : (forest.modifyNode ref change).node? other =
      (forest.node? other).map fun node => if ref = other then change node else node := by
  rw [node?, node?, modifyNode, getElem?_modify]
  cases forest[other.tree]? with
  | none => rfl
  | some tree =>
    by_cases here : ref.tree = other.tree
    · simp only [here, if_true, Option.map_eq_map, Option.map_some, Option.bind_some,
        NodeTree.modifyNode, getElem?_modify]
      have same : ref = other ↔ ref.index = other.index := by
        cases ref
        cases other
        simp_all
      simp only [same]
    · have apart : ref ≠ other := fun same => here (congrArg NodeRef.tree same)
      simp [here, apart]

namespace Layout

/-! ## Moving nodes -/

def relocated (layout : Layout) (index : Nat) (location : Point) : Layout :=
  match (entryOf layout.entries index).node with
  | some node =>
      { layout with forest := layout.forest.modifyNode node fun node => { node with location } }
  | none => { layout with rootLocation := location }

def Distinct (entries : List LayoutEntry) : Prop :=
  ∀ {first second : Nat}, first < entries.length → second < entries.length →
    (entryOf entries first).node = (entryOf entries second).node → first = second

def Present (layout : Layout) : Prop :=
  ∀ {index : Nat} {ref : NodeRef}, (entryOf layout.entries index).node = some ref →
    ∃ node, layout.forest.node? ref = some node

/-- Only nodes have moved, among those of some entries. -/
structure Relocates (before after : Layout) (indices : List Nat) : Prop where
  frame : after = { before with
    forest := after.forest, rootLocation := after.rootLocation, visited := after.visited,
    least := after.least, greatest := after.greatest }
  nodes : ∀ ref, (after.forest.node? ref).map Node.unlocated =
    (before.forest.node? ref).map Node.unlocated
  others : Distinct before.entries → (∀ index ∈ indices, index < before.entries.length) →
    ∀ index < before.entries.length, index ∉ indices →
      after.locationOf index = before.locationOf index

section Relocating

theorem node_entryOf (entries : List LayoutEntry) (index : Nat) :
    entries[index]?.bind (·.node) = (entryOf entries index).node := by
  rw [entryOf, getD_eq_getElem?_getD]
  cases entries[index]? <;> rfl

theorem moveTo_eq (layout : Layout) (index : Nat) (location : Point) :
    moveTo index location layout = .ok () (layout.relocated index location) := by
  have isEntry : entryAt index layout = .ok (entryOf layout.entries index) layout := rfl
  rw [moveTo, bind_of_ok isEntry, relocated]
  cases (entryOf layout.entries index).node <;> rfl

theorem entries_relocated (layout : Layout) (index : Nat) (location : Point) :
    (layout.relocated index location).entries = layout.entries := by
  rw [relocated]
  split <;> rfl

theorem extents_relocated (layout : Layout) (index : Nat) (location : Point) :
    ((layout.relocated index location).visited, (layout.relocated index location).least,
      (layout.relocated index location).greatest) =
      (layout.visited, layout.least, layout.greatest) := by
  rw [relocated]
  split <;> rfl

theorem locationOf_relocated (present : Present layout) :
    (layout.relocated index location).locationOf index = location := by
  rw [locationOf, entries_relocated, node_entryOf, relocated]
  cases isNode : (entryOf layout.entries index).node with
  | none => rfl
  | some ref =>
    obtain ⟨node, found⟩ := present isNode
    simp [Forest.node?_modifyNode, found]

theorem relocates_relocated (layout : Layout) (index : Nat) (location : Point) :
    Relocates layout (layout.relocated index location) [index] := by
  refine ⟨?_, ?_, ?_⟩
  · rw [relocated]
    split <;> rfl
  · intro ref
    rw [relocated]
    split
    · rw [Forest.node?_modifyNode, Option.map_map]
      congr 1
      split <;> rfl
    · rfl
  · intro distinct inside place isPlace other
    have apart : (entryOf layout.entries index).node ≠ (entryOf layout.entries place).node :=
      fun same => other (by simp [distinct (inside index mem_cons_self) isPlace same])
    rw [locationOf, locationOf, entries_relocated, node_entryOf, relocated]
    cases isNode : (entryOf layout.entries index).node <;>
      cases isOther : (entryOf layout.entries place).node
    · exact absurd (isNode.trans isOther.symm) apart
    · rfl
    · rfl
    · rename_i ref another
      have apartRefs : ref ≠ another := by
        rintro rfl
        exact apart (isNode.trans isOther.symm)
      simp [Forest.node?_modifyNode, apartRefs]

namespace Relocates

theorem refl (layout : Layout) : Relocates layout layout [] :=
  ⟨rfl, fun _ => rfl, fun _ _ _ _ _ => rfl⟩

theorem entries (relocates : Relocates before after first) : after.entries = before.entries := by
  rw [relocates.frame]

theorem trans (early : Relocates before middle first) (late : Relocates middle after second) :
    Relocates before after (first ++ second) := by
  refine ⟨?_, fun ref => (late.nodes ref).trans (early.nodes ref), ?_⟩
  · rw [late.frame, early.frame]
  · intro distinct inside index isIndex outside
    rw [mem_append, not_or] at outside
    have lateOthers := late.others
    rw [early.entries] at lateOthers
    rw [lateOthers distinct (fun place member => inside place (mem_append_right _ member)) index
        isIndex outside.2,
      early.others distinct (fun place member => inside place (mem_append_left _ member)) index
        isIndex outside.1]

theorem present (relocates : Relocates before after first) (isPresent : Present before) :
    Present after := by
  intro index ref isNode
  rw [relocates.entries] at isNode
  obtain ⟨_, found⟩ := isPresent isNode
  have same := relocates.nodes ref
  rw [found] at same
  obtain ⟨moved, isMoved, _⟩ := Option.map_eq_some_iff.1 same
  exact ⟨moved, isMoved⟩

theorem drop_eq (relocates : Relocates before after first) (index : Nat) :
    after.drop index = before.drop index := by
  rw [drop, drop, relocates.entries]
  cases before.entries[index]?.bind (·.node) with
  | none => rfl
  | some ref =>
    have keys := congrArg (Option.map Node.key) (relocates.nodes ref)
    rw [Option.map_map, Option.map_map] at keys
    have same :
        (after.forest.node? ref).map Node.key = (before.forest.node? ref).map Node.key := keys
    simp only [same]

end Relocates

end Relocating

/-! ## Places -/

/-- Where the entries of a grove are placed, in the order of the walk. -/
def Grove.places (layout : Layout) : Nat → Int → Int → Grove → List (Nat × Point)
  | _, _, _, nil => []
  | level, widthSum, modifierSum, cons index below rest =>
    (index, ⟨layout.top.x - widthSum,
      layout.top.y - (entryOf layout.entries index).prelim - modifierSum⟩) ::
    (below.places layout (level + 1)
        (widthSum + layout.widths[level + 1]?.getD 0 + layout.spacing.level)
        (modifierSum + (entryOf layout.entries index).modifier) ++
      rest.places layout level widthSum modifierSum)

/-- The entries were met in this order, and their nodes are at these places. -/
structure Toured (before : Layout) (places : List (Nat × Point)) (after : Layout) : Prop where
  relocates : Relocates before after (places.map (·.1))
  visited : after.visited = before.visited ++ places.map (·.1)
  located : Distinct before.entries → Present before →
    (∀ index ∈ places.map (·.1), index < before.entries.length) → (places.map (·.1)).Nodup →
    ∀ place ∈ places, after.locationOf place.1 = place.2
  least : after.least.x = (places.map (·.2.x)).foldl min before.least.x
  greatest : after.greatest.y = (places.map (·.2.y)).foldl max before.greatest.y

section Touring

variable {indices : List Nat} {grove : Grove}

namespace Toured

theorem refl (layout : Layout) : Toured layout [] layout :=
  ⟨.refl layout, (append_nil _).symm, fun _ _ _ _ => nofun, rfl, rfl⟩

theorem trans (early : Toured before first middle) (late : Toured middle second after) :
    Toured before (first ++ second) after := by
  have entries := early.relocates.entries
  refine ⟨?_, ?_, ?_, ?_, ?_⟩
  · rw [map_append]
    exact early.relocates.trans late.relocates
  · rw [late.visited, early.visited, map_append, append_assoc]
  rotate_left
  · rw [late.least, early.least, map_append, foldl_append]
  · rw [late.greatest, early.greatest, map_append, foldl_append]
  · intro distinct present inside nodup place member
    rw [map_append] at inside nodup
    obtain ⟨nodupFirst, nodupSecond, apart⟩ := nodup_append.1 nodup
    have distinctNow : Distinct middle.entries := by
      rw [entries]
      exact distinct
    have insideFirst := fun index member => inside index (mem_append_left _ member)
    have insideSecond := fun index member => inside index (mem_append_right _ member)
    rw [← entries] at insideSecond
    rcases mem_append.1 member with isFirst | isSecond
    · have isPlace := mem_map_of_mem (f := (·.1)) isFirst
      rw [late.relocates.others distinctNow insideSecond place.1 (entries ▸ insideFirst _ isPlace)
        fun again => apart _ isPlace _ again rfl]
      exact early.located distinct present insideFirst nodupFirst place isFirst
    · exact late.located distinctNow
        (early.relocates.present present) insideSecond nodupSecond place isSecond

end Toured

theorem Grove.map_places (layout : Layout) (level : Nat) (widthSum modifierSum : Int)
    (grove : Grove) :
    (grove.places layout level widthSum modifierSum).map (·.1) = grove.indices := by
  induction grove generalizing level widthSum modifierSum with
  | nil => rfl
  | cons index below rest ihBelow ihRest =>
    rw [places, indices, map_cons, map_append, ihBelow, ihRest]

theorem Grove.places_congr (relocates : Relocates before after indices) (level : Nat)
    (widthSum modifierSum : Int) (grove : Grove) :
    grove.places after level widthSum modifierSum =
      grove.places before level widthSum modifierSum := by
  induction grove generalizing level widthSum modifierSum with
  | nil => rfl
  | cons index below rest ihBelow ihRest =>
    rw [places, places, ihBelow, ihRest, relocates.frame]

def bounded (layout : Layout) (entry : LayoutEntry) (place : Point) : Layout :=
  { layout with
    least := ⟨min place.x layout.least.x, min (place.y + entry.height) layout.least.y⟩
    greatest := ⟨max (place.x + entry.width) layout.greatest.x, max place.y layout.greatest.y⟩ }

def stepped (layout : Layout) (index : Nat) (widthSum modifierSum : Int) : Layout :=
  let entry := entryOf layout.entries index
  let place : Point := ⟨layout.top.x - widthSum, layout.top.y - entry.prelim - modifierSum⟩
  let moved := (layout.bounded entry place).relocated index place
  { moved with visited := moved.visited ++ [index] }

theorem Toured.stepped (layout : Layout) (index : Nat) (widthSum modifierSum : Int) :
    Toured layout [(index, ⟨layout.top.x - widthSum,
      layout.top.y - (entryOf layout.entries index).prelim - modifierSum⟩)]
      (layout.stepped index widthSum modifierSum) := by
  have relocates (entry place) := relocates_relocated (layout.bounded entry place) index place
  have extents (entry place) := extents_relocated (layout.bounded entry place) index place
  simp only [Prod.mk.injEq] at extents
  refine ⟨⟨?_, (relocates ..).nodes, (relocates ..).others⟩, ?_, ?_, ?_, ?_⟩
  · rw [Layout.stepped, relocated]
    split <;> rfl
  · exact congrArg (· ++ [index]) (extents ..).1
  · intro _ present _ _ place member
    cases mem_singleton.1 member
    exact locationOf_relocated (show Present (layout.bounded _ _) from present)
  · exact (congrArg Point.x (extents ..).2.1).trans (Int.min_comm ..)
  · exact (congrArg Point.y (extents ..).2.2).trans (Int.max_comm ..)

theorem secondWalk_eq (fuel index level : Nat) (widthSum modifierSum : Int) :
    secondWalk (fuel + 1) index level widthSum modifierSum layout =
      ((layout.walkBelow (entryOf layout.entries index) level widthSum fun first widthSum =>
        secondWalk fuel first (level + 1) widthSum
          (modifierSum + (entryOf layout.entries index).modifier)) >>= fun _ =>
        match (entryOf layout.entries index).right with
        | none => pure ()
        | some right => secondWalk fuel right level widthSum modifierSum)
        (layout.stepped index widthSum modifierSum) := by
  have isEntry : entryAt index layout = .ok (entryOf layout.entries index) layout := rfl
  have setting (other : Layout) : (set other : Arrange PUnit) layout = .ok () other := rfl
  rw [secondWalk, bind_of_ok isEntry, bind_get]
  rw [bind_of_ok (setting _), bind_of_ok (moveTo_eq ..)]
  rfl

theorem secondWalk_ok (isFirst : grove.tops.head? = some index) (fuel level : Nat)
    (widthSum modifierSum : Int) (stands : grove.Stands layout.kin parent left)
    (enough : grove.indices.length < fuel)
    (wide : ∀ {below}, grove.nodesAt below ≠ [] → level + below < layout.widths.length) :
    ∃ after, secondWalk fuel index level widthSum modifierSum layout = .ok () after ∧
      Toured layout (grove.places layout level widthSum modifierSum) after := by
  induction grove generalizing index fuel level widthSum modifierSum layout parent left with
  | nil => cases isFirst
  | cons here below rest ihBelow ihRest =>
    cases isFirst
    cases fuel with
    | zero => cases enough
    | succ fuel =>
      obtain ⟨⟨kin, found, _, _, isRight, isBelow⟩, standsBelow, standsRest⟩ := stands
      obtain ⟨entry, isEntry, rfl⟩ := exists_entry found
      have children : (entryOf layout.entries here).children = below.tops :=
        entryOf_eq isEntry ▸ isBelow
      have right : (entryOf layout.entries here).right = rest.tops.head? :=
        entryOf_eq isEntry ▸ isRight
      rw [Grove.indices, length_cons, length_append] at enough
      have step : Toured layout _ (layout.stepped here widthSum modifierSum) := .stepped ..
      have same {now : Layout} {indices : List Nat} (relocates : Relocates layout now indices) :
          now.kin = layout.kin ∧ now.widths = layout.widths := by
        rw [relocates.frame]
        exact ⟨rfl, rfl⟩
      obtain ⟨middle, downward, tourBelow⟩ : ∃ middle,
          (layout.walkBelow (entryOf layout.entries here) level widthSum fun first widthSum =>
            secondWalk fuel first (level + 1) widthSum
              (modifierSum + (entryOf layout.entries here).modifier))
            (layout.stepped here widthSum modifierSum) = .ok () middle ∧
          Toured (layout.stepped here widthSum modifierSum) (below.places layout (level + 1)
            (widthSum + layout.widths[level + 1]?.getD 0 + layout.spacing.level)
            (modifierSum + (entryOf layout.entries here).modifier)) middle := by
        rw [walkBelow, children]
        cases below with
        | nil => exact ⟨_, rfl, .refl _⟩
        | cons first inner others =>
          have room : level + 1 < layout.widths.length := wide (by simp [Grove.nodesAt])
          have stands := (same step.relocates).1.symm ▸ standsBelow
          have tour := ihBelow rfl fuel (level + 1)
            (widthSum + layout.widths[level + 1]?.getD 0 + layout.spacing.level)
            (modifierSum + (entryOf layout.entries here).modifier) stands (by omega)
            fun {deep} met => by
              rw [(same step.relocates).2, Nat.add_assoc, Nat.add_comm 1]
              exact wide (by simp [Grove.nodesAt, met])
          rw [Grove.places_congr step.relocates] at tour
          rw [getElem?_eq_getElem room] at tour ⊢
          exact tour
      have early := step.trans tourBelow
      obtain ⟨after, done, tourRest⟩ : ∃ after, (match rest.tops.head? with
          | none => pure ()
          | some right => secondWalk fuel right level widthSum modifierSum) middle = .ok () after ∧
          Toured middle (rest.places layout level widthSum modifierSum) after := by
        cases rest with
        | nil => exact ⟨_, rfl, .refl _⟩
        | cons next inner others =>
          have stands := (same early.relocates).1.symm ▸ standsRest
          have tour := ihRest rfl fuel level widthSum modifierSum stands (by omega)
            fun {deep} met => by
              rw [(same early.relocates).2]
              refine wide ?_
              cases deep with
              | zero => simp [Grove.nodesAt]
              | succ deep => exact fun empty => met (append_eq_nil_iff.1 empty).2
          rwa [Grove.places_congr early.relocates] at tour
      refine ⟨after, ?_, ?_⟩
      · rw [secondWalk_eq, right]
        exact (bind_of_ok downward).trans done
      · have whole := early.trans tourRest
        rwa [append_assoc] at whole

/-! ## Columns -/

def column (layout : Layout) : Nat → Nat → Int
  | _, 0 => 0
  | level, below + 1 =>
    layout.widths[level + 1]?.getD 0 + layout.spacing.level + layout.column (level + 1) below

theorem column_succ (layout : Layout) (level below : Nat) :
    layout.column level (below + 1) = layout.column level below +
      (layout.widths[level + below + 1]?.getD 0 + layout.spacing.level) := by
  induction below generalizing level with
  | zero => simp [column]
  | succ below ih =>
    rw [column, ih, column, show level + 1 + below + 1 = level + (below + 1) + 1 by omega]
    omega

theorem Grove.mem_places (member : spot ∈ grove.spots layout.entries below) (level : Nat)
    (widthSum modifierSum : Int) :
    (spot.index, (⟨layout.top.x - widthSum - layout.column level below,
      layout.top.y - spot.place - modifierSum⟩ : Point)) ∈
        grove.places layout level widthSum modifierSum := by
  induction grove generalizing below spot level widthSum modifierSum with
  | nil => cases below <;> cases member
  | cons index inner rest ihBelow ihRest =>
    rw [places, mem_cons, mem_append]
    cases below with
    | zero =>
      rcases mem_cons.1 member with rfl | later
      · refine .inl ?_
        rw [column, Int.sub_zero]
      · exact .inr (.inr (ihRest later level widthSum modifierSum))
    | succ below =>
      rcases mem_append.1 member with isBelow | later
      · obtain ⟨seen, isSeen, rfl⟩ := mem_map.1 isBelow
        have placed := ihBelow isSeen (level + 1)
          (widthSum + layout.widths[level + 1]?.getD 0 + layout.spacing.level)
          (modifierSum + (entryOf layout.entries index).modifier)
        have across : layout.top.x - widthSum - layout.column level (below + 1) =
            layout.top.x - (widthSum + layout.widths[level + 1]?.getD 0 + layout.spacing.level) -
              layout.column (level + 1) below := by
          rw [column]
          omega
        have down : layout.top.y - (seen.place + (entryOf layout.entries index).modifier) -
            modifierSum = layout.top.y - seen.place -
              (modifierSum + (entryOf layout.entries index).modifier) := by
          omega
        rw [← across, ← down] at placed
        exact .inr (.inl placed)
      · exact .inr (.inr (ihRest later level widthSum modifierSum))

/-! ## The last shift -/

theorem shift_ok (offset : Point) (nodup : indices.Nodup)
    (inside : ∀ index ∈ indices, index < layout.entries.length) :
    ∃ after, shift offset indices layout = .ok () after ∧ Relocates layout after indices ∧
      (after.visited, after.least, after.greatest) =
        (layout.visited, layout.least, layout.greatest) ∧
      (Distinct layout.entries → Present layout → ∀ index ∈ indices,
        after.locationOf index = ⟨(layout.locationOf index).x + offset.x,
          (layout.locationOf index).y + offset.y - layout.drop index⟩) := by
  induction indices generalizing layout with
  | nil => exact ⟨layout, rfl, .refl layout, rfl, fun _ _ => nofun⟩
  | cons index indices ih =>
    obtain ⟨notIn, nodupRest⟩ := nodup_cons.1 nodup
    let location : Point := ⟨(layout.locationOf index).x + offset.x,
      (layout.locationOf index).y + offset.y - layout.drop index⟩
    have relocates := relocates_relocated layout index location
    rcases ih nodupRest (fun other member => by
        rw [relocates.entries]
        exact inside other (mem_cons_of_mem _ member)) with
      ⟨after, done, relocatesRest, extents, located⟩
    refine ⟨after, (bind_of_ok (moveTo_eq ..)).trans done, relocates.trans relocatesRest,
      extents.trans (extents_relocated ..), ?_⟩
    · intro distinct present other member
      have insideHere := inside index mem_cons_self
      have distinctNow : Distinct (layout.relocated index location).entries := by
        rw [relocates.entries]
        exact distinct
      rcases mem_cons.1 member with rfl | later
      · rw [relocatesRest.others distinctNow ?_ other (relocates.entries ▸ insideHere) notIn]
        · exact locationOf_relocated present
        · intro place isPlace
          rw [relocates.entries]
          exact inside place (mem_cons_of_mem _ isPlace)
      · have apart : other ∉ [index] := fun same => notIn (mem_singleton.1 same ▸ later)
        rw [located distinctNow (relocates.present present) other later, relocates.drop_eq,
          relocates.others distinct (by simpa using insideHere) other (inside other member) apart]

end Touring

end Layout

end NodeFormula
