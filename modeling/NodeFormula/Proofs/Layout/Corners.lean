import NodeFormula.Proofs.Layout.Placement

/-!
# Where the arrangement is

With a cursor the arrangement begins at zero, whatever the cursor is, and its top is at the
height of the cursor.  Without one a single root stays where it is.  Otherwise the two are the
same: all nodes are moved by one distance.
-/

namespace NodeFormula.Layout

open List Option Relation Grove

variable {forest : Forest} {links : List Link} {spacing : Spacing} {below : Grove} {after : Layout}
  {level : Nat} {origin : Point} {places : List (Nat × Point)}

theorem Toured.least_le (isToured : Toured before places after) :
    (∀ place ∈ places, after.least.x ≤ place.2.x) ∧
      (after.least.x < before.least.x → ∃ place ∈ places, place.2.x = after.least.x) := by
  have least : (before.least.x :: places.map (·.2.x)).min? = some after.least.x :=
    min?_cons'.trans (congrArg some isToured.least.symm)
  obtain ⟨member, le⟩ := min?_eq_some_iff.1 least
  refine ⟨fun place isPlace => le _ (mem_cons_of_mem _ (mem_map_of_mem isPlace)), fun less => ?_⟩
  rcases mem_cons.1 member with same | attained
  · exact absurd same (Int.ne_of_lt less)
  · exact mem_map.1 attained

theorem Toured.le_greatest (isToured : Toured before places after) :
    (∀ place ∈ places, place.2.y ≤ after.greatest.y) ∧
      (before.greatest.y < after.greatest.y → ∃ place ∈ places, place.2.y = after.greatest.y) := by
  have greatest : (before.greatest.y :: places.map (·.2.y)).max? = some after.greatest.y :=
    max?_cons'.trans (congrArg some isToured.greatest.symm)
  obtain ⟨member, le⟩ := max?_eq_some_iff.1 greatest
  refine ⟨fun place isPlace => le _ (mem_cons_of_mem _ (mem_map_of_mem isPlace)), fun less => ?_⟩
  rcases mem_cons.1 member with same | attained
  · exact absurd same (Int.ne_of_gt less)
  · exact mem_map.1 attained

namespace Measured

variable (measured : Measured forest links roots spacing grown below walked after origin)
include measured

theorem exists_node (plain : ∀ {ref node}, forest.node? ref = some node →
      isInside rerouteMark.toList node.key.toList = false)
    (isSpot : spot ∈ (tree 0 below).spots walked.entries level)
    (isNode : nodeOf? grown.kin spot.index = some ref) :
    ∃ node, after.forest.node? ref = some node ∧
      node.location = ⟨origin.x - walked.column 0 level, origin.y - spot.place⟩ := by
  obtain ⟨_, isOriginal⟩ := measured.present ((node_entryOf_eq grown spot.index).trans isNode)
  have moved := measured.arranged.nodes ref
  rw [isOriginal] at moved
  obtain ⟨node, found, _⟩ := map_eq_some_iff.1 moved
  have location := measured.arranged.located measured.distinct measured.present isSpot
  rw [measured.drop_eq_zero plain isNode, Int.sub_zero, locationOf, bind_node_eq, measured.kin_eq.2,
    isNode] at location
  simp only [found] at location
  exact ⟨node, found, location⟩

theorem exists_spot_of_place (isPlace : place ∈ (tree 0 below).places walked.topped 0 0 0) :
    ∃ level, ∃ spot ∈ (tree 0 below).spots walked.entries level,
      place.2 =
        ⟨walked.topped.top.x - walked.column 0 level, walked.topped.top.y - spot.place⟩ := by
  have indices := map_places walked.topped 0 0 0 (tree 0 below)
  have member : place.1 ∈ (tree 0 below).indices := indices ▸ mem_map_of_mem isPlace
  obtain ⟨level, isAt⟩ := Grove.exists_level member
  rw [← map_index_spots walked.entries] at isAt
  obtain ⟨spot, isSpot, same⟩ := mem_map.1 isAt
  have isSpotTopped : spot ∈ (tree 0 below).spots walked.topped.entries level := isSpot
  have met := mem_places isSpotTopped 0 0 0
  have nodup := measured.all.nodup_iff.2 nodup_range
  rw [← indices] at nodup
  refine ⟨level, spot, isSpot, ?_⟩
  rw [← inj_on_of_nodup_map nodup met isPlace same, column_topped, Int.sub_zero, Int.sub_zero]

theorem exists_spot_of_leads (leads : Leads links roots ref) : ∃ level,
    ∃ spot ∈ (tree 0 below).spots walked.entries level, nodeOf? grown.kin spot.index =
      some ref := by
  obtain ⟨index, isNode⟩ := measured.family.exists_of_leads measured.rooted leads
  obtain ⟨level, spot, isSpot, rfl⟩ := measured.exists_spot_of_node isNode
  exact ⟨level, spot, isSpot, isNode⟩

theorem root_kept (isSingle : roots = .single root)
    (begins : origin = walked.topped.origin toured (grown.locationOf 0) none)
    (isToured : Toured walked.topped ((tree 0 below).places walked.topped 0 0 0) toured)
    (plain : ∀ {ref node}, forest.node? ref = some node →
      isInside rerouteMark.toList node.key.toList = false) (found : forest.node? root = some node) :
    ∃ kept, after.forest.node? root = some kept ∧ kept.location = node.location := by
  subst isSingle begins
  obtain ⟨kin, isTop, _, isRoot⟩ := measured.family.top
  have isNode : nodeOf? grown.kin 0 = some root := (nodeOf?_eq isTop).trans isRoot
  have isSpot : ⟨0, 0, (entryOf walked.entries 0).prelim⟩ ∈
    (tree 0 below).spots walked.entries 0 := mem_singleton_self _
  obtain ⟨kept, isKept, location⟩ := measured.exists_node plain isSpot isNode
  refine ⟨kept, isKept, ?_⟩
  have selected := measured.framed.2 root
  rw [show (Layout.new spacing links forest).forest.node? root = some node from found] at selected
  obtain ⟨_, isMiddle, same⟩ := map_eq_some_iff.1 selected
  have before : grown.locationOf 0 = node.location := by
    rw [locationOf, bind_node_eq, isNode]
    simp only [isMiddle]
    have stays := congrArg Node.location same
    exact stays
  have met := (isToured.located_spot measured.arranged.isWalked measured.stands
    (measured.all.nodup_iff.2 nodup_range) measured.distinct measured.present isSpot).2
  simp only [Layout.origin, before, met] at location
  rw [location]
  show _ = Point.mk node.location.x node.location.y
  rw [Point.mk.injEq]
  omega

theorem exists_named (nonempty : roots.nodes ≠ []) (roomy : Roomy grown.unvisited gap)
    (leading : Leading grown.unvisited 0 below walked)
    (isSpot : spot ∈ (tree 0 below).spots walked.entries level) :
    ∃ further, ∃ named ∈ (tree 0 below).spots walked.entries further,
      (∃ ref, nodeOf? grown.kin named.index = some ref) ∧
      walked.column 0 level ≤ walked.column 0 further ∧ named.place ≤ spot.place := by
  cases isNode : nodeOf? grown.kin spot.index with
  | some ref => exact ⟨level, spot, isSpot, ⟨ref, isNode⟩, Int.le_refl _, Int.le_refl _⟩
  | none =>
    have stands := measured.stands
    have isAbove := above_of_spot (measured.kin_eq.1.symm ▸ stands) isSpot
    rw [measured.kin_eq.1] at isAbove
    cases level with
    | succ level =>
      obtain ⟨_, isParent, _⟩ := bind_eq_some_iff.1 isAbove
      obtain ⟨_, named⟩ := measured.family.exists_node_of_parent isParent
      cases isNode.symm.trans named
    | zero =>
      cases mem_singleton.1 isSpot
      obtain ⟨first, isFirst⟩ : ∃ first, below.tops.head? = some first := by
        obtain ⟨root, isRoot⟩ := exists_mem_of_ne_nil _ nonempty
        obtain ⟨index, named⟩ := measured.rooted root isRoot
        have member := measured.all.mem_iff.2
          (mem_range.2 (length_kin grown ▸ lt_length_of_node named))
        cases below with
        | nil =>
          cases mem_singleton.1 member
          cases isNode.symm.trans named
        | cons first _ _ => exact ⟨first, rfl⟩
      have isTop := mem_of_head? isFirst
      obtain ⟨kin, found, isChild⟩ := stands.2.1.mem_tops isTop
      have inner : ⟨first, first, (entryOf walked.entries first).prelim⟩ ∈
          below.spots walked.entries 0 := by
        rw [spots_zero]
        exact mem_map_of_mem isTop
      refine ⟨1, _, mem_append_left _ (mem_map_of_mem inner), ?_,
        measured.column_le (Nat.zero_le 1), leading roomy isFirst⟩
      exact measured.family.exists_node_of_parent (bind_eq_some_iff.2 ⟨kin, found, isChild⟩)

end Measured

/-- The nodes are below and to the right of a corner, and some are at its sides. -/
structure Cornered (links : List Link) (roots : Roots) (corner : Point)
    (after : Layout) : Prop where
  inside : ∀ {ref node}, Leads links roots ref → after.forest.node? ref = some node →
    corner.x ≤ node.location.x ∧ node.location.y ≤ corner.y
  left : after.least.x < farAway → ∃ ref node, Leads links roots ref ∧
    after.forest.node? ref = some node ∧ node.location.x = corner.x
  top : -farAway < after.greatest.y → ∃ ref node, Leads links roots ref ∧
    after.forest.node? ref = some node ∧ node.location.y = corner.y

/--
With a cursor the arrangement has its top at the height of the cursor, but begins at zero.
Without one it is the same except that all of it is moved, a single root to where it was.
-/
theorem placeNodes_cornered (fit : Arrangeable forest links roots) (nonempty : roots.nodes ≠ [])
    (tall : ∀ {ref : NodeRef} {node : Node}, forest.node? ref = some node → 0 ≤ node.dimensions.y)
    (plain : ∀ {ref : NodeRef} {node : Node}, forest.node? ref = some node →
      isInside rerouteMark.toList node.key.toList = false)
    (spacing : Spacing) (distances : 0 ≤ spacing.level ∧ 0 ≤ spacing.sibling ∧ 0 ≤ spacing.subtree)
    (cursor : Point) : ∃ answer after rest apart,
      placeNodes roots (some cursor) (Layout.new spacing links forest) = .ok answer after ∧
      Cornered links roots ⟨0, cursor.y⟩ after ∧
      placeNodes roots none (Layout.new spacing links forest) = .ok rest apart ∧
      (∃ move : Point, ∀ {ref : NodeRef}, Leads links roots ref → ∃ one two,
        after.forest.node? ref = some one ∧ apart.forest.node? ref = some two ∧
          two.location = ⟨one.location.x + move.x, one.location.y + move.y⟩) ∧
      ∀ {root : NodeRef} {node : Node}, roots = .single root → forest.node? root = some node →
        ∃ kept, apart.forest.node? root = some kept ∧ kept.location = node.location := by
  rcases placeNodes_measured fit distances.1 with
    ⟨grown, below, walked, toured, leading, isToured, places⟩
  obtain ⟨answer, after, done, measured, least, greatest⟩ := places (some cursor)
  obtain ⟨rest, apart, restDone, measuredRest, _⟩ := places none
  have roomy := measured.roomy distances.2 tall
  have start : walked.topped.least.x = farAway ∧ walked.topped.greatest.y = -farAway := by
    rw [measured.arranged.isWalked.frame]
    rw [measured.framed.1]
    exact ⟨rfl, rfl⟩
  have inside {ref : NodeRef} {node : Node} (leads : Leads links roots ref)
      (found : after.forest.node? ref = some node) : 0 ≤ node.location.x ∧
        node.location.y ≤ cursor.y := by
    obtain ⟨level, spot, isSpot, isNode⟩ := measured.exists_spot_of_leads leads
    obtain ⟨_, same, location⟩ := measured.exists_node plain isSpot isNode
    cases found.symm.trans same
    have isSpotTopped : spot ∈ (tree 0 below).spots walked.topped.entries level := isSpot
    have isPlace := mem_places isSpotTopped 0 0 0
    have left := isToured.least_le.1 _ isPlace
    have low := isToured.le_greatest.1 _ isPlace
    rw [column_topped] at left
    rw [location]
    simp only [Layout.origin] at left low ⊢
    omega
  have reach {place : Nat × Point} (isPlace : place ∈ (tree 0 below).places walked.topped 0 0 0) :
      ∃ ref node, Leads links roots ref ∧ after.forest.node? ref = some node ∧
        node.location.x + toured.least.x ≤ place.2.x ∧
        place.2.y + cursor.y ≤ node.location.y + toured.greatest.y := by
    obtain ⟨level, spot, isSpot, isPoint⟩ := measured.exists_spot_of_place isPlace
    obtain ⟨further, named, isNamed, ⟨ref, isNode⟩, columns, higher⟩ :=
      measured.exists_named nonempty roomy leading isSpot
    obtain ⟨node, found, location⟩ := measured.exists_node plain isNamed isNode
    refine ⟨ref, node, measured.family.reaches isNode, found, ?_⟩
    rw [location, isPoint]
    simp only [Layout.origin]
    omega
  refine ⟨answer, after, rest, apart, done, ⟨inside, ?_, ?_⟩, restDone, ?_, ?_⟩
  · intro near
    obtain ⟨place, isPlace, same⟩ := isToured.least_le.2 (by rwa [start.1, ← least])
    obtain ⟨ref, node, leads, found, left, _⟩ := reach isPlace
    have right := (inside leads found).1
    exact ⟨ref, node, leads, found, by simp only; omega⟩
  · intro near
    obtain ⟨place, isPlace, same⟩ := isToured.le_greatest.2 (by rwa [start.2, ← greatest])
    obtain ⟨ref, node, leads, found, _, high⟩ := reach isPlace
    have low := (inside leads found).2
    exact ⟨ref, node, leads, found, by simp only; omega⟩
  · let one := walked.topped.origin toured (grown.locationOf 0) (some cursor)
    let two := walked.topped.origin toured (grown.locationOf 0) none
    refine ⟨⟨two.x - one.x, two.y - one.y⟩, fun leads => ?_⟩
    obtain ⟨level, spot, isSpot, isNode⟩ := measured.exists_spot_of_leads leads
    obtain ⟨node, found, location⟩ := measured.exists_node plain isSpot isNode
    obtain ⟨other, foundOther, locationOther⟩ := measuredRest.exists_node plain isSpot isNode
    refine ⟨node, other, found, foundOther, ?_⟩
    rw [location, locationOther, Point.mk.injEq]
    simp only [one, two]
    omega
  · exact fun isSingle => measuredRest.root_kept isSingle rfl isToured plain

theorem placeNodes_cornered_triangle : ∃ answer after rest apart,
      placeNodes (.single ⟨0, 2⟩) (some ⟨5, 7⟩) (Layout.new ⟨10, 20, 30⟩ triangle (unlinked 3)) =
        .ok answer after ∧ Cornered triangle (.single ⟨0, 2⟩) ⟨0, 7⟩ after ∧
      placeNodes (.single ⟨0, 2⟩) none (Layout.new ⟨10, 20, 30⟩ triangle (unlinked 3)) =
        .ok rest apart := by
  rcases placeNodes_cornered arrangeable_triangle (cons_ne_nil _ _)
    (fun found => Int.le_of_lt (size_unlinked found).2) plain_unlinked ⟨10, 20, 30⟩
      (by decide) ⟨5, 7⟩
    with ⟨answer, after, rest, apart, done, cornered, restDone, _⟩
  exact ⟨answer, after, rest, apart, done, cornered, restDone⟩

theorem placeNodes_left_of_cursor : ∃ answer after one two,
      placeNodes (.single ⟨0, 1⟩) (some ⟨5, 7⟩)
        (Layout.new ⟨10, 20, 30⟩ [linkTo 0 1 0] (unlinked 2)) = .ok answer after ∧
      after.forest.node? ⟨0, 0⟩ = some one ∧ after.forest.node? ⟨0, 1⟩ = some two ∧
      min one.location.x two.location.x ≠ 5 := by
  simp only [exists_and_left]
  decide +kernel

end NodeFormula.Layout
