import Mathlib.Data.List.Chain
import NodeFormula.Proofs.Layout.Growth
import NodeFormula.Proofs.Layout.SecondWalk

/-!
# The whole arrangement

The nodes that feed some different roots by acyclic links form a tree, and arranging them comes to
an end if it is not too deep.  Nodes on one level are apart by the smaller of the distances
between siblings and between subtrees, each level is to the left of the one before it, and so no
two nodes overlap.
-/

namespace NodeFormula.Layout

open List Option Relation LayoutEntry Grove

variable {forest : Forest} {links : List Link} {spacing : Spacing} {below grove : Grove}
  {grown layout after : Layout} {level index : Nat}

section Arranging

def unvisited (layout : Layout) : Layout := { layout with visited := [] }

theorem kin_of_entry (found : layout.entries[index]? = some entry) :
    layout.kin[index]? = some entry.kin := by
  rw [getElem?_kin, found]
  rfl

theorem node_entryOf_eq (layout : Layout) (index : Nat) :
    (entryOf layout.entries index).node = nodeOf? layout.kin index :=
  (node_entryOf layout.entries index).symm.trans (bind_node_eq layout index)

theorem Family.distinct_entries (family : Family forest links roots layout.kin [] [])
    (nodup : roots.nodes.Nodup) : Distinct layout.entries := by
  have isZero {index : Nat} (inside : index < layout.entries.length)
      (nameless : nodeOf? layout.kin index = none) : index = 0 := by
    by_contra other
    have found := getElem?_eq_getElem (length_kin layout ▸ inside)
    obtain ⟨node, named⟩ := family.named found other
    rw [nodeOf?_eq found, named] at nameless
    cases nameless
  intro first second isFirst isSecond same
  rw [node_entryOf_eq, node_entryOf_eq] at same
  cases isNode : nodeOf? layout.kin first with
  | none => rw [isZero isFirst isNode, isZero isSecond (same.symm.trans isNode)]
  | some node => exact family.distinct nodup isNode (same.symm.trans isNode)

theorem Distinct.congr (distinct : Distinct grown.entries) (kin : layout.kin = grown.kin) :
    Distinct layout.entries := by
  intro first second isFirst isSecond same
  rw [← length_kin, kin, length_kin] at isFirst isSecond
  rw [node_entryOf_eq, node_entryOf_eq, kin, ← node_entryOf_eq, ← node_entryOf_eq] at same
  exact distinct isFirst isSecond same

/--
Each entry was met once, and its node is at its spot in the column of its level.  Nothing but the
locations of nodes has changed.
-/
structure Arranged (grown : Layout) (grove : Grove) (walked : Layout) (origin : Point)
    (after : Layout) : Prop where
  isWalked : Walked grown.unvisited 0 .nil grove walked
  entries : after.entries = walked.entries
  visited : after.visited = grove.indices
  nodes : ∀ ref, (after.forest.node? ref).map Node.unlocated =
    (grown.forest.node? ref).map Node.unlocated
  located : Distinct grown.entries → Present grown → ∀ {level : Nat} {spot : Spot},
    spot ∈ grove.spots walked.entries level → after.locationOf spot.index =
      ⟨origin.x - walked.column 0 level, origin.y - spot.place - grown.drop spot.index⟩

def topped (layout : Layout) : Layout :=
  { layout with top :=
    ⟨(layout.locationOf 0).x, (layout.locationOf 0).y - (entryOf layout.entries 0).prelim⟩ }

theorem column_topped (layout : Layout) (level below : Nat) :
    layout.topped.column level below = layout.column level below := by
  induction below generalizing level with
  | zero => rfl
  | succ below ih =>
    rw [column, ih]
    rfl

theorem drop_congr {before : Layout} (kin : after.kin = before.kin)
    (forest : after.forest = before.forest) (index : Nat) :
    after.drop index = before.drop index := by
  rw [drop, drop, bind_node_eq, bind_node_eq, kin, forest]

/-- Where the arrangement begins in the end: a cursor decides, or where the root was. -/
def origin (layout toured : Layout) (before : Point) : Option Point → Point
  | some cursor => ⟨layout.top.x + -toured.least.x, layout.top.y + (cursor.y - toured.greatest.y)⟩
  | none => ⟨layout.top.x + (before.x - (toured.locationOf 0).x),
    layout.top.y + (before.y - (toured.locationOf 0).y)⟩

section Shifting

variable (isWalked : Walked grown.unvisited 0 .nil grove walked)
  (stands : grove.Stands grown.kin none none) (nodup : grove.indices.Nodup)
  (isToured : Toured walked.topped (grove.places walked.topped 0 0 0) toured)
include isWalked stands nodup isToured

theorem Toured.located_spot (distinct : Distinct grown.entries) (present : Present grown)
    (isSpot : spot ∈ grove.spots walked.entries level) :
    Present walked.topped ∧ toured.locationOf spot.index =
      ⟨walked.topped.top.x - walked.column 0 level, walked.topped.top.y - spot.place⟩ := by
  have kin : walked.kin = grown.kin := isWalked.kin
  have presentWalked : Present walked.topped := by
    intro index ref isNode
    have isNodeGrown : (entryOf grown.entries index).node = some ref := by
      rw [node_entryOf_eq, ← kin, ← node_entryOf_eq]
      exact isNode
    obtain ⟨node, found⟩ := present isNodeGrown
    refine ⟨node, ?_⟩
    rw [isWalked.frame]
    exact found
  have isSpotTopped : spot ∈ grove.spots walked.topped.entries level := isSpot
  have met := isToured.located (distinct.congr kin) presentWalked (fun index isIndex => by
      rw [map_places] at isIndex
      show index < walked.entries.length
      rw [← length_kin, kin]
      exact stands.lt_length isIndex)
    (map_places .. ▸ nodup) _ (mem_places isSpotTopped 0 0 0)
  rw [column_topped, Int.sub_zero, Int.sub_zero] at met
  exact ⟨presentWalked, met⟩

theorem Arranged.of_shift (offset : Point) :
    ∃ after, shift offset toured.visited toured = .ok () after ∧
      Arranged grown grove walked ⟨walked.topped.top.x + offset.x, walked.topped.top.y + offset.y⟩
        after ∧ after.least = toured.least ∧ after.greatest = toured.greatest := by
  have kin : walked.kin = grown.kin := isWalked.kin
  have forest : walked.forest = grown.forest := by rw [isWalked.frame]; rfl
  have visited : toured.visited = grove.indices := by
    rw [isToured.visited, map_places]
    rw [isWalked.frame]
    rfl
  have relocates := isToured.relocates
  rcases shift_ok offset (visited ▸ nodup) (fun index member => by
      rw [relocates.entries]
      show index < walked.entries.length
      rw [← length_kin, kin]
      exact stands.lt_length (visited ▸ member)) with
    ⟨after, done, relocatesLast, extents, located⟩
  simp only [Prod.mk.injEq] at extents
  refine ⟨after, done, ⟨isWalked, relocatesLast.entries.trans relocates.entries,
    extents.1.trans visited, ?_, ?_⟩, extents.2⟩
  · intro ref
    rw [relocatesLast.nodes, relocates.nodes, ← forest]
    rfl
  · intro distinct present level spot isSpot
    obtain ⟨presentWalked, met⟩ :=
      isToured.located_spot isWalked stands nodup distinct present isSpot
    have member : spot.index ∈ grove.indices := by
      have isAt : spot.index ∈ (grove.spots walked.entries level).map (·.index) :=
        mem_map_of_mem isSpot
      rw [map_index_spots] at isAt
      exact mem_indices_of_mem_nodesAt isAt
    have distinctToured : Distinct toured.entries := relocates.entries ▸ distinct.congr kin
    have dropped : toured.drop spot.index = grown.drop spot.index :=
      (relocates.drop_eq spot.index).trans (drop_congr kin forest spot.index)
    rw [located distinctToured (relocates.present presentWalked) spot.index (visited ▸ member), met,
      dropped]
    simp only [Point.mk.injEq]
    constructor <;> omega

end Shifting

variable (framed : Framed (Layout.new spacing links forest) grown)
  (family : Family forest links roots grown.kin [] [])
  (stands : (Grove.tree 0 below).Stands grown.kin none none)
  (all : (Grove.tree 0 below).indices.Perm (List.range grown.kin.length))
  (few : ∀ {level : Nat}, (Grove.tree 0 below).nodesAt level ≠ [] → level < levelCount)
include framed family stands all few

theorem context_root : Context grown.unvisited 0 none .nil (.cons 0 below .nil) := by
  have previous : grown.previous = replicate levelCount none := by rw [framed.1]; rfl
  have widths : grown.widths = replicate levelCount 0 := by rw [framed.1]; rfl
  refine ⟨family.woven, stands, all.nodup_iff.2 nodup_range, ?_, ?_, ?_, ?_, ?_, ?_⟩
  · exact fun top _ => ⟨top, rfl⟩
  · intro level met
    rw [Nat.zero_add]
    exact few met
  · show grown.previous.length = _
    rw [previous, length_replicate]
  · show grown.widths.length = _
    rw [widths, length_replicate]
  · intro level last isLast
    cases level <;> cases isLast
  · intro level other _ isLast
    have nothing : grown.unvisited.last? (0 + level) = none := by
      show (grown.previous[0 + level]?).join = none
      rw [previous, getElem?_replicate]
      split <;> rfl
    rw [nothing] at isLast
    cases isLast

/-- Arranging comes to an end if the tree is not too deep. -/
theorem placeNodes_ok (isGrown : growRoots roots (new spacing links forest) = .ok 0 grown) :
    ∃ walked toured, Leading grown.unvisited 0 below walked ∧
      Toured walked.topped ((tree 0 below).places walked.topped 0 0 0) toured ∧
      ∀ cursor, ∃ answer after,
        placeNodes roots cursor (new spacing links forest) = .ok answer after ∧
          Arranged grown (.tree 0 below) walked
            (walked.topped.origin toured (grown.locationOf 0) cursor)
            after ∧ after.least = toured.least ∧ after.greatest = toured.greatest := by
  have context := context_root framed family stands all few
  obtain ⟨walked, walking, isWalked, leading⟩ := firstWalk_ok (levelCount + 1) context (by omega)
  have kin : walked.kin = grown.kin := isWalked.kin
  have count : (tree 0 below).indices.length < walked.entries.length + 1 := by
    rw [all.length_eq, length_range, ← kin, length_kin]
    exact Nat.lt_succ_self _
  have stillStands : (tree 0 below).Stands walked.topped.kin none none := kin ▸ stands
  rcases secondWalk_ok rfl (walked.entries.length + 1) 0 0 0 stillStands count (fun met => by
      show _ < walked.widths.length
      rw [isWalked.lengths.2, context.widths, Nat.zero_add]
      exact few met) with ⟨toured, touring, isToured⟩
  have arranges := Arranged.of_shift isWalked stands (all.nodup_iff.2 nodup_range) isToured
  have forgetting :
    (modify fun layout : Layout => { layout with visited := [] } : Arrange PUnit) grown =
    .ok () grown.unvisited := rfl
  have isEntry : entryAt 0 walked = .ok (entryOf walked.entries 0) walked := rfl
  have topping : (modify fun layout : Layout => { layout with top :=
      ⟨(layout.locationOf 0).x, (layout.locationOf 0).y - (entryOf walked.entries 0).prelim⟩ } :
      Arrange PUnit) walked = .ok () walked.topped := rfl
  refine ⟨walked, toured, leading rfl, isToured, fun cursor => ?_⟩
  rw [placeNodes, bind_of_ok isGrown, bind_of_ok forgetting, bind_get, bind_of_ok walking,
    bind_of_ok isEntry, bind_of_ok topping, bind_get]
  rw [show walked.topped.entries = walked.entries from rfl, bind_of_ok touring]
  cases cursor with
  | _ =>
    obtain ⟨after, done, arranged⟩ := arranges _
    exact ⟨_, after, bind_of_ok done, arranged⟩

end Arranging

/-! ## The tree -/

def Leads (links : List Link) (roots : Roots) (node : NodeRef) : Prop :=
  ∃ root ∈ roots.nodes, ReflTransGen (Feeds links) node root

/--
The entries are a tree below the first one, and the nodes that lead to a root have one entry
each.  Every entry lists those that have it as their parent, in the order of the inputs of its node.
-/
structure IsTree (links : List Link) (roots : Roots) (layout : Layout) : Prop where
  once : ∀ node, Leads links roots node → ∃! index, nodeOf? layout.kin index = some node
  leads : ∀ {index : Nat} {node : NodeRef}, nodeOf? layout.kin index = some node →
    Leads links roots node
  root : ∃ entry, layout.entries[0]? = some entry ∧ entry.node = roots.node? ∧
    entry.parent = none ∧ entry.left = none ∧ entry.right = none
  rooted : ∀ index < layout.entries.length, ∃ level, above layout.kin level index = some 0
  named : ∀ {index : Nat} {entry : LayoutEntry}, layout.entries[index]? = some entry → index ≠ 0 →
    ∃ node, entry.node = some node
  nodup : ∀ {index : Nat} {entry : LayoutEntry}, layout.entries[index]? = some entry →
    entry.children.Nodup
  children : ∀ {index : Nat} {entry : LayoutEntry}, layout.entries[index]? = some entry →
    ∀ child, child ∈ entry.children ↔
      ∃ below, layout.entries[child]? = some below ∧ below.parent = some index
  ordered : ∀ {index : Nat} {entry : LayoutEntry} {node : NodeRef},
    layout.entries[index]? = some entry → entry.node = some node →
    Ordered links layout.kin node entry.children
  siblings : ∀ {index child : Nat} {entry : LayoutEntry} {earlier later : List Nat},
    layout.entries[index]? = some entry → entry.children = earlier ++ child :: later →
    ∃ below, layout.entries[child]? = some below ∧ below.left = earlier.getLast? ∧
      below.right = later.head?
  followed : ∀ {index : Nat} {entry : LayoutEntry}, layout.entries[index]? = some entry →
    layout.childrenOf index = entry.children

section Trees

theorem childrenOf_eq_of_woven (woven : Kin.Woven layout.kin [])
    (found : layout.entries[index]? = some entry) : layout.childrenOf index = entry.children := by
  have isKin := kin_of_entry found
  have row := woven.row isKin
  have inside : entry.children ⊆ .range layout.entries.length := by
    intro child member
    obtain ⟨kin, isChild, _⟩ := row.mem member
    rw [mem_range, ← length_kin]
    exact (List.getElem?_eq_some_iff.1 isChild).1
  have short := (subperm_of_subset (woven.nodup isKin) inside).length_le
  rw [length_range] at short
  rw [childrenOf, found]
  exact siblingsFrom_row row (Nat.lt_succ_of_le short)

theorem Family.exists_of_leads (family : Family forest links roots layout.kin [] [])
    (rooted : ∀ root ∈ roots.nodes, ∃ index, nodeOf? layout.kin index = some root) {node : NodeRef}
    (leads : Leads links roots node) : ∃ index, nodeOf? layout.kin index = some node := by
  obtain ⟨root, isRoot, way⟩ := leads
  induction way using ReflTransGen.head_induction_on with
  | refl => exact rooted root isRoot
  | head feeds _ ih =>
    obtain ⟨index, isNode⟩ := ih
    obtain ⟨link, isLink, rfl, isTarget⟩ := feeds
    exact family.closed isNode nofun link isLink isTarget

theorem Family.exists_above (family : Family forest links roots layout.kin [] [])
    (acyclic : ∀ node, ¬ TransGen (Feeds links) node node)
    (inside : index < layout.entries.length) :
    ∃ level, above layout.kin level index = some 0 := by
  obtain ⟨_, ⟨_, standsBelow, _⟩, all⟩ := family.exists_grove acyclic
  have member := all.mem_iff.2 (mem_range.2 (length_kin layout ▸ inside))
  rw [indices, mem_cons, indices, append_nil] at member
  rcases member with rfl | isBelow
  · exact ⟨0, rfl⟩
  · obtain ⟨level, _, _, _, isAbove⟩ := standsBelow.exists_above isBelow
    exact ⟨level + 1, isAbove⟩

theorem Family.isTree (family : Family forest links roots layout.kin [] [])
    (nodup : roots.nodes.Nodup) (acyclic : ∀ node, ¬ TransGen (Feeds links) node node)
    (rooted : ∀ root ∈ roots.nodes, ∃ index, nodeOf? layout.kin index = some root) :
    IsTree links roots layout := by
  refine ⟨?_, family.reaches, ?_, ?_, fun found => family.named (kin_of_entry found),
    fun found => family.woven.nodup (kin_of_entry found), ?_,
    fun found => family.ordered (kin_of_entry found), ?_, childrenOf_eq_of_woven family.woven⟩
  · intro node leads
    obtain ⟨index, isNode⟩ := family.exists_of_leads rooted leads
    exact ⟨index, isNode, fun other isOther => family.distinct nodup isOther isNode⟩
  · obtain ⟨kin, isTop, noParent, isRoot⟩ := family.top
    obtain ⟨noLeft, noRight⟩ := family.woven.alone isTop noParent
    obtain ⟨entry, found, rfl⟩ := exists_entry isTop
    exact ⟨entry, found, isRoot, noParent, noLeft, noRight⟩
  · exact fun index inside => family.exists_above acyclic inside
  · intro index entry found child
    constructor
    · intro member
      obtain ⟨kin, isChild, isParent⟩ := (family.woven.row (kin_of_entry found)).mem member
      obtain ⟨below, foundBelow, rfl⟩ := exists_entry isChild
      exact ⟨below, foundBelow, isParent⟩
    · rintro ⟨below, foundBelow, isParent⟩
      obtain ⟨_, isOver, member⟩ :=
        family.woven.member (kin_of_entry foundBelow) isParent not_mem_nil
      cases isOver.symm.trans (kin_of_entry found)
      exact member
  · intro index child entry earlier later found split
    have row := family.woven.row (kin_of_entry found)
    rw [show entry.kin.children = entry.children from rfl, split, Kin.row_append] at row
    obtain ⟨⟨kin, isChild, _, isLeft, isRight⟩, _⟩ := row.2
    obtain ⟨below, foundBelow, rfl⟩ := exists_entry isChild
    exact ⟨below, foundBelow, isLeft.trans (or_none ..), isRight.trans (or_none ..)⟩

theorem Grove.exists_level (member : index ∈ grove.indices) :
    ∃ level, index ∈ grove.nodesAt level := by
  induction grove with
  | nil => cases member
  | cons first below rest ihBelow ihRest =>
    rw [indices, mem_cons, mem_append] at member
    rcases member with rfl | isBelow | isLater
    · exact ⟨0, mem_cons_self⟩
    · obtain ⟨level, isAt⟩ := ihBelow isBelow
      exact ⟨level + 1, mem_append_left _ isAt⟩
    · obtain ⟨level, isAt⟩ := ihRest isLater
      cases level with
      | zero => exact ⟨0, mem_cons_of_mem _ isAt⟩
      | succ level => exact ⟨level + 1, mem_append_right _ isAt⟩

theorem above_of_spot (stands : (tree 0 below).Stands layout.kin none none)
    (member : spot ∈ (tree 0 below).spots layout.entries level) :
    above layout.kin level spot.index = some 0 := by
  rw [← show spot.top = 0 from mem_singleton.1 (top_mem_tops member)]
  exact (stands.spot member).1

theorem few_of_levels (stands : (tree 0 below).Stands layout.kin none none)
    (levels : ∀ {index level}, above layout.kin level index = some 0 → level < levelCount)
    (met : (tree 0 below).nodesAt level ≠ []) : level < levelCount := by
  rw [← map_index_spots layout.entries] at met
  obtain ⟨_, member⟩ := exists_mem_of_ne_nil _ (fun empty => met (map_eq_nil_iff.2 empty))
  exact levels (above_of_spot stands member)

end Trees

/-! ## Distances -/

def AtLevel (layout : Layout) (node : NodeRef) (level : Nat) : Prop :=
  ∃ index, nodeOf? layout.kin index = some node ∧ above layout.kin level index = some 0

/-- The number of levels above the roots. -/
def Roots.levels : Roots → Nat
  | .single _ => 0
  | .several _ => 1

/-- There is room for the chains of links up to the roots. -/
def Short (links : List Link) (roots : Roots) : Prop :=
  ∀ chain : List NodeRef, chain.IsChain (Feeds links) →
    (∃ root ∈ roots.nodes, chain.getLast? = some root) → chain.length + roots.levels ≤ levelCount

/-- Different roots can be arranged with what feeds them, if chains are not too long. -/
structure Arrangeable (forest : Forest) (links : List Link) (roots : Roots) : Prop where
  drawn : Drawn forest links
  nodup : roots.nodes.Nodup
  exist : ∀ root ∈ roots.nodes, ∃ node, forest.node? root = some node
  short : Short links roots

/-- The rectangles of two nodes have no inner point in common. -/
def Clear (one two : Node) : Prop :=
  one.location.x + one.dimensions.x ≤ two.location.x ∨
    two.location.x + two.dimensions.x ≤ one.location.x ∨
    one.location.y + two.dimensions.y ≤ two.location.y ∨
    two.location.y + one.dimensions.y ≤ one.location.y

/--
The nodes that lead to a root are placed.  Of two on one level the lower is at least the height of
the upper one and a gap below it, and a level ends to the left of the one before it.
-/
structure Spaced (links : List Link) (roots : Roots) (spacing : Spacing) (after : Layout) :
    Prop where
  level : ∀ {ref}, Leads links roots ref → ∃ level, AtLevel after ref level
  beside : ∀ {ref other one two level}, ref ≠ other →
    after.forest.node? ref = some one → after.forest.node? other = some two →
    AtLevel after ref level → AtLevel after other level →
    two.location.y + one.dimensions.y + min spacing.sibling spacing.subtree ≤ one.location.y ∨
      one.location.y + two.dimensions.y + min spacing.sibling spacing.subtree ≤ two.location.y
  next : ∀ {ref other one two level},
    after.forest.node? ref = some one → after.forest.node? other = some two →
    AtLevel after ref level → AtLevel after other (level + 1) →
    two.location.x + two.dimensions.x + spacing.level ≤ one.location.x
  clear : ∀ {ref other one two}, ref ≠ other →
    after.forest.node? ref = some one → after.forest.node? other = some two →
    Leads links roots ref → Leads links roots other → Clear one two

section Distances

variable {top : Nat} {node : Node} {origin : Point}

namespace Family

variable (family : Family forest links roots table [] [])
include family

theorem exists_node_of_parent {parent}
    (isParent : table[index]?.bind (·.parent) = some parent) :
    ∃ node, nodeOf? table index = some node := by
  obtain ⟨_, found, isChild⟩ := bind_eq_some_iff.1 isParent
  rw [nodeOf?_eq found]
  refine family.named found ?_
  rintro rfl
  obtain ⟨_, isFirst, noParent, _⟩ := family.top
  cases isFirst.symm.trans found
  cases noParent.symm.trans isChild

theorem exists_node_of_above (isAbove : above table level index = some top)
    (isLast : nodeOf? table top = some last) : ∃ node, nodeOf? table index = some node := by
  cases level with
  | zero =>
    cases isAbove
    exact ⟨last, isLast⟩
  | succ level =>
    obtain ⟨_, isParent, _⟩ := bind_eq_some_iff.1 isAbove
    exact family.exists_node_of_parent isParent

theorem feeds_of_parent {parent} (isParent : table[index]?.bind (·.parent) = some parent)
    (isSource : nodeOf? table index = some source) (isTarget : nodeOf? table parent = some target) :
    Feeds links source target := by
  obtain ⟨_, found, isChild⟩ := bind_eq_some_iff.1 isParent
  obtain ⟨_, isOver, member⟩ := family.woven.member found isChild nofun
  exact (family.ordered isOver ((nodeOf?_eq isOver).symm.trans isTarget)).feeds member isSource

theorem exists_chain {node}
    (isAbove : above table level index = some top) (isNode : nodeOf? table index = some node)
    (isLast : nodeOf? table top = some last) :
    ∃ chain : List NodeRef, chain.length = level ∧ (chain ++ [last]).IsChain (Feeds links) ∧
      (chain ++ [last]).head? = some node := by
  induction level generalizing index node with
  | zero =>
    cases isAbove
    cases isNode.symm.trans isLast
    exact ⟨[], rfl, .singleton _, rfl⟩
  | succ level ih =>
    obtain ⟨_, isParent, further⟩ := bind_eq_some_iff.1 isAbove
    obtain ⟨_, isTarget⟩ := family.exists_node_of_above further isLast
    obtain ⟨chain, length, isChain, isFirst⟩ := ih further isTarget
    refine ⟨node :: chain, congrArg Nat.succ length, ?_, rfl⟩
    refine isChain.cons fun first isHead => ?_
    cases isFirst.symm.trans isHead
    exact family.feeds_of_parent isParent isNode isTarget

theorem level_lt (short : Short links roots) (isAbove : above table level index = some 0) :
    level < levelCount := by
  -- What follows a node on its way to a root makes a chain only longer.
  have bound {level index top : Nat} {last : NodeRef} (isAbove : above table level index = some top)
      (isLast : nodeOf? table top = some last) : level + 1 + roots.levels ≤ levelCount := by
    obtain ⟨node, isNode⟩ := family.exists_node_of_above isAbove isLast
    obtain ⟨chain, _, isChain, _⟩ := family.exists_chain isAbove isNode isLast
    obtain ⟨root, isRoot, way⟩ := family.reaches isLast
    obtain ⟨further, isWay, isEnd⟩ := exists_isChain_cons_of_relationReflTransGen way
    have whole : (chain ++ last :: further).IsChain (Feeds links) :=
      isChain_split.2 ⟨isChain, isWay⟩
    have fits := short _ whole ⟨root, isRoot, by
      rw [getLast?_append, getLast?_eq_some_getLast (cons_ne_nil _ _), isEnd]
      rfl⟩
    rw [length_append, length_cons] at fits
    omega
  cases roots with
  | single root =>
    obtain ⟨_, isFirst, _, isRoot⟩ := family.top
    have fits := bound isAbove ((nodeOf?_eq isFirst).trans isRoot)
    omega
  | several nodes =>
    cases level with
    | zero => decide
    | succ level =>
      rw [above_add] at isAbove
      obtain ⟨_, isBelow, isTop⟩ := bind_eq_some_iff.1 isAbove
      obtain ⟨_, isParent, _⟩ := bind_eq_some_iff.1 isTop
      obtain ⟨node, isNode⟩ := family.exists_node_of_parent isParent
      have fits := bound isBelow isNode
      rw [Roots.levels] at fits
      omega

end Family

theorem Arranged.exists_original (arranged : Arranged grown grove walked origin after)
    (same : SameUnselected forest grown.forest) (found : after.forest.node? ref = some node) :
    ∃ original, forest.node? ref = some original ∧ original.dimensions = node.dimensions := by
  have moved := arranged.nodes ref
  rw [found] at moved
  obtain ⟨_, isMiddle, sameMiddle⟩ := map_eq_some_iff.1 moved.symm
  have selected := same ref
  rw [isMiddle] at selected
  obtain ⟨original, isOriginal, sameOriginal⟩ := map_eq_some_iff.1 selected.symm
  have size := congrArg Node.dimensions sameMiddle
  exact ⟨original, isOriginal, (congrArg Node.dimensions sameOriginal).trans size⟩

theorem sizeIn_eq (found : forest.node? ref = some node) : sizeIn forest (some ref) =
    (sizeOr node.dimensions.x 140, sizeOr node.dimensions.y 100) := by
  simp only [sizeIn, kinOf, found, getD_some, LayoutEntry.kin, ofNode]

theorem sizeOr_of_pos (positive : 0 < measured) (usual : Int) : sizeOr measured usual = measured :=
  if_neg (by omega)

theorem tall_sizeIn (tall : ∀ {ref node}, forest.node? ref = some node →
      0 ≤ node.dimensions.y) (node : Option NodeRef) : 0 ≤ (sizeIn forest node).2 := by
  cases node with
  | none => exact show (0 : Int) ≤ 10 by decide
  | some ref =>
    cases found : forest.node? ref with
    | none =>
      rw [sizeIn, kinOf, found]
      exact show (0 : Int) ≤ 110 by decide
    | some node =>
      have nonneg := tall found
      rw [sizeIn_eq found]
      show 0 ≤ sizeOr node.dimensions.y 100
      rw [sizeOr]
      split <;> omega

theorem Family.size_entryOf (family : Family forest links roots grown.kin [] []) (index : Nat) :
    ((entryOf grown.entries index).width, (entryOf grown.entries index).height) =
      sizeIn forest (nodeOf? grown.kin index) := by
  cases found : grown.entries[index]? with
  | none =>
    rw [nodeOf?, getElem?_kin, entryOf, getD_eq_getElem?_getD, found]
    rfl
  | some entry =>
    rw [entryOf_eq found, nodeOf?_eq (kin_of_entry found)]
    exact family.sized (kin_of_entry found)

theorem Family.present (family : Family forest links roots grown.kin [] [])
    (drawn : Drawn forest links) (same : SameUnselected forest grown.forest)
    (exist : ∀ root ∈ roots.nodes, ∃ node, forest.node? root = some node) : Present grown := by
  intro index ref isNode
  rw [node_entryOf_eq] at isNode
  obtain ⟨node, isNode⟩ : ∃ node, forest.node? ref = some node := by
    obtain ⟨root, isRoot, way⟩ := family.reaches isNode
    rcases way.cases_head with rfl | ⟨target, ⟨link, isLink, rfl, _⟩, _⟩
    · exact exist ref isRoot
    · exact drawn.source link isLink
  have selected := same ref
  rw [isNode] at selected
  obtain ⟨kept, isKept, _⟩ := map_eq_some_iff.1 selected
  exact ⟨kept, isKept⟩

/-- What is needed to measure the arrangement of a tree. -/
structure Measured (forest : Forest) (links : List Link) (roots : Roots) (spacing : Spacing)
    (grown : Layout) (below : Grove) (walked after : Layout) (origin : Point) : Prop where
  arranged : Arranged grown (.tree 0 below) walked origin after
  family : Family forest links roots grown.kin [] []
  rooted : ∀ root ∈ roots.nodes, ∃ index, nodeOf? grown.kin index = some root
  acyclic : ∀ node, ¬ TransGen (Feeds links) node node
  stands : (Grove.tree 0 below).Stands grown.kin none none
  all : (Grove.tree 0 below).indices.Perm (List.range grown.kin.length)
  framed : Framed (Layout.new spacing links forest) grown
  distinct : Distinct grown.entries
  present : Present grown
  level : 0 ≤ spacing.level

namespace Measured

variable (measured : Measured forest links roots spacing grown below walked after origin)
include measured

theorem kin_eq : walked.kin = grown.kin ∧ after.kin = grown.kin := by
  have walkedKin : walked.kin = grown.kin := measured.arranged.isWalked.kin
  refine ⟨walkedKin, ?_⟩
  rw [kin, measured.arranged.entries]
  exact walkedKin

theorem exists_level (leads : Leads links roots ref) : ∃ level, AtLevel after ref level := by
  obtain ⟨index, isNode⟩ := measured.family.exists_of_leads measured.rooted leads
  obtain ⟨level, isAbove⟩ :=
    measured.family.exists_above measured.acyclic (lt_length_of_node isNode)
  rw [← measured.kin_eq.2] at isNode isAbove
  exact ⟨level, index, isNode, isAbove⟩

theorem exists_spot_of_node (isNode : nodeOf? grown.kin index = some ref) :
    ∃ level, ∃ spot ∈ (Grove.tree 0 below).spots walked.entries level, spot.index = index := by
  have member := measured.all.mem_iff.2 (mem_range.2 (length_kin grown ▸ lt_length_of_node isNode))
  obtain ⟨level, isAt⟩ := Grove.exists_level member
  rw [← map_index_spots walked.entries] at isAt
  exact ⟨level, mem_map.1 isAt⟩

theorem exists_spot (found : after.forest.node? ref = some one) (isAt : AtLevel after ref level) :
    ∃ spot ∈ (tree 0 below).spots walked.entries level,
      nodeOf? grown.kin spot.index = some ref ∧ one.location =
        ⟨origin.x - walked.column 0 level, origin.y - spot.place - grown.drop spot.index⟩ ∧
      (entryOf walked.entries spot.index).width = sizeOr one.dimensions.x 140 ∧
      (entryOf walked.entries spot.index).height = sizeOr one.dimensions.y 100 := by
  obtain ⟨walkedKin, afterKin⟩ := measured.kin_eq
  obtain ⟨index, isNode, isAbove⟩ := isAt
  have isNodeAfter := isNode
  rw [afterKin] at isNode isAbove
  obtain ⟨at_, spot, isSpot, rfl⟩ := measured.exists_spot_of_node isNode
  -- The level of the spot is the only one that its entry can have.
  have isLevel : at_ = level := by
    obtain ⟨height, falls, _⟩ := measured.family.exists_height measured.acyclic
    have standsWalked : (tree 0 below).Stands walked.kin none none :=
      walkedKin ▸ measured.stands
    have aboveSpot := above_of_spot standsWalked isSpot
    rw [walkedKin] at aboveSpot
    have climbs : Climbs height grown.kin := measured.family.climbs falls
    exact climbs.level_unique aboveSpot isAbove
  subst isLevel
  have same : SameUnselected forest grown.forest := measured.framed.2
  obtain ⟨_, isOriginal, sameSize⟩ := measured.arranged.exists_original same found
  have location : after.locationOf spot.index = one.location := by
    rw [locationOf, bind_node_eq, isNodeAfter]
    simp only [found, map_some, getD_some]
  have size := measured.family.size_entryOf spot.index
  rw [isNode, sizeIn_eq isOriginal, sameSize, Prod.mk.injEq] at size
  have sameWalked := height_of_kin walkedKin spot.index
  refine ⟨spot, isSpot, isNode, ?_, sameWalked.2.trans size.1, sameWalked.1.trans size.2⟩
  rw [← location, measured.arranged.located measured.distinct measured.present isSpot]

theorem drop_eq_zero (plain : ∀ {ref node}, forest.node? ref = some node →
      isInside rerouteMark.toList node.key.toList = false)
    (isNode : nodeOf? grown.kin index = some ref) : grown.drop index = 0 := by
  have isNodeEntry : (entryOf grown.entries index).node = some ref :=
    (node_entryOf_eq grown index).trans isNode
  obtain ⟨node, found⟩ := measured.present isNodeEntry
  have selected := measured.framed.2 ref
  rw [found] at selected
  obtain ⟨original, isOriginal, same⟩ := map_eq_some_iff.1 selected.symm
  have key := congrArg Node.key same
  rw [drop, bind_node_eq, isNode]
  simp only [found, map_some, getD_some, show node.key = original.key from key.symm,
    plain isOriginal]
  rfl

theorem spacing_eq : grown.spacing = spacing ∧ walked.spacing = spacing := by
  have grownSpacing : grown.spacing = spacing := by rw [measured.framed.1]; rfl
  refine ⟨grownSpacing, ?_⟩
  rw [measured.arranged.isWalked.frame]
  exact grownSpacing

theorem width_nonneg (place : Nat) : 0 ≤ walked.widths[place]?.getD 0 := by
  have start : grown.unvisited.widths = replicate levelCount 0 := by
    rw [measured.framed.1]
    rfl
  by_cases inside : place < levelCount
  · have isZero : grown.unvisited.widths[place]? = some 0 := by
      rw [start, getElem?_replicate_of_lt inside]
    obtain ⟨_, isWidth, _⟩ := measured.arranged.isWalked.grows isZero
    rwa [isWidth]
  · have outside : walked.widths[place]? = none := by
      rw [getElem?_eq_none_iff, measured.arranged.isWalked.lengths.2, start]
      exact Nat.le_of_not_lt inside
    rw [outside]
    exact Int.le_refl 0

theorem column_le (le : near ≤ far) : walked.column 0 near ≤ walked.column 0 far := by
  induction le with
  | refl => exact Int.le_refl _
  | @step far _ ih =>
    have width := measured.width_nonneg (0 + far + 1)
    have nonneg := measured.level
    rw [column_succ, measured.spacing_eq.2]
    omega

theorem left_of (found : after.forest.node? ref = some one) (isAt : AtLevel after ref near)
    (foundOther : after.forest.node? other = some two) (isAtOther : AtLevel after other (level + 1))
    (wide : 0 < two.dimensions.x) (le : near ≤ level) :
    two.location.x + two.dimensions.x + spacing.level ≤ one.location.x := by
  obtain ⟨_, _, _, location, _, _⟩ := measured.exists_spot found isAt
  obtain ⟨further, isFurther, _, locationOther, width, _⟩ :=
    measured.exists_spot foundOther isAtOther
  have member : further.index ∈ (tree 0 below).nodesAt (level + 1) := by
    rw [← map_index_spots walked.entries]
    exact mem_map_of_mem isFurther
  obtain ⟨_, isRoom, _⟩ := measured.arranged.isWalked.wide member
  have columns := measured.column_le le
  rw [sizeOr_of_pos wide] at width
  rw [location, locationOther, column_succ, measured.spacing_eq.2]
  rw [show 0 + level + 1 = 0 + (level + 1) by omega, isRoom, getD_some]
  simp only
  omega

theorem roomy (distances : 0 ≤ spacing.sibling ∧ 0 ≤ spacing.subtree)
    (tall : ∀ {ref node}, forest.node? ref = some node → 0 ≤ node.dimensions.y) :
    Roomy grown.unvisited (min spacing.sibling spacing.subtree) := by
  have same : grown.unvisited.spacing = spacing := measured.spacing_eq.1
  refine ⟨by omega, by rw [same]; exact Int.min_le_left .., by rw [same]; exact Int.min_le_right ..,
    ?_⟩
  intro index
  have nonneg := tall_sizeIn tall (nodeOf? grown.kin index)
  rwa [← measured.family.size_entryOf] at nonneg

variable (distances : 0 ≤ spacing.sibling ∧ 0 ≤ spacing.subtree)
  (sizes : ∀ {ref : NodeRef} {node : Node}, forest.node? ref = some node →
    0 < node.dimensions.x ∧ 0 < node.dimensions.y)
  (plain : ∀ {ref : NodeRef} {node : Node}, forest.node? ref = some node →
    isInside rerouteMark.toList node.key.toList = false)
include sizes

theorem size_pos (found : after.forest.node? ref = some one) :
    0 < one.dimensions.x ∧ 0 < one.dimensions.y := by
  obtain ⟨_, isOriginal, same⟩ := measured.arranged.exists_original measured.framed.2 found
  rw [← same]
  exact sizes isOriginal

include distances plain

theorem apart (different : ref ≠ other) (found : after.forest.node? ref = some one)
    (isAt : AtLevel after ref level) (foundOther : after.forest.node? other = some two)
    (isAtOther : AtLevel after other level) :
    two.location.y + one.dimensions.y + min spacing.sibling spacing.subtree ≤ one.location.y ∨
      one.location.y + two.dimensions.y + min spacing.sibling spacing.subtree ≤ two.location.y := by
  obtain ⟨spot, isSpot, isNode, location, _, height⟩ := measured.exists_spot found isAt
  obtain ⟨another, isAnother, isOther, locationOther, _, heightOther⟩ :=
    measured.exists_spot foundOther isAtOther
  have spotsDiffer : spot ≠ another := by
    rintro rfl
    exact different (some.inj (isNode.symm.trans isOther))
  have roomy := measured.roomy distances fun found => Int.le_of_lt (sizes found).2
  have empty : AllApart grown.unvisited.entries (min spacing.sibling spacing.subtree) .nil := by
    intro level
    cases level <;> exact .nil
  have apart := measured.arranged.isWalked.apart _ roomy empty level
  have either := apart.either isSpot isAnother spotsDiffer
  rw [height, heightOther, sizeOr_of_pos (measured.size_pos sizes found).2,
    sizeOr_of_pos (measured.size_pos sizes foundOther).2] at either
  rw [location, locationOther, measured.drop_eq_zero plain isNode,
    measured.drop_eq_zero plain isOther]
  simp only
  omega

theorem spaced : Spaced links roots spacing after := by
  have apart {ref other : NodeRef} {one two : Node} {level : Nat} (different : ref ≠ other)
      (found : after.forest.node? ref = some one) (foundOther : after.forest.node? other = some two)
      (isAt : AtLevel after ref level) (isAtOther : AtLevel after other level) :=
    measured.apart distances sizes plain different found isAt foundOther isAtOther
  refine ⟨measured.exists_level, apart, ?_, ?_⟩
  · intro ref other one two level found foundOther isAt isAtOther
    exact measured.left_of found isAt foundOther isAtOther (measured.size_pos sizes foundOther).1
      (Nat.le_refl level)
  · intro ref other one two different found foundOther leads leadsOther
    have nonneg := measured.level
    have wide := (measured.size_pos sizes found).1
    have wideOther := (measured.size_pos sizes foundOther).1
    obtain ⟨level, isAt⟩ := measured.exists_level leads
    obtain ⟨another, isAtOther⟩ := measured.exists_level leadsOther
    rcases Nat.lt_trichotomy level another with before | rfl | after
    · cases another with
      | zero => cases before
      | succ another =>
        have left := measured.left_of found isAt foundOther isAtOther wideOther
          (Nat.le_of_lt_succ before)
        exact .inr (.inl (by omega))
    · rcases apart different found foundOther isAt isAtOther with lower | higher
      · exact .inr (.inr (.inr (by omega)))
      · exact .inr (.inr (.inl (by omega)))
    · cases level with
      | zero => cases after
      | succ level =>
        have left := measured.left_of foundOther isAtOther found isAt wide (Nat.le_of_lt_succ after)
        exact .inl (by omega)

end Measured

theorem placeNodes_measured (fit : Arrangeable forest links roots) (level : 0 ≤ spacing.level) :
    ∃ grown below walked toured, Leading grown.unvisited 0 below walked ∧
      Toured walked.topped ((tree 0 below).places walked.topped 0 0 0) toured ∧
      ∀ cursor, ∃ answer after,
        placeNodes roots cursor (new spacing links forest) = .ok answer after ∧
          Measured forest links roots spacing grown below walked after
            (walked.topped.origin toured (grown.locationOf 0) cursor) ∧
          after.least = toured.least ∧ after.greatest = toured.greatest := by
  have ⟨drawn, nodup, exist, short⟩ := fit
  rcases growRoots_ok drawn roots spacing with ⟨grown, isGrown, framed, growing, rooted⟩
  have family := growing.family
  rcases family.exists_grove drawn.acyclic with ⟨below, stands, all⟩
  rcases placeNodes_ok framed family stands all
    (few_of_levels stands (family.level_lt short)) isGrown
    with ⟨walked, toured, leading, isToured, places⟩
  refine ⟨grown, below, walked, toured, leading, isToured, fun cursor => ?_⟩
  obtain ⟨answer, after, done, arranged, extents⟩ := places cursor
  exact ⟨answer, after, done, ⟨arranged, family, rooted, drawn.acyclic, stands, all, framed,
    family.distinct_entries nodup, family.present drawn framed.2 exist, level⟩, extents⟩

end Distances

/-! ## Arranging what feeds some roots -/

def unlinked (count : Nat) : Forest :=
  [⟨"", "", [], [], List.replicate count ⟨"Node", "", [], ⟨0, 0⟩, ⟨140, 100⟩, none, false, none,
    [⟨"a", .absent⟩, ⟨"b", .absent⟩], [⟨"c", .absent⟩]⟩, []⟩]

def linkTo (source target input : Nat) : Link :=
  ⟨⟨0, source, .output, 0⟩, ⟨0, target, .input, input⟩⟩

theorem nodes_unlinked {count node} (found : (unlinked count).node? ref = some node) :
    node.key = "Node" ∧ node.dimensions = ⟨140, 100⟩ := by
  rcases ref with ⟨_ | _, _⟩
  · cases eq_of_mem_replicate (mem_of_getElem? found)
    exact ⟨rfl, rfl⟩
  · cases found

/-- The first of three nodes feeds both of the others, and the second one the last. -/
def triangle : List Link := [linkTo 0 2 0, linkTo 1 2 1, linkTo 0 1 0]

section Main

/-- The links only go from nodes to later ones. -/
abbrev Forward (links : List Link) : Prop :=
  ∀ link ∈ links, link.source.owner.index < link.target.owner.index

theorem Forward.lt (forward : Forward links) (feeds : Feeds links source target) :
    source.index < target.index := by
  obtain ⟨link, isLink, rfl, rfl⟩ := feeds
  exact forward link isLink

theorem Forward.acyclic (forward : Forward links) (node : NodeRef) :
    ¬ TransGen (Feeds links) node node := by
  intro cycle
  have further := cycle.lift (·.index) fun _ _ => forward.lt
  rw [transGen_eq_self] at further
  exact Nat.lt_irrefl _ further

/--
Acyclic links are turned into a tree, whatever different roots there are.  If it is not too deep,
arranging the nodes meets each of its entries once.
-/
theorem growRoots_isTree (drawn : Drawn forest links) (nodup : roots.nodes.Nodup)
    (spacing : Spacing) : ∃ grown, growRoots roots (Layout.new spacing links forest) = .ok 0 grown ∧
      IsTree links roots grown ∧
      ((∀ {index level : Nat}, above grown.kin level index = some 0 → level < levelCount) →
        ∀ cursor, ∃ answer after,
          placeNodes roots cursor (Layout.new spacing links forest) = .ok answer after ∧
            after.kin = grown.kin ∧ after.visited.Perm (List.range grown.entries.length)) := by
  rcases growRoots_ok drawn roots spacing with ⟨grown, isGrown, framed, growing, rooted⟩
  have family := growing.family
  refine ⟨grown, isGrown, family.isTree nodup drawn.acyclic rooted, ?_⟩
  intro levels cursor
  rcases family.exists_grove drawn.acyclic with ⟨below, stands, all⟩
  rcases placeNodes_ok framed family stands all (few_of_levels stands levels) isGrown with
    ⟨_, _, _, _, places⟩
  obtain ⟨answer, after, done, arranged, _⟩ := places cursor
  refine ⟨answer, after, done, ?_, ?_⟩
  · rw [kin, arranged.entries]
    exact arranged.isWalked.kin
  · rw [arranged.visited, ← length_kin]
    exact all

theorem drawn_triangle : Drawn (unlinked 3) triangle := by
  refine ⟨Forward.acyclic (by decide), ?_, ?_⟩ <;> intro link isLink <;>
    simp only [triangle, mem_cons, not_mem_nil, or_false] at isLink <;>
    rcases isLink with rfl | rfl | rfl
  all_goals first | exact ⟨_, rfl⟩ | exact ⟨_, rfl, by decide⟩

theorem nodup_triangle : (Roots.single ⟨0, 2⟩).nodes.Nodup := nodup_singleton _

theorem growRoots_isTree_triangle :
    ∃ grown, growRoots (.single ⟨0, 2⟩) (Layout.new ⟨10, 20, 30⟩ triangle (unlinked 3)) =
      .ok 0 grown ∧ IsTree triangle (.single ⟨0, 2⟩) grown ∧
      ∃ answer after,
        placeNodes (.single ⟨0, 2⟩) none (Layout.new ⟨10, 20, 30⟩ triangle (unlinked 3)) =
          .ok answer after ∧
        after.kin = grown.kin ∧ after.visited.Perm (List.range grown.entries.length) := by
  rcases growRoots_isTree drawn_triangle nodup_triangle
    ⟨10, 20, 30⟩ with ⟨grown, isGrown, isTree, walks⟩
  refine ⟨grown, isGrown, isTree, walks ?_ none⟩
  have shallow (index : Nat) : above grown.kin 3 index = none := by
    cases isGrown
    match index with
    | 0 | 1 | 2 | _ + 3 => rfl
  intro index level isAbove
  by_contra deep
  rw [show level = 3 + (level - 3) by rw [levelCount] at deep; omega, above_add, shallow] at isAbove
  cases isAbove

/-- Acyclic links whose chains are not too long are arranged so that no two nodes overlap. -/
theorem placeNodes_spaced (drawn : Drawn forest links) (nodup : roots.nodes.Nodup)
    (exist : ∀ root ∈ roots.nodes, ∃ node, forest.node? root = some node)
    (sizes : ∀ {ref : NodeRef} {node : Node}, forest.node? ref = some node →
      0 < node.dimensions.x ∧ 0 < node.dimensions.y)
    (plain : ∀ {ref : NodeRef} {node : Node}, forest.node? ref = some node →
      isInside rerouteMark.toList node.key.toList = false)
    (short : ∀ chain : List NodeRef, chain.IsChain (Feeds links) →
      (∃ root ∈ roots.nodes, chain.getLast? = some root) → chain.length + roots.levels ≤ levelCount)
    (spacing : Spacing) (distances : 0 ≤ spacing.level ∧ 0 ≤ spacing.sibling ∧ 0 ≤ spacing.subtree)
    (cursor : Option Point) :
    ∃ answer after, placeNodes roots cursor (Layout.new spacing links forest) = .ok answer after ∧
      Spaced links roots spacing after := by
  rcases placeNodes_measured
    ⟨drawn, nodup, exist, short⟩ distances.1 with ⟨_, _, _, _, _, _, places⟩
  obtain ⟨answer, after, done, measured, _⟩ := places cursor
  exact ⟨answer, after, done, measured.spaced distances.2 sizes plain⟩

theorem Forward.short (forward : Forward links) (near : last.index < levelCount) :
    Short links (.single last) := by
  have bound {first : NodeRef} {chain : List NodeRef}
      (isChain : (first :: chain).IsChain (Feeds links))
      (isLast : (first :: chain).getLast? = some last) :
        chain.length + first.index ≤ last.index := by
    induction chain generalizing first with
    | nil =>
      cases isLast
      exact Nat.le_of_eq (Nat.zero_add _)
    | cons second chain ih =>
      obtain ⟨feeds, rest⟩ := isChain_cons_cons.1 isChain
      have further := forward.lt feeds
      have shorter := ih rest (by rwa [getLast?_cons_cons] at isLast)
      rw [length_cons]
      omega
  rintro (_ | ⟨first, chain⟩) isChain ⟨root, isRoot, isEnd⟩ <;> cases mem_singleton.1 isRoot
  · cases isEnd
  · have fits := bound isChain isEnd
    rw [length_cons, Roots.levels]
    omega

theorem arrangeable_triangle : Arrangeable (unlinked 3) triangle (.single ⟨0, 2⟩) := by
  refine ⟨drawn_triangle, nodup_singleton _, fun root isRoot => ?_,
    Forward.short (by decide) (by decide)⟩
  cases mem_singleton.1 isRoot
  exact ⟨_, rfl⟩

theorem plain_unlinked {count node} (found : (unlinked count).node? ref = some node) :
    isInside rerouteMark.toList node.key.toList = false := by
  rw [(nodes_unlinked found).1]
  decide

theorem size_unlinked {count node} (found : (unlinked count).node? ref = some node) :
    0 < node.dimensions.x ∧ 0 < node.dimensions.y := by
  rw [(nodes_unlinked found).2]
  decide

theorem placeNodes_spaced_triangle : ∃ answer after,
      placeNodes (.single ⟨0, 2⟩) (some ⟨5, 7⟩) (Layout.new ⟨10, 20, 30⟩ triangle (unlinked 3)) =
        .ok answer after ∧ Spaced triangle (.single ⟨0, 2⟩) ⟨10, 20, 30⟩ after :=
  have ⟨drawn, nodup, exist, short⟩ := arrangeable_triangle
  placeNodes_spaced drawn nodup exist size_unlinked plain_unlinked short ⟨10, 20, 30⟩ (by decide)
    (some ⟨5, 7⟩)

theorem placeNodes_overlap_of_repeated :
    ∃ answer after one two, placeNodes (.several [⟨0, 1⟩, ⟨0, 0⟩, ⟨0, 0⟩]) none
        (Layout.new ⟨10, 20, 30⟩ [] (unlinked 2)) = .ok answer after ∧
      after.forest.node? ⟨0, 0⟩ = some one ∧ after.forest.node? ⟨0, 1⟩ = some two ∧
      ¬ Clear one two := by
  simp only [exists_and_left, Clear]
  decide +kernel

end Main

end NodeFormula.Layout
