import Mathlib.Data.List.Perm.Subperm
import NodeFormula.Proofs.Layout.Spots

/-!
# Moving subtrees apart

An entry with left siblings is compared with them level by level, where only the two entries next
to each other matter.  If they are too close, the entry moves, and those between share the
move.  What comes out is that all levels are apart.
-/

namespace NodeFormula.Layout

open List Option

variable {top : Nat} {layout : Layout} {between : List Nat} {grove : Grove}

/-! ## Going up -/

def lift (entries : List LayoutEntry) : Nat → Nat → Int
  | 0, _ => 0
  | levels + 1, index =>
    match (entryOf entries index).parent with
    | some parent => (entryOf entries parent).modifier + lift entries levels parent
    | none => 0

section Climbing

variable {entries : List LayoutEntry}

theorem parent_entryOf (entries : List LayoutEntry) (index : Nat) :
    (entryOf entries index).parent = (entries.map LayoutEntry.kin)[index]?.bind (·.parent) := by
  rw [entryOf, getD_eq_getElem?_getD, getElem?_map]
  cases entries[index]? <;> rfl

theorem above_succ (isAbove : above table (levels + 1) index = some top) :
    ∃ parent, table[index]?.bind (·.parent) = some parent ∧ above table levels parent = some top :=
  bind_eq_some_iff.1 isAbove

theorem lift_of_parent (isParent : (entryOf entries index).parent = some parent) :
    lift entries (levels + 1) index = (entryOf entries parent).modifier +
      lift entries levels parent := by
  rw [lift, isParent]

theorem lift_succ (isAbove : above (entries.map LayoutEntry.kin) levels index = some top)
    (isParent : (entryOf entries top).parent = some parent) :
    lift entries (levels + 1) index = lift entries levels index +
      (entryOf entries parent).modifier := by
  induction levels generalizing index with
  | zero =>
    cases isAbove
    rw [lift_of_parent isParent, lift, lift, Int.add_comm]
  | succ levels ih =>
    obtain ⟨_, isNext, further⟩ := above_succ isAbove
    rw [← parent_entryOf] at isNext
    rw [lift_of_parent isNext, ih further, lift_of_parent isNext, Int.add_assoc]

theorem climb_ok (isAbove : above layout.kin levels index = some top)
    (isAboveBeside : above layout.kin levels neighbour = some topBeside) :
    climb levels (some index) (some neighbour) leftSum rightSum layout =
      .ok (some topBeside, leftSum + lift layout.entries levels neighbour,
        rightSum + lift layout.entries levels index) layout := by
  induction levels generalizing index neighbour leftSum rightSum with
  | zero =>
    cases isAboveBeside
    simp only [lift, Int.add_zero]
    rfl
  | succ levels ih =>
    obtain ⟨parent, isParent, further⟩ := above_succ isAbove
    obtain ⟨beside, isBeside, furtherBeside⟩ := above_succ isAboveBeside
    have one : (entryOf layout.entries index).parent = some parent :=
      (parent_entryOf ..).trans isParent
    have two : (entryOf layout.entries neighbour).parent = some beside :=
      (parent_entryOf ..).trans isBeside
    have risen : parentOf (some index) layout = .ok (some parent) layout := by
      rw [← one]
      rfl
    have risenBeside : parentOf (some neighbour) layout = .ok (some beside) layout := by
      rw [← two]
      rfl
    have right : modifierOf (some parent) layout =
      .ok (entryOf layout.entries parent).modifier layout := rfl
    have left : modifierOf (some beside) layout =
      .ok (entryOf layout.entries beside).modifier layout := rfl
    rw [climb, bind_of_ok risen, bind_of_ok risenBeside, bind_of_ok right, bind_of_ok left,
      ih further furtherBeside, lift_of_parent one, lift_of_parent two, Int.add_assoc,
      Int.add_assoc]

theorem Grove.Stands.spot {parent left}
    (stands : grove.Stands (entries.map LayoutEntry.kin) parent left) {spot}
    (member : spot ∈ grove.spots entries level) :
    above (entries.map LayoutEntry.kin) level spot.index = some spot.top ∧
      spot.place = (entryOf entries spot.index).prelim + lift entries level spot.index := by
  induction grove generalizing parent left level spot with
  | nil => cases level <;> cases member
  | cons first below rest ihBelow ihRest =>
    obtain ⟨_, standsBelow, standsRest⟩ := stands
    cases level with
    | zero =>
      rcases mem_cons.1 member with rfl | later
      · exact ⟨rfl, (Int.add_zero _).symm⟩
      · exact ihRest standsRest later
    | succ level =>
      rcases mem_append.1 member with isBelow | later
      · obtain ⟨inner, isInner, rfl⟩ := mem_map.1 isBelow
        obtain ⟨isAbove, place⟩ := ihBelow standsBelow isInner
        obtain ⟨kin, found, isChild⟩ := standsBelow.mem_tops (top_mem_tops isInner)
        have isParent : (entryOf entries inner.top).parent = some first := by
          rw [parent_entryOf, found]
          exact isChild
        constructor
        · show above _ (level + 1) inner.index = some first
          rw [above_add, isAbove]
          show above _ 1 inner.top = some first
          rw [above, found, bind_some, isChild]
          rfl
        · show inner.place + _ =
            (entryOf entries inner.index).prelim + lift entries (level + 1) inner.index
          rw [lift_succ isAbove isParent, place, Int.add_assoc]
      · exact ihRest standsRest later

end Climbing

/-! ## Going to the left -/

section Lefts

variable {row : List Nat} {entries : List LayoutEntry}

def Lefts (entries : List LayoutEntry) (row : List Nat) : Prop :=
  ∀ {before : List Nat} {index : Nat} {after : List Nat}, row = before ++ index :: after →
    entries[index]?.bind (·.left) = before.getLast?

theorem Lefts.prefix_of (lefts : Lefts entries (row ++ [last])) : Lefts entries row := by
  rintro before index after rfl
  have split : before ++ index :: after ++ [last] = before ++ index :: (after ++ [last]) := by simp
  exact lefts split

theorem Grove.Stands.lefts (stands : grove.Stands (entries.map LayoutEntry.kin) parent left)
    {before after} (split : grove.tops = before ++ index :: after) :
    entries[index]?.bind (·.left) = before.getLast?.or left := by
  induction grove generalizing left before with
  | nil => simp [tops] at split
  | cons first below rest _ ih =>
    obtain ⟨⟨kin, found, _, isLeft, _⟩, _, standsRest⟩ := stands
    cases before with
    | nil =>
      obtain ⟨rfl, _⟩ := List.cons.inj split
      rw [getElem?_map] at found
      obtain ⟨_, isEntry, rfl⟩ := map_eq_some_iff.1 found
      rw [isEntry]
      exact isLeft
    | cons other before =>
      obtain ⟨rfl, isRest⟩ := List.cons.inj split
      rw [ih standsRest isRest, getLast?_cons]
      cases before.getLast? <;> rfl

theorem leftUntil_of_mem (lefts : Lefts entries (firsts ++ stop :: between))
    (apart : stop ∉ between) (enough : between.length < fuel) :
    leftUntil entries (some stop) fuel (firsts ++ stop :: between).getLast? =
      some between.reverse := by
  induction between using reverseRecOn generalizing fuel with
  | nil =>
    cases fuel with
    | zero => cases enough
    | succ fuel => simp [leftUntil]
  | append_singleton between last ih =>
    rw [mem_append, not_or, mem_singleton] at apart
    rw [length_append, length_singleton] at enough
    rw [← cons_append, ← append_assoc] at lefts ⊢
    have isLeft := lefts (rfl : _ = (firsts ++ stop :: between) ++ last :: [])
    cases fuel with
    | zero => omega
    | succ fuel =>
      rw [getLast?_concat, leftUntil, if_neg, isLeft, ih lefts.prefix_of apart.1 (by omega)]
      · simp
      · exact fun same => apart.2 (some.inj same).symm

theorem leftUntil_of_not_mem (lefts : Lefts entries row) (apart : stop ∉ row) (fuel : Nat) :
    leftUntil entries (some stop) fuel row.getLast? = none := by
  induction row using reverseRecOn generalizing fuel with
  | nil => cases fuel <;> rfl
  | append_singleton row last ih =>
    rw [mem_append, not_or, mem_singleton] at apart
    have isLeft := lefts (rfl : row ++ [last] = row ++ last :: [])
    cases fuel with
    | zero => rfl
    | succ fuel =>
      rw [getLast?_concat, leftUntil, if_neg, isLeft, ih lefts.prefix_of apart.1]
      · rfl
      · exact fun same => apart.2 (some.inj same).symm

end Lefts

/-! ## Sharing a move -/

/-- How far each entry moves, each by a portion less than the one before it. -/
def moves (portion : Int) : Int → List Nat → Nat → Int
  | _, [], _ => 0
  | distance, first :: rest, index =>
    if index = first then distance else moves portion (distance - portion) rest index

section Moves

variable {portion : Int}

theorem moves_of_not_mem (apart : index ∉ between) : moves portion distance between index = 0 := by
  induction between generalizing distance with
  | nil => rfl
  | cons first rest ih =>
    rw [mem_cons, not_or] at apart
    rw [moves, if_neg apart.1, ih apart.2]

theorem spread_eq (layout : Layout) (nodup : between.Nodup) :
    spread portion distance between layout =
      .ok ()
        { layout with entries := shifted layout.entries (moves portion distance between) } := by
  induction between generalizing distance layout with
  | nil =>
    have same : shifted layout.entries (moves portion distance []) = layout.entries :=
      shifted_zero layout.entries
    rw [same]
    rfl
  | cons first rest ih =>
    obtain ⟨notIn, nodupRest⟩ := nodup_cons.1 nodup
    rw [spread, bind_of_ok (modifyEntry_eq ..), ih _ nodupRest]
    congr 2
    apply ext_getElem?
    intro place
    rw [getElem?_shifted, getElem?_shifted, getElem?_modify]
    by_cases here : first = place
    · subst here
      cases layout.entries[first]? with
      | none => rfl
      | some entry => simp [moves, moves_of_not_mem notIn, LayoutEntry.moved]
    · simp [moves, here, Ne.symm here]

theorem enough_rest (enough : portion * (first :: between).length ≤ distance) :
    portion * between.length ≤ distance - portion := by
  rw [length_cons, Int.natCast_succ, Int.mul_add] at enough
  omega

theorem moves_le (positive : 0 ≤ portion) (enough : portion * between.length ≤ distance)
    (index : Nat) :
    0 ≤ moves portion distance between index ∧ moves portion distance between index ≤ distance := by
  have start : 0 ≤ portion * between.length := Int.mul_nonneg positive (Int.natCast_nonneg _)
  induction between generalizing distance with
  | nil => exact ⟨Int.le_refl _, start.trans enough⟩
  | cons first rest ih =>
    have bounds := ih (enough_rest enough) (Int.mul_nonneg positive (Int.natCast_nonneg _))
    rw [moves]
    split
    · exact ⟨start.trans enough, Int.le_refl _⟩
    · exact ⟨bounds.1, by omega⟩

theorem pairwise_moves (positive : 0 ≤ portion) (enough : portion * between.length ≤ distance)
    (nodup : between.Nodup) : between.Pairwise fun first second =>
      moves portion distance between second ≤ moves portion distance between first := by
  induction between generalizing distance with
  | nil => exact .nil
  | cons first rest ih =>
    obtain ⟨notIn, nodupRest⟩ := nodup_cons.1 nodup
    have others {index : Nat} (member : index ∈ rest) :
        moves portion distance (first :: rest) index =
          moves portion (distance - portion) rest index := by
      rw [moves, if_neg]
      rintro rfl
      exact notIn member
    refine pairwise_cons.2 ⟨?_, (ih (enough_rest enough) nodupRest).imp_of_mem ?_⟩
    · intro index member
      have bound := (moves_le positive (enough_rest enough) index).2
      rw [others member, moves]
      omega
    · intro one two isOne isTwo
      rw [others isOne, others isTwo]
      exact id

theorem moves_shared {row} (split : row = firsts ++ top :: between)
    (nodup : (row ++ [index]).Nodup) (positive : 0 < distance) :
    let movers := index :: between.reverse
    let move := moves (distance.fdiv movers.length) distance movers
    movers.Nodup ∧ (∀ place, place ∉ row ++ [index] → move place = 0) ∧
      ((row ++ [index]).Pairwise fun first second => move first ≤ move second) ∧
      move top = 0 ∧ move index = distance := by
  intro movers move
  have reversed : movers.reverse = between ++ [index] := by simp [movers]
  have count : 0 < (movers.length : Int) := by simp [movers]
  have portion : 0 ≤ distance.fdiv movers.length :=
    Int.fdiv_nonneg (Int.le_of_lt positive) (Int.le_of_lt count)
  have enough : distance.fdiv movers.length * movers.length ≤ distance := by
    rw [Int.fdiv_eq_ediv_of_nonneg _ (Int.le_of_lt count)]
    exact Int.ediv_mul_le _ (Int.ne_of_gt count)
  have splitAll : row ++ [index] = (firsts ++ [top]) ++ movers.reverse := by simp [split, reversed]
  rw [splitAll] at nodup ⊢
  obtain ⟨_, nodupReversed, disjoint⟩ := nodup_append.1 nodup
  have nodupMovers := nodup_reverse.1 nodupReversed
  have stays {place : Nat} (isEarly : place ∈ firsts ++ [top]) : move place = 0 :=
    moves_of_not_mem fun member => disjoint place isEarly place (mem_reverse.2 member) rfl
  refine ⟨nodupMovers, ?_, ?_, stays (by simp), if_pos rfl⟩
  · intro place outside
    exact moves_of_not_mem fun member =>
      outside (mem_append_right _ (mem_reverse.2 member))
  · refine pairwise_append.2 ⟨?_, ?_, ?_⟩
    · apply pairwise_of_forall_mem_list
      intro one isOne two isTwo
      rw [stays isOne, stays isTwo]
    · exact pairwise_reverse.2 (pairwise_moves portion enough nodupMovers)
    · intro one isOne two _
      rw [stays isOne]
      exact (moves_le portion enough two).1

end Moves

/-! ## Going down -/

section Descending

theorem siblingsFrom_row {entries parent}
    (row : Kin.Row (entries.map LayoutEntry.kin) parent none left indices)
    (enough : indices.length < fuel) : siblingsFrom entries fuel indices.head? = indices := by
  induction indices generalizing left fuel with
  | nil => cases fuel <;> rfl
  | cons index rest ih =>
    obtain ⟨⟨kin, found, _, _, isRight⟩, others⟩ := row
    rw [getElem?_map] at found
    obtain ⟨entry, isEntry, rfl⟩ := map_eq_some_iff.1 found
    have right : entry.right = rest.head? := isRight.trans (or_none ..)
    cases fuel with
    | zero => cases enough
    | succ fuel =>
      rw [length_cons] at enough
      rw [head?_cons, siblingsFrom, isEntry, bind_some, right, ih others (by omega)]

theorem Grove.Stands.row {parent} (stands : grove.Stands table (some parent) left) :
    Kin.Row table parent none left grove.tops := by
  induction grove generalizing left with
  | nil => trivial
  | cons index below rest _ ih =>
    obtain ⟨⟨kin, found, isChild, isLeft, isRight, _⟩, _, standsRest⟩ := stands
    exact ⟨⟨kin, found, isChild, isLeft, isRight.trans (or_none ..).symm⟩, ih standsRest⟩

theorem Grove.Stands.length_tops_le (stands : grove.Stands table parent left)
    (nodup : grove.indices.Nodup) : grove.tops.length ≤ table.length := by
  have inside : grove.tops ⊆ range table.length := fun index member =>
    mem_range.2 (stands.lt_length (mem_indices_of_mem_tops member))
  have short := (subperm_of_subset (nodup.sublist grove.tops_sublist) inside).length_le
  rwa [length_range] at short

theorem childrenOf_eq (stands : (Grove.cons index below rest).Stands layout.kin parent left)
    (nodup : (Grove.cons index below rest).indices.Nodup) :
    layout.childrenOf index = below.tops := by
  obtain ⟨⟨kin, found, _, _, _, children⟩, standsBelow, _⟩ := stands
  obtain ⟨entry, isEntry, rfl⟩ := exists_entry found
  have isBelow : entry.children = below.tops := children
  have nodupBelow := (nodup_append.1 (nodup_cons.1 nodup).2).1
  have short := standsBelow.length_tops_le nodupBelow
  rw [length_kin] at short
  rw [childrenOf, isEntry, bind_some, isBelow]
  exact siblingsFrom_row standsBelow.row (Nat.lt_succ_of_le short)

theorem findSome?_leftmost (stands : grove.Stands layout.kin parent left)
    (nodup : grove.indices.Nodup) (level : Nat) :
    grove.tops.findSome? (layout.leftmost? level) = (grove.nodesAt level).head? := by
  induction grove generalizing parent left level with
  | nil => cases level <;> rfl
  | cons index below rest ihBelow ihRest =>
    have children := childrenOf_eq stands nodup
    obtain ⟨_, standsBelow, standsRest⟩ := stands
    obtain ⟨nodupBelow, nodupRest, _⟩ := nodup_append.1 (nodup_cons.1 nodup).2
    cases level with
    | zero => rfl
    | succ level =>
      rw [Grove.tops, findSome?_cons, leftmost?, children, ihBelow standsBelow nodupBelow,
        ihRest standsRest nodupRest, Grove.nodesAt, head?_append]
      cases (below.nodesAt level).head? <;> rfl

end Descending

/-! ## An entry and its left siblings -/

def Grove.tree (index : Nat) (below : Grove) : Grove := .cons index below .nil

/--
An entry is about to be moved away from its left siblings.  The first one on each level below it
knows the last one before it: one below the siblings, or else further to the left.
-/
structure Meeting (layout : Layout) (lefts : Grove) (index : Nat) (below rights : Grove)
    (parent : Option Nat) (beside : Nat → Option Nat) : Prop where
  stands : ((lefts.append (.tree index below)).append rights).Stands layout.kin parent none
  nodup : ((lefts.append (.tree index below)).append rights).indices.Nodup
  neighbour : ∀ {level first}, (below.nodesAt level).head? = some first →
    (entryOf layout.entries first).neighbour = beside (level + 1)
  nearest : ∀ {level last}, (lefts.nodesAt level).getLast? = some last →
    beside level = some last
  outside : ∀ {level other}, lefts.nodesAt level = [] → beside level = some other →
    ∃ top, above layout.kin level other = some top ∧ top ∉ lefts.tops ++ [index]

def AllApart (entries : List LayoutEntry) (gap : Int) (grove : Grove) : Prop :=
  ∀ level, Apart entries gap (grove.spots entries level)

/-- There are entries of some height, and gaps that the distances allow. -/
structure Roomy (layout : Layout) (gap : Int) : Prop where
  gap_nonneg : 0 ≤ gap
  gap_le_sibling : gap ≤ layout.spacing.sibling
  gap_le_subtree : gap ≤ layout.spacing.subtree
  tall : ∀ index, 0 ≤ (entryOf layout.entries index).height

/-- Siblings move, and if the levels so far were apart, all levels are. -/
def Settles (lefts : Grove) (index : Nat) (below : Grove) (level : Nat) (layout : Layout)
    (result : EStateM.Result Fault Layout Unit) : Prop :=
  ∃ move : Nat → Int, (∀ place, place ∉ lefts.tops ++ [index] → move place = 0) ∧
    result = .ok () { layout with entries := shifted layout.entries move } ∧
    ∀ gap, Roomy layout gap → AllApart layout.entries gap lefts →
      AllApart layout.entries gap (.tree index below) →
      (∀ early < level, Apart layout.entries gap
        ((lefts.append (.tree index below)).spots layout.entries early)) →
      AllApart (shifted layout.entries move) gap (lefts.append (.tree index below))

section Meetings

namespace Meeting

variable (meeting : Meeting layout lefts index below rights parent beside)
include meeting

theorem shifted (move : Nat → Int) :
    Meeting { layout with entries := shifted layout.entries move } lefts index below rights parent
      beside := by
  have kin : Layout.kin { layout with entries := Layout.shifted layout.entries move } =
    layout.kin :=
    map_kin_shifted ..
  refine ⟨?_, meeting.nodup, ?_, meeting.nearest, ?_⟩
  · rw [kin]
    exact meeting.stands
  · intro level first isFirst
    obtain ⟨_, same⟩ := exists_entryOf_shifted layout.entries move first
    rw [same]
    exact meeting.neighbour isFirst
  · rw [kin]
    exact meeting.outside

theorem standsHere : ∃ left, (Grove.cons index below rights).Stands layout.kin parent left := by
  have stands := meeting.stands
  rw [Grove.append_assoc] at stands
  exact ⟨_, stands.append_right⟩

theorem nodupHere : (Grove.cons index below rights).indices.Nodup := by
  have nodup := meeting.nodup
  rw [Grove.append_assoc, Grove.indices_append] at nodup
  exact (nodup_append.1 nodup).2.1

theorem inside (member : place ∈ (lefts.append (.tree index below)).indices) :
    place < layout.entries.length := by
  rw [← length_kin]
  refine meeting.stands.lt_length ?_
  rw [Grove.indices_append]
  exact mem_append_left _ member

theorem nodupBoth : (lefts.append (.tree index below)).indices.Nodup := by
  have nodup := meeting.nodup
  rw [Grove.indices_append] at nodup
  exact (nodup_append.1 nodup).1

theorem spot {spot}
    (member : spot ∈ (lefts.append (.tree index below)).spots layout.entries level) :
    above layout.kin level spot.index = some spot.top ∧
      spot.place = (entryOf layout.entries spot.index).prelim +
        lift layout.entries level spot.index := by
  refine meeting.stands.spot ?_
  rw [Grove.spots_append]
  exact mem_append_left _ member

theorem spots_lefts (still : ∀ place, place ∉ lefts.tops ++ [index] → move place = 0)
    (level : Nat) : lefts.spots (Layout.shifted layout.entries move) level =
      (lefts.spots layout.entries level).map (.moved move) := by
  have nodup := meeting.nodupBoth
  rw [Grove.indices_append] at nodup
  obtain ⟨nodupLefts, _, disjoint⟩ := nodup_append.1 nodup
  refine Grove.spots_shifted (fun place member => meeting.inside ?_) nodupLefts ?_ level
  · rw [Grove.indices_append]
    exact mem_append_left _ member
  · intro place member notTop
    refine still place ?_
    rw [mem_append, not_or, mem_singleton]
    exact ⟨notTop, disjoint place member index mem_cons_self⟩

theorem spots_tree (still : ∀ place, place ∉ lefts.tops ++ [index] → move place = 0) (level : Nat) :
    (Grove.tree index below).spots (Layout.shifted layout.entries move) level =
      ((Grove.tree index below).spots layout.entries level).map (.moved move) := by
  have nodup := meeting.nodupBoth
  rw [Grove.indices_append] at nodup
  obtain ⟨_, nodupTree, disjoint⟩ := nodup_append.1 nodup
  refine Grove.spots_shifted (fun place member => meeting.inside ?_) nodupTree ?_ level
  · rw [Grove.indices_append]
    exact mem_append_right _ member
  · intro place member notTop
    refine still place ?_
    rw [mem_append, not_or]
    exact ⟨fun isLeft =>
      disjoint place (Grove.mem_indices_of_mem_tops isLeft) place member rfl, notTop⟩

theorem nodupTops : (lefts.tops ++ [index]).Nodup := by
  have tops := meeting.nodupBoth.sublist (Grove.tops_sublist _)
  rwa [Grove.tops_append] at tops

theorem knowLefts : Lefts layout.entries (lefts.tops ++ [index]) := by
  intro before place after split
  have splitAll : ((lefts.append (.tree index below)).append rights).tops =
      before ++ place :: (after ++ rights.tops) := by
    have tree : (Grove.tree index below).tops = [index] := rfl
    rw [Grove.tops_append, Grove.tops_append, tree, split]
    simp
  have isLeft := meeting.stands.lefts splitAll
  rwa [or_none] at isLeft

theorem leftUntil_eq (split : lefts.tops = firsts ++ top :: between) :
    leftUntil layout.entries (some top) (layout.entries.length + 1) (some index) =
      some (index :: between.reverse) := by
  have row : lefts.tops ++ [index] = firsts ++ top :: (between ++ [index]) := by simp [split]
  have knowLefts : Lefts layout.entries (firsts ++ top :: (between ++ [index])) :=
    row ▸ meeting.knowLefts
  have nodup := meeting.nodupTops
  have short := meeting.stands.length_tops_le meeting.nodup
  rw [length_kin, Grove.tops_append, Grove.tops_append] at short
  have tree : (Grove.tree index below).tops = [index] := rfl
  rw [tree, row, length_append, length_append, length_cons] at short
  rw [row] at nodup
  have isLast : some index = (firsts ++ top :: (between ++ [index])).getLast? := by
    rw [← row, getLast?_concat]
  rw [isLast, leftUntil_of_mem knowLefts (nodup_cons.1 (nodup_append.1 nodup).2.1).1
    (by omega), reverse_concat]

end Meeting

namespace Settles

theorem of_empty (empty : lefts.nodesAt level = []) :
    Settles lefts index below level layout (.ok () layout) := by
  refine ⟨fun _ => 0, fun _ _ => rfl, by rw [shifted_zero], ?_⟩
  intro gap _ _ apart early further
  rw [shifted_zero]
  by_cases isEarly : further < level
  · exact early further isEarly
  · have nothing := Grove.nodesAt_eq_nil empty (Nat.le_of_not_lt isEarly)
    rw [Grove.spots_append, Grove.spots_eq_nil nothing]
    exact apart further

theorem of_empty_below (empty : below.nodesAt level = []) :
    Settles lefts index below (level + 1) layout (.ok () layout) := by
  refine ⟨fun _ => 0, fun _ _ => rfl, by rw [shifted_zero], ?_⟩
  intro gap _ apart _ early further
  rw [shifted_zero]
  by_cases isEarly : further < level + 1
  · exact early further isEarly
  · have emptyTree : (Grove.tree index below).nodesAt (level + 1) = [] := by
      rw [Grove.tree, Grove.nodesAt, empty]
      rfl
    have nothing := Grove.nodesAt_eq_nil emptyTree (Nat.le_of_not_lt isEarly)
    rw [Grove.spots_append, Grove.spots_eq_nil nothing, append_nil]
    exact apart further

theorem of_apart (settles : Settles lefts index below (level + 1) layout result)
    (apart : ∀ gap, Roomy layout gap → AllApart layout.entries gap lefts →
      AllApart layout.entries gap (.tree index below) →
      Apart layout.entries gap ((lefts.append (.tree index below)).spots layout.entries level)) :
    Settles lefts index below level layout result := by
  obtain ⟨move, still, isResult, apartAfter⟩ := settles
  refine ⟨move, still, isResult, ?_⟩
  intro gap roomy apartLefts apartTree early
  refine apartAfter gap roomy apartLefts apartTree fun further isEarly => ?_
  rcases Nat.lt_succ_iff_lt_or_eq.1 isEarly with before | rfl
  · exact early further before
  · exact apart gap roomy apartLefts apartTree

theorem of_shifted (meeting : Meeting layout lefts index below rights parent beside)
    (still : ∀ place, place ∉ lefts.tops ++ [index] → move place = 0)
    (away : (lefts.tops ++ [index]).Pairwise fun first second => move first ≤ move second)
    (settles : Settles lefts index below level
      { layout with entries := shifted layout.entries move } result) :
    Settles lefts index below level layout result := by
  obtain ⟨further, stillFurther, isResult, apart⟩ := settles
  refine ⟨fun place => move place + further place, ?_, ?_, ?_⟩
  · intro place outside
    show move place + further place = 0
    rw [still place outside, stillFurther place outside]
    rfl
  · rw [isResult]
    simp only [shifted_shifted]
  · intro gap roomy apartLefts apartTree early
    rw [← shifted_shifted]
    have roomyNow : Roomy { layout with entries := shifted layout.entries move } gap := by
      refine ⟨roomy.gap_nonneg, roomy.gap_le_sibling, roomy.gap_le_subtree, fun place => ?_⟩
      rw [height_shifted]
      exact roomy.tall place
    refine apart gap roomyNow ?_ ?_ ?_
    · intro further
      exact (apartLefts further).moved (meeting.spots_lefts still further)
        (pairwise_append.1 away).1
    · intro further
      exact (apartTree further).moved (meeting.spots_tree still further) (pairwise_singleton ..)
    · intro further isEarly
      refine (early further isEarly).moved ?_ (Grove.tops_append lefts _ ▸ away)
      rw [Grove.spots_append, Grove.spots_append, map_append]
      exact congrArg₂ _ (meeting.spots_lefts still further) (meeting.spots_tree still further)

end Settles

def descend (index fuel levels leftmost : Nat) : Arrange Unit := do
  match (← get).nextBelow? index levels leftmost with
  | none => return ()
  | some next => apportion index fuel (levels + 1) (some next) (← entryAt next).neighbour

theorem Meeting.next_eq (meeting : Meeting layout lefts index below rights parent beside)
    (isFirst : (below.nodesAt level).head? = some first) :
    layout.nextBelow? index (level + 1) first = (below.nodesAt (level + 1)).head? := by
  obtain ⟨_, stands⟩ := meeting.standsHere
  have children := childrenOf_eq stands meeting.nodupHere
  obtain ⟨_, standsBelow, _⟩ := stands
  have nodupBelow := (nodup_append.1 (nodup_cons.1 meeting.nodupHere).2).1
  rw [nextBelow?]
  cases isChild : layout.entries[first]?.bind (·.children.head?) with
  | none =>
    rw [leftmost?, children, findSome?_leftmost standsBelow nodupBelow]
  | some child =>
    obtain ⟨entry, isEntry, isHead⟩ := bind_eq_some_iff.1 isChild
    obtain ⟨_, split⟩ := head?_eq_some_iff.1 isFirst
    obtain ⟨siblings, isChildren⟩ := head?_eq_some_iff.1 isHead
    have isKin : layout.kin[first]? = some entry.kin := by rw [getElem?_kin, isEntry, map_some]
    have kinChildren : entry.kin.children = child :: siblings := isChildren
    rw [standsBelow.nodesAt_succ, split, flatMap_cons, isKin, map_some, getD_some,
      kinChildren]
    rfl

theorem descend_ok (meeting : Meeting layout lefts index below rights parent beside)
    (isFirst : (below.nodesAt level).head? = some first)
    (further : ∀ {next}, (below.nodesAt (level + 1)).head? = some next →
      Settles lefts index below (level + 2) layout
        (apportion index fuel (level + 2) (some next) (beside (level + 2)) layout)) :
    Settles lefts index below (level + 2) layout (descend index fuel (level + 1) first layout) := by
  rw [descend, bind_get]
  simp only [meeting.next_eq isFirst]
  cases isNext : (below.nodesAt (level + 1)).head? with
  | none => exact .of_empty_below (head?_eq_none_iff.1 isNext)
  | some next =>
    have settles := further isNext
    rw [← meeting.neighbour isNext] at settles
    exact settles

theorem apportion_eq (climbing : climb levels (some leftmost) (some neighbour) 0 0 layout =
      .ok (ancestor, leftSum, rightSum) layout)
    (isDistance : (entryOf layout.entries neighbour).prelim + leftSum + layout.spacing.subtree +
      (entryOf layout.entries neighbour).height -
        ((entryOf layout.entries leftmost).prelim + rightSum) = distance) :
    apportion index (fuel + 1) levels (some leftmost) (some neighbour) layout =
      if 0 < distance then
        match leftUntil layout.entries ancestor (layout.entries.length + 1) (some index) with
        | none => .ok () layout
        | some [] => .error .divisionByZero layout
        | some between =>
          (spread (distance.fdiv between.length) distance between >>= fun _ =>
            descend index fuel levels leftmost) layout
      else descend index fuel levels leftmost layout := by
  have isEntry (place : Nat) :
      entryAt place layout = .ok (entryOf layout.entries place) layout := rfl
  rw [apportion, bind_of_ok climbing]
  simp only [bind_of_ok (isEntry _), bind_get, isDistance]
  split
  · rw [bind_get]
    cases leftUntil layout.entries ancestor (layout.entries.length + 1) (some index) with
    | none => rfl
    | some between => cases between <;> rfl
  · rfl

theorem Meeting.settles_beside (meeting : Meeting layout lefts index below rights parent beside)
    (isHere : ((Grove.tree index below).spots layout.entries (level + 1)).head? = some here)
    (isLast : (lefts.spots layout.entries (level + 1)).getLast? = some last)
    (goesOn : ∀ {now}, Meeting now lefts index below rights parent beside →
      Settles lefts index below (level + 2) now (descend index fuel (level + 1) here.index now)) :
    Settles lefts index below (level + 1) layout
      (apportion index (fuel + 1) (level + 1) (some here.index) (some last.index) layout) := by
  have hereMember : here ∈ (lefts.append (.tree index below)).spots layout.entries (level + 1) := by
    rw [Grove.spots_append]
    exact mem_append_right _ (mem_of_head? isHere)
  have lastMember : last ∈ (lefts.append (.tree index below)).spots layout.entries (level + 1) := by
    rw [Grove.spots_append]
    exact mem_append_left _ (mem_of_getLast? isLast)
  have isAbove := meeting.spot hereMember
  have isAboveLast := meeting.spot lastMember
  have hereTop : here.top = index :=
    mem_singleton.1 (Grove.top_mem_tops (mem_of_head? isHere))
  obtain ⟨_, _, split⟩ :=
    append_of_mem (Grove.top_mem_tops (mem_of_getLast? isLast))
  have distance : (entryOf layout.entries last.index).prelim +
      (0 + lift layout.entries (level + 1) last.index) + layout.spacing.subtree +
        (entryOf layout.entries last.index).height -
      ((entryOf layout.entries here.index).prelim +
        (0 + lift layout.entries (level + 1) here.index)) =
      last.place + (entryOf layout.entries last.index).height + layout.spacing.subtree -
        here.place := by
    omega
  rw [apportion_eq (climb_ok isAbove.1 isAboveLast.1) distance]
  split
  · rename_i close
    obtain ⟨nodup, still, away, stays, _⟩ := moves_shared split meeting.nodupTops close
    rw [meeting.leftUntil_eq split]
    simp only
    rw [bind_of_ok (spread_eq layout nodup)]
    refine .of_shifted meeting still away ((goesOn (meeting.shifted _)).of_apart ?_)
    intro gap roomy apartLefts apartTree
    rw [Grove.spots_append]
    refine (apartLefts _).append (apartTree _) roomy.gap_nonneg (fun spot _ => roomy.tall _) ?_
    intro one isOne two isTwo
    rw [meeting.spots_lefts still, getLast?_map, isLast] at isOne
    rw [meeting.spots_tree still, head?_map, isHere] at isTwo
    cases isOne
    cases isTwo
    have allowed : gap ≤ layout.spacing.subtree := roomy.gap_le_subtree
    rw [height_shifted]
    show last.place + moves _ _ _ last.top + _ + gap ≤ here.place + moves _ _ _ here.top
    rw [stays, hereTop]
    show last.place + 0 + (entryOf layout.entries last.index).height + gap ≤ _
    omega
  · rename_i far
    refine (goesOn meeting).of_apart fun gap roomy apartLefts apartTree => ?_
    rw [Grove.spots_append]
    refine (apartLefts _).append (apartTree _) roomy.gap_nonneg (fun spot _ => roomy.tall _) ?_
    intro one isOne two isTwo
    cases isLast.symm.trans isOne
    cases isHere.symm.trans isTwo
    have allowed := roomy.gap_le_subtree
    omega

/-- The entry is moved away from its left siblings on all levels. -/
theorem apportion_ok (fuel : Nat) (meeting : Meeting layout lefts index below rights parent beside)
    (isFirst : (below.nodesAt level).head? = some first)
    (enough : ∀ {further}, below.nodesAt further ≠ [] → further < level + fuel) :
    Settles lefts index below (level + 1) layout
      (apportion index fuel (level + 1) (some first) (beside (level + 1)) layout) := by
  induction fuel generalizing layout level first with
  | zero =>
    have notEmpty : below.nodesAt level ≠ [] := by
      intro empty
      rw [empty] at isFirst
      cases isFirst
    exact absurd (enough notEmpty) (Nat.lt_irrefl _)
  | succ fuel ih =>
    have goesOn {now : Layout} (meetingNow : Meeting now lefts index below rights parent beside) :
        Settles lefts index below (level + 2) now (descend index fuel (level + 1) first now) := by
      refine descend_ok meetingNow isFirst fun isNext => ih meetingNow isNext fun notEmpty => ?_
      have bound := enough notEmpty
      omega
    have isHead :
        (((Grove.tree index below).spots layout.entries (level + 1)).head?.map (·.index)) =
        some first := by
      rw [← head?_map, Grove.map_index_spots]
      simpa [Grove.tree, Grove.nodesAt] using isFirst
    obtain ⟨here, isHere, rfl⟩ := map_eq_some_iff.1 isHead
    have hereMember :
        here ∈ (lefts.append (.tree index below)).spots layout.entries (level + 1) := by
      rw [Grove.spots_append]
      exact mem_append_right _ (mem_of_head? isHere)
    obtain ⟨isAbove, _⟩ := meeting.spot hereMember
    cases isBeside : beside (level + 1) with
    | none =>
      refine .of_empty (getLast?_eq_none_iff.1 ?_)
      cases isLast : (lefts.nodesAt (level + 1)).getLast? with
      | none => rfl
      | some last =>
        cases (meeting.nearest isLast).symm.trans isBeside
    | some neighbour =>
      cases isLast : (lefts.spots layout.entries (level + 1)).getLast? with
      | none =>
        have empty : lefts.nodesAt (level + 1) = [] := by
          rw [← Grove.map_index_spots layout.entries, getLast?_eq_none_iff.1 isLast]
          rfl
        obtain ⟨_, isTop, notIn⟩ := meeting.outside empty isBeside
        have last : some index = (lefts.tops ++ [index]).getLast? := by simp
        rw [apportion_eq (climb_ok isAbove isTop) rfl, last,
          leftUntil_of_not_mem meeting.knowLefts notIn]
        split
        · exact .of_empty empty
        · refine (goesOn meeting).of_apart fun gap _ _ apartTree => ?_
          rw [Grove.spots_append, Grove.spots_eq_nil empty]
          exact apartTree (level + 1)
      | some last =>
        have isLastNode : (lefts.nodesAt (level + 1)).getLast? = some last.index := by
          rw [← Grove.map_index_spots layout.entries, getLast?_map, isLast]
          rfl
        cases isBeside.symm.trans (meeting.nearest isLastNode)
        exact meeting.settles_beside isHere isLast goesOn

end Meetings

end NodeFormula.Layout
