import NodeFormula.Proofs.Layout.Families

/-!
# Groves

The walks go from an entry to its first child and to its right sibling, so a tree of entries is
seen as a grove: the first of some siblings, the grove below it, and the grove of the other
siblings.  Every entry stands once in the grove of the root.
-/

namespace NodeFormula.Layout

open List Option

variable {grove : Grove}

/-- Siblings with all that is below them. -/
inductive Grove
  | nil
  | cons (index : Nat) (below rest : Grove)

namespace Grove

def tops : Grove → List Nat
  | nil => []
  | cons index _ rest => index :: rest.tops

def indices : Grove → List Nat
  | nil => []
  | cons index below rest => index :: (below.indices ++ rest.indices)

def nodesAt : Nat → Grove → List Nat
  | _, nil => []
  | 0, cons index _ rest => index :: nodesAt 0 rest
  | level + 1, cons _ below rest => nodesAt level below ++ nodesAt (level + 1) rest

def append : Grove → Grove → Grove
  | nil, other => other
  | cons index below rest, other => cons index below (rest.append other)

/-- A table has the grove below a parent, after a sibling. -/
def Stands (table : List Kin) : Option Nat → Option Nat → Grove → Prop
  | _, _, nil => True
  | parent, left, cons index below rest =>
    (∃ kin, table[index]? = some kin ∧ kin.parent = parent ∧ kin.left = left ∧
      kin.right = rest.tops.head? ∧ kin.children = below.tops) ∧
    Stands table (some index) none below ∧ Stands table parent (some index) rest

@[simp] theorem tops_append (first second : Grove) :
    (first.append second).tops = first.tops ++ second.tops := by
  induction first with
  | nil => rfl
  | cons index below rest _ ih => simp [append, tops, ih]

@[simp] theorem indices_append (first second : Grove) :
    (first.append second).indices = first.indices ++ second.indices := by
  induction first with
  | nil => rfl
  | cons index below rest _ ih => simp [append, indices, ih]

@[simp] theorem nodesAt_append (level : Nat) (first second : Grove) :
    (first.append second).nodesAt level = first.nodesAt level ++ second.nodesAt level := by
  induction first with
  | nil => cases level <;> simp [append, nodesAt]
  | cons index below rest _ ih => cases level <;> simp [append, nodesAt, ih]

theorem append_assoc (first second third : Grove) :
    (first.append second).append third = first.append (second.append third) := by
  induction first with
  | nil => rfl
  | cons index below rest _ ih => simp [append, ih]

theorem nodesAt_zero (grove : Grove) : grove.nodesAt 0 = grove.tops := by
  induction grove with
  | nil => rfl
  | cons index below rest _ ih => simp [nodesAt, tops, ih]

theorem mem_indices_of_mem_nodesAt (member : index ∈ grove.nodesAt level) :
    index ∈ grove.indices := by
  induction grove generalizing level with
  | nil => cases level <;> cases member
  | cons first below rest ihBelow ihRest =>
    rw [indices, mem_cons, mem_append]
    cases level with
    | zero => exact (mem_cons.1 member).imp_right fun later => .inr (ihRest later)
    | succ level =>
      exact .inr ((mem_append.1 member).imp ihBelow ihRest)

theorem nodesAt_succ_eq_nil (empty : grove.nodesAt level = []) :
    grove.nodesAt (level + 1) = [] := by
  induction grove generalizing level with
  | nil => rfl
  | cons index below rest ihBelow ihRest =>
    cases level with
    | zero => cases empty
    | succ level =>
      obtain ⟨emptyBelow, emptyRest⟩ := append_eq_nil_iff.1 empty
      rw [nodesAt, ihBelow emptyBelow, ihRest emptyRest, append_nil]

theorem nodesAt_eq_nil (empty : grove.nodesAt level = []) (le : level ≤ further) :
    grove.nodesAt further = [] := by
  induction le with
  | refl => exact empty
  | step _ ih => exact nodesAt_succ_eq_nil ih

theorem mem_indices_of_mem_tops (member : index ∈ grove.tops) : index ∈ grove.indices := by
  rw [← nodesAt_zero] at member
  exact mem_indices_of_mem_nodesAt member

theorem tops_sublist (grove : Grove) : grove.tops.Sublist grove.indices := by
  induction grove with
  | nil => exact .slnil
  | cons index below rest _ ih => exact (ih.trans (sublist_append_right ..)).cons_cons index

end Grove

/-! ## Ancestors -/

def above (table : List Kin) : Nat → Nat → Option Nat
  | 0, index => some index
  | levels + 1, index => (table[index]?.bind (·.parent)).bind (above table levels)

theorem above_add (table : List Kin) (first second index : Nat) :
    above table (first + second) index = (above table first index).bind (above table second) := by
  induction first generalizing index with
  | zero => simp [above]
  | succ first ih =>
    rw [Nat.add_right_comm, above, funext ih]
    exact (bind_assoc ..).symm

namespace Grove

section Standing

theorem Stands.mem_tops (stands : grove.Stands table parent left) (member : index ∈ grove.tops) :
    ∃ kin, table[index]? = some kin ∧ kin.parent = parent := by
  induction grove generalizing left with
  | nil => cases member
  | cons first below rest _ ih =>
    obtain ⟨⟨kin, found, isChild, _⟩, _, others⟩ := stands
    rcases mem_cons.1 member with rfl | later
    · exact ⟨kin, found, isChild⟩
    · exact ih others later

theorem Stands.lt_length (stands : grove.Stands table parent left) (member : index ∈ grove.indices)
    : index < table.length := by
  induction grove generalizing parent left with
  | nil => cases member
  | cons first below rest ihBelow ihRest =>
    obtain ⟨⟨_, found, _⟩, standsBelow, standsRest⟩ := stands
    rw [indices, mem_cons, mem_append] at member
    rcases member with rfl | isBelow | isLater
    · exact (List.getElem?_eq_some_iff.1 found).1
    · exact ihBelow standsBelow isBelow
    · exact ihRest standsRest isLater

theorem Stands.append_right (stands : (grove.append other).Stands table parent left) :
    other.Stands table parent (grove.tops.getLast?.or left) := by
  induction grove generalizing left with
  | nil => exact stands
  | cons index below rest _ ih =>
    have others := ih stands.2.2
    rw [tops, getLast?_cons]
    cases last : rest.tops.getLast? with
    | none => rwa [last] at others
    | some end_ => rwa [last] at others

theorem Stands.mem_children (stands : grove.Stands table parent left) {kin : Kin}
    (member : index ∈ grove.indices) (found : table[index]? = some kin)
    (isChild : child ∈ kin.children) : child ∈ grove.indices := by
  induction grove generalizing parent left with
  | nil => cases member
  | cons first below rest ihBelow ihRest =>
    obtain ⟨⟨_, isTop, _, _, _, children⟩, standsBelow, standsRest⟩ := stands
    rw [indices, mem_cons, mem_append] at member ⊢
    rcases member with rfl | isBelow | isLater
    · cases isTop.symm.trans found
      rw [children] at isChild
      exact .inr (.inl (mem_indices_of_mem_tops isChild))
    · exact .inr (.inl (ihBelow standsBelow isBelow))
    · exact .inr (.inr (ihRest standsRest isLater))

theorem Stands.exists_above {below} (stands : grove.Stands table (some below) left)
    (member : index ∈ grove.indices) :
    ∃ levels top, top ∈ grove.tops ∧ above table levels index = some top ∧
      above table (levels + 1) index = some below := by
  induction grove generalizing below left with
  | nil => cases member
  | cons first inner rest ihBelow ihRest =>
    obtain ⟨⟨_, found, isChild, _⟩, standsBelow, standsRest⟩ := stands
    have parentOf : above table 1 first = some below := by
      rw [above, found, bind_some, isChild]
      rfl
    rw [indices, mem_cons, mem_append] at member
    rcases member with rfl | isBelow | isLater
    · exact ⟨0, index, mem_cons_self, rfl, parentOf⟩
    · obtain ⟨levels, _, _, _, isFirst⟩ := ihBelow standsBelow isBelow
      refine ⟨levels + 1, first, mem_cons_self, isFirst, ?_⟩
      rw [above_add, isFirst]
      exact parentOf
    · obtain ⟨levels, top, isTop, ways⟩ := ihRest standsRest isLater
      exact ⟨levels, top, mem_cons_of_mem _ isTop, ways⟩

theorem Stands.nodesAt_succ (stands : grove.Stands table parent left) (level : Nat) :
    grove.nodesAt (level + 1) =
      (grove.nodesAt level).flatMap fun index => (table[index]?.map (·.children)).getD [] := by
  induction grove generalizing parent left level with
  | nil => cases level <;> rfl
  | cons first below rest ihBelow ihRest =>
    obtain ⟨⟨_, found, _, _, _, children⟩, standsBelow, standsRest⟩ := stands
    cases level with
    | zero =>
      rw [nodesAt, nodesAt, flatMap_cons, ihRest standsRest, found, nodesAt_zero]
      simp [children]
    | succ level =>
      rw [nodesAt, nodesAt, flatMap_append, ihRest standsRest, ihBelow standsBelow]

theorem exists_standing (woven : Kin.Woven table []) (falls : Falls height table) (bound : Nat)
    {parent : Nat} {row : List Nat} (isRow : Kin.Row table parent none left row)
    (low : ∀ index ∈ row, height index < bound) :
    ∃ grove : Grove, grove.tops = row ∧ grove.Stands table (some parent) left := by
  induction bound generalizing parent left row with
  | zero =>
    cases row with
    | nil => exact ⟨nil, rfl, trivial⟩
    | cons index row => exact absurd (low index mem_cons_self) (Nat.not_lt_zero _)
  | succ bound ihBound =>
    induction row generalizing left with
    | nil => exact ⟨nil, rfl, trivial⟩
    | cons index row ihRow =>
      obtain ⟨⟨kin, found, isChild, isLeft, isRight⟩, isRowRest⟩ := isRow
      obtain ⟨rest, isRest, standsRest⟩ :=
        ihRow isRowRest fun other member => low other (mem_cons_of_mem _ member)
      have lower : ∀ child ∈ kin.children, height child < bound := by
        intro child member
        have this := falls found child member
        have here := low index mem_cons_self
        omega
      obtain ⟨below, isBelow, standsBelow⟩ := ihBound (woven.row found) lower
      refine ⟨cons index below rest, by rw [tops, isRest], ⟨kin, found, isChild, isLeft, ?_, ?_⟩,
        standsBelow, standsRest⟩
      · rw [isRight, isRest, or_none]
      · exact isBelow.symm

end Standing

end Grove

section Levels

variable {top : Nat}

/-- Parents are higher than their children. -/
def Climbs (height : Nat → Nat) (table : List Kin) : Prop :=
  ∀ {index parent : Nat} {kin : Kin}, table[index]? = some kin → kin.parent = some parent →
    height index < height parent

theorem Climbs.above_lt (climbs : Climbs height table)
    (isAbove : above table (levels + 1) index = some top) : height index < height top := by
  induction levels generalizing index with
  | zero =>
    obtain ⟨parent, isParent, same⟩ := bind_eq_some_iff.1 isAbove
    obtain ⟨kin, found, isChild⟩ := bind_eq_some_iff.1 isParent
    cases same
    exact climbs found isChild
  | succ levels ih =>
    obtain ⟨parent, isParent, further⟩ := bind_eq_some_iff.1 isAbove
    obtain ⟨kin, found, isChild⟩ := bind_eq_some_iff.1 isParent
    exact (climbs found isChild).trans (ih further)

theorem Climbs.level_unique (climbs : Climbs height table)
    (one : above table first index = some top) (two : above table second index = some top) :
    first = second := by
  wlog le : first ≤ second generalizing first second
  · exact (this two one (Nat.le_of_not_le le)).symm
  obtain ⟨more, rfl⟩ := Nat.exists_eq_add_of_le le
  cases more with
  | zero => rfl
  | succ more =>
    rw [above_add, one] at two
    exact absurd (climbs.above_lt two) (Nat.lt_irrefl _)

theorem Grove.Stands.nodup (climbs : Climbs height table)
    (stands : grove.Stands table (some parent) left) (nodup : grove.tops.Nodup)
    (different : ∀ {index : Nat} {kin : Kin}, table[index]? = some kin → kin.children.Nodup) :
    grove.indices.Nodup := by
  induction grove generalizing parent left with
  | nil => exact nodup_nil
  | cons first below rest ihBelow ihRest =>
    obtain ⟨⟨kin, found, isChild, _, _, children⟩, standsBelow, standsRest⟩ := stands
    obtain ⟨notIn, nodupRest⟩ := nodup_cons.1 nodup
    have parentOf : above table 1 first = some parent := by
      rw [above, found, bind_some, isChild]
      rfl
    have apart {levels index : Nat} (isFirst : above table levels index = some first) :
        index ∉ rest.indices := by
      intro member
      obtain ⟨_, _, isTop, isAbove, isParent⟩ := standsRest.exists_above member
      have toParent : above table (levels + 1) index = some parent := by
        rw [above_add, isFirst]
        exact parentOf
      have same := climbs.level_unique toParent isParent
      cases Nat.succ.inj same
      cases isFirst.symm.trans isAbove
      exact notIn isTop
    refine nodup_cons.2 ⟨?_, nodup_append.2 ⟨?_, ihRest standsRest nodupRest, ?_⟩⟩
    · rw [mem_append, not_or]
      have itself : above table 0 first = some first := rfl
      refine ⟨fun member => ?_, apart itself⟩
      obtain ⟨levels, _, _, _, isFirst⟩ := standsBelow.exists_above member
      exact Nat.lt_irrefl _ (climbs.above_lt isFirst)
    · exact ihBelow standsBelow (children ▸ different found)
    · intro index isBelow other isLater same
      obtain ⟨levels, _, _, _, isFirst⟩ := standsBelow.exists_above isBelow
      exact apart isFirst (same ▸ isLater)

end Levels

/-! ## The grove of the root -/

section Finished

variable {forest : Forest} {links : List Link}

theorem Family.climbs (family : Family forest links roots table [] []) (falls : Falls height table)
    : Climbs height table := by
  intro index parent kin found isChild
  obtain ⟨_, isOver, member⟩ := family.woven.member found isChild nofun
  exact falls isOver index member

/-- When nothing is loose or open, all entries stand once in the grove of the root. -/
theorem Family.exists_grove (family : Family forest links roots table [] [])
    (acyclic : ∀ node, ¬ Relation.TransGen (Feeds links) node node) :
    ∃ below : Grove, (Grove.cons 0 below .nil).Stands table none none ∧
      (Grove.cons 0 below .nil).indices.Perm (List.range table.length) := by
  obtain ⟨height, falls, low⟩ := family.exists_height acyclic
  have climbs : Climbs height table := family.climbs falls
  obtain ⟨top, isTop, noParent, _⟩ := family.top
  obtain ⟨noLeft, noRight⟩ := family.woven.alone isTop noParent
  rcases Grove.exists_standing family.woven falls (table.length + 1) (family.woven.row isTop)
    (fun index _ => Nat.lt_succ_of_le (low index)) with ⟨below, isBelow, standsBelow⟩
  have stands : (Grove.cons 0 below .nil).Stands table none none :=
    ⟨⟨top, isTop, noParent, noLeft, noRight, isBelow.symm⟩, standsBelow, trivial⟩
  have nodup : (Grove.cons 0 below .nil).indices.Nodup := by
    rw [Grove.indices, Grove.indices, append_nil, nodup_cons]
    constructor
    · intro member
      obtain ⟨_, _, _, _, isRoot⟩ := standsBelow.exists_above member
      exact Nat.lt_irrefl _ (climbs.above_lt isRoot)
    · exact standsBelow.nodup climbs (isBelow ▸ family.woven.nodup isTop) family.woven.nodup
  -- Every entry is reached: its parent is, which is closer to the root.
  have reached (bound : Nat) : ∀ index < table.length, table.length - height index < bound →
      index ∈ (Grove.cons 0 below .nil).indices := by
    induction bound with
    | zero => exact fun _ _ far => absurd far (Nat.not_lt_zero _)
    | succ bound ih =>
      intro index inside near
      by_cases isRoot : index = 0
      · exact isRoot ▸ mem_cons_self
      · have found := getElem?_eq_getElem inside
        obtain ⟨parent, isChild⟩ := family.below found isRoot nofun
        obtain ⟨_, isOver, member⟩ := family.woven.member found isChild nofun
        have higher := climbs found isChild
        have highest := low parent
        have isReached := ih parent (List.getElem?_eq_some_iff.1 isOver).1 (by omega)
        exact stands.mem_children isReached isOver member
  refine ⟨below, stands, (perm_ext_iff_of_nodup nodup nodup_range).2 fun index => ?_⟩
  rw [mem_range]
  exact ⟨stands.lt_length, fun inside => reached _ index inside (Nat.lt_succ_self _)⟩

end Finished

end NodeFormula.Layout
