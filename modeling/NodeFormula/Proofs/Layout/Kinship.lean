import NodeFormula.Layout

/-!
# Families of entries

What an entry is related to is kept in both directions: a parent lists its children, and a child
knows its parent and the siblings next to it.  A table of entries is woven if all of that
agrees.  Loose entries are out of every list of children until they are adopted.
-/

namespace NodeFormula

open List

variable {parent place : Nat} {left : Option Nat}

/-- What an entry is related to, and its size. -/
structure Kin where
  node : Option NodeRef
  parent : Option Nat
  children : List Nat
  left : Option Nat
  right : Option Nat
  width : Int
  height : Int

/-- The part of an entry that the walks do not change. -/
def LayoutEntry.kin (entry : LayoutEntry) : Kin :=
  ⟨entry.node, entry.parent, entry.children, entry.left, entry.right, entry.width, entry.height⟩

namespace Kin

/-- Siblings that follow each other below a parent, between those at the two ends. -/
def Row (table : List Kin) (parent : Nat) (right : Option Nat) : Option Nat → List Nat → Prop
  | _, [] => True
  | left, index :: rest =>
    (∃ kin, table[index]? = some kin ∧ kin.parent = some parent ∧ kin.left = left ∧
      kin.right = rest.head?.or right) ∧ Row table parent right (some index) rest

section Rows

variable {right : Option Nat}

theorem Row.mem (row : Row table parent right left indices) (member : index ∈ indices) :
    ∃ kin, table[index]? = some kin ∧ kin.parent = some parent := by
  induction indices generalizing left with
  | nil => cases member
  | cons first rest ih =>
    obtain ⟨⟨kin, found, isChild, _⟩, others⟩ := row
    rcases mem_cons.1 member with rfl | later
    · exact ⟨kin, found, isChild⟩
    · exact ih others later

theorem Row.congr (row : Row table parent right left indices)
    (same : ∀ index ∈ indices, ∀ kin, table[index]? = some kin → ∃ kept, later[index]? = some kept ∧
      kept.parent = kin.parent ∧ kept.left = kin.left ∧ kept.right = kin.right) :
    Row later parent right left indices := by
  induction indices generalizing left with
  | nil => trivial
  | cons first rest ih =>
    obtain ⟨⟨kin, found, isChild, isLeft, isRight⟩, others⟩ := row
    obtain ⟨kept, isKept, sameParent, sameLeft, sameRight⟩ := same first mem_cons_self kin found
    constructor
    · exact ⟨kept, isKept, sameParent.trans isChild, sameLeft.trans isLeft, sameRight.trans isRight⟩
    · exact ih others fun index member => same index (mem_cons_of_mem _ member)

theorem row_append : Row table parent right left (firsts ++ lasts) ↔
      Row table parent (lasts.head?.or right) left firsts ∧
        Row table parent right (firsts.getLast?.or left) lasts := by
  induction firsts generalizing left with
  | nil => simp [Row]
  | cons first rest ih =>
    have head : (rest ++ lasts).head?.or right = rest.head?.or (lasts.head?.or right) := by
      cases rest <;> simp
    have last : (first :: rest).getLast?.or left = rest.getLast?.or (some first) := by
      cases rest with
      | nil => rfl
      | cons second others =>
        rw [getLast?_cons_cons]
        cases found : (second :: others).getLast? with
        | none => simp at found
        | some end_ => rfl
    rw [cons_append, Row, Row, ih, head, last, and_assoc]

end Rows

/--
The children of an entry are a row below it, every entry is among the children of its parent, and no
other entry has siblings.  Loose entries may have a parent, but belong to no row.
-/
structure Woven (table : List Kin) (loose : List Nat) : Prop where
  row : ∀ {parent : Nat} {kin : Kin}, table[parent]? = some kin →
    Row table parent none none kin.children
  nodup : ∀ {parent : Nat} {kin : Kin}, table[parent]? = some kin → kin.children.Nodup
  member : ∀ {index parent : Nat} {kin : Kin}, table[index]? = some kin →
    kin.parent = some parent → index ∉ loose →
    ∃ above, table[parent]? = some above ∧ index ∈ above.children
  isLoose : ∀ {index : Nat}, index ∈ loose →
    (∃ kin, table[index]? = some kin ∧ kin.left = none ∧ kin.right = none) ∧
      ∀ {parent : Nat} {above : Kin}, table[parent]? = some above → index ∉ above.children
  alone : ∀ {index : Nat} {kin : Kin}, table[index]? = some kin → kin.parent = none →
    kin.left = none ∧ kin.right = none

theorem Woven.congr (woven : Woven table loose) (same : ∀ index, index ∈ other ↔ index ∈ loose) :
    Woven table other := by
  refine ⟨woven.row, woven.nodup, ?_, ?_, woven.alone⟩
  · intro index parent kin found isChild bound
    exact woven.member found isChild fun member => bound ((same index).2 member)
  · intro index member
    exact woven.isLoose ((same index).1 member)

def moved (index parent : Nat) (entry : Kin) (place : Nat) (kin : Kin) : Kin :=
  { kin with
    parent := if place = index then some parent else kin.parent
    children := if entry.parent = some place then kin.children.filter (· != index) else kin.children
    left := if place = index then none else if entry.right = some place then entry.left
      else kin.left
    right :=
      if place = index then none else if entry.left = some place then entry.right else kin.right }

def reparented (table : List Kin) (index parent : Nat) (entry : Kin) : List Kin :=
  table.mapIdx (moved index parent entry)

section Reparenting

theorem getElem?_reparented (found : table[place]? = some kin) :
    (reparented table index parent entry)[place]? = some (moved index parent entry place kin) := by
  rw [reparented, getElem?_mapIdx, found, Option.map_some]

theorem exists_of_reparented {after}
    (found : (reparented table index parent entry)[place]? = some after) :
    ∃ kin, table[place]? = some kin ∧ after = moved index parent entry place kin := by
  rw [reparented, getElem?_mapIdx] at found
  obtain ⟨kin, isThere, rfl⟩ := Option.map_eq_some_iff.1 found
  exact ⟨kin, isThere, rfl⟩

theorem mem_children_of_moved (member : other ∈ (moved index parent entry place kin).children) :
    other ∈ kin.children := by
  by_cases above : entry.parent = some place
  · simp only [moved, if_pos above] at member
    exact (mem_filter.1 member).1
  · simp only [moved, if_neg above] at member
    exact member

theorem moved_of_apart (other : place ≠ index) (notLeft : entry.left ≠ some place)
    (notRight : entry.right ≠ some place) :
    (moved index parent entry place kin).parent = kin.parent ∧
      (moved index parent entry place kin).left = kin.left ∧
      (moved index parent entry place kin).right = kin.right := by
  simp [moved, other, notLeft, notRight]

theorem row_firsts (nodup : firsts.Nodup) (isLeft : entry.left = firsts.getLast?)
    (apart : ∀ place ∈ firsts, place ≠ index ∧ entry.right ≠ some place)
    (row : Row table former (some index) none firsts) :
    Row (reparented table index parent entry) former entry.right none firsts := by
  rcases eq_nil_or_concat firsts with rfl | ⟨rest, last, isConcat⟩
  · trivial
  · rw [concat_eq_append] at isConcat
    subst isConcat
    rw [getLast?_concat] at isLeft
    rw [row_append] at row ⊢
    obtain ⟨others, ⟨_, found, isChild, onLeft, _⟩, _⟩ := row
    obtain ⟨notIndex, notRight⟩ := apart last (by simp)
    refine ⟨others.congr ?_, ⟨_, getElem?_reparented found, ?_, ?_, ?_⟩, trivial⟩
    · intro place member other isThere
      obtain ⟨notIndexToo, notRightToo⟩ := apart place (mem_append_left _ member)
      refine ⟨_, getElem?_reparented isThere, moved_of_apart notIndexToo ?_ notRightToo⟩
      rw [isLeft]
      rintro ⟨⟩
      exact (nodup_append.1 nodup).2.2 _ member _ mem_cons_self rfl
    · simp [moved, notIndex, isChild]
    · simpa [moved, notIndex, notRight] using onLeft
    · simp [moved, notIndex, isLeft]

theorem row_lasts (nodup : lasts.Nodup) (isRight : entry.right = lasts.head?)
    (apart : ∀ place ∈ lasts, place ≠ index ∧ entry.left ≠ some place)
    (row : Row table former none (some index) lasts) :
    Row (reparented table index parent entry) former none entry.left lasts := by
  cases lasts with
  | nil => trivial
  | cons first rest =>
    obtain ⟨⟨_, found, isChild, _, onRight⟩, others⟩ := row
    obtain ⟨notIndex, notLeft⟩ := apart first mem_cons_self
    refine ⟨⟨_, getElem?_reparented found, ?_, ?_, ?_⟩, others.congr ?_⟩
    · simp [moved, notIndex, isChild]
    · simp [moved, notIndex, isRight]
    · simpa [moved, notIndex, notLeft] using onRight
    · intro place member other isThere
      obtain ⟨notIndexToo, notLeftToo⟩ := apart place (mem_cons_of_mem _ member)
      refine ⟨_, getElem?_reparented isThere, moved_of_apart notIndexToo notLeftToo ?_⟩
      rw [isRight]
      rintro ⟨⟩
      exact (nodup_cons.1 nodup).1 member

/-- Where an entry stands among the children of its parent. -/
structure Between (table : List Kin) (index former : Nat) (entry above : Kin)
    (firsts lasts : List Nat) : Prop where
  isAbove : table[former]? = some above
  split : above.children = firsts ++ index :: lasts
  nodup : (firsts ++ index :: lasts).Nodup
  isLeft : entry.left = firsts.getLast?
  isRight : entry.right = lasts.head?
  before : Row table former (some index) none firsts
  after : Row table former none (some index) lasts

theorem Woven.exists_between (woven : Woven table loose) (found : table[index]? = some entry)
    (isChild : entry.parent = some former) (bound : index ∉ loose) :
    ∃ above firsts lasts, Between table index former entry above firsts lasts := by
  obtain ⟨above, isAbove, member⟩ := woven.member found isChild bound
  obtain ⟨firsts, lasts, split⟩ := append_of_mem member
  have row := woven.row isAbove
  have nodup := woven.nodup isAbove
  rw [split] at nodup
  rw [split, row_append] at row
  obtain ⟨before, ⟨_, isThere, _, isLeft, isRight⟩, after⟩ := row
  cases isThere.symm.trans found
  refine ⟨above, firsts, lasts, isAbove, split, nodup, ?_, ?_, before, after⟩
  · simpa using isLeft
  · simpa using isRight

namespace Between

variable (between : Between table index former entry above firsts lasts)
include between

theorem left_mem (here : entry.left = some place) : place ∈ firsts :=
  mem_of_getLast? (between.isLeft.symm.trans here)

theorem right_mem (here : entry.right = some place) : place ∈ lasts :=
  mem_of_head? (between.isRight.symm.trans here)

theorem moved_of_not_child (elsewhere : place ∉ above.children) (parent : Nat) (kin : Kin) :
    (moved index parent entry place kin).parent = kin.parent ∧
      (moved index parent entry place kin).left = kin.left ∧
      (moved index parent entry place kin).right = kin.right := by
  rw [between.split, mem_append, mem_cons] at elsewhere
  apply moved_of_apart
  · exact fun here => elsewhere (.inr (.inl here))
  · exact fun here => elsewhere (.inl (between.left_mem here))
  · exact fun here => elsewhere (.inr (.inr (between.right_mem here)))

theorem children_filter : above.children.filter (· != index) = firsts ++ lasts := by
  have disjoint := (nodup_append.1 between.nodup).2.2
  have tail := nodup_cons.1 (nodup_append.1 between.nodup).2.1
  rw [between.split, filter_append, filter_cons_of_neg (by simp),
    filter_eq_self.2, filter_eq_self.2]
  · intro place member
    have other : place ≠ index := fun here => tail.1 (here ▸ member)
    simpa using other
  · intro place member
    simpa using disjoint place member index mem_cons_self

theorem row (parent : Nat) :
    Row (reparented table index parent entry) former none none (firsts ++ lasts) := by
  have nodup := nodup_append.1 between.nodup
  have tail := nodup_cons.1 nodup.2.1
  rw [row_append]
  constructor
  · rw [Option.or_none, ← between.isRight]
    refine row_firsts nodup.1 between.isLeft ?_ between.before
    intro place member
    refine ⟨nodup.2.2 place member index mem_cons_self, fun here => ?_⟩
    exact nodup.2.2 place member place (mem_cons_of_mem _ (between.right_mem here)) rfl
  · rw [Option.or_none, ← between.isLeft]
    refine row_lasts tail.2 between.isRight ?_ between.after
    intro place member
    refine ⟨fun here => tail.1 (here ▸ member), fun here => ?_⟩
    exact nodup.2.2 place (between.left_mem here) place (mem_cons_of_mem _ member) rfl

end Between

theorem Woven.reparented (woven : Woven table loose) (found : table[index]? = some entry)
    (isChild : entry.parent = some former) (bound : index ∉ loose) (parent : Nat) :
    Woven (Kin.reparented table index parent entry) (index :: loose) := by
  obtain ⟨above, firsts, lasts, between⟩ := woven.exists_between found isChild bound
  have children {place : Nat} {kin : Kin} (isThere : table[place]? = some kin) :
      (moved index parent entry place kin).children =
        if place = former then firsts ++ lasts else kin.children := by
    by_cases here : place = former
    · subst here
      cases isThere.symm.trans between.isAbove
      rw [← between.children_filter]
      simp [moved, isChild]
    · have elsewhere : ¬ entry.parent = some place := by
        rw [isChild]
        rintro ⟨⟩
        exact here rfl
      simp [moved, elsewhere, here]
  have notChild {place other : Nat} {kin : Kin} (isThere : table[place]? = some kin)
      (elsewhere : place ≠ former) (member : other ∈ kin.children) : other ∉ above.children := by
    intro inside
    obtain ⟨one, isOne, ofFormer⟩ := (woven.row between.isAbove).mem inside
    obtain ⟨_, isTwo, ofPlace⟩ := (woven.row isThere).mem member
    cases isOne.symm.trans isTwo
    cases ofFormer.symm.trans ofPlace
    exact elsewhere rfl
  refine ⟨?_, ?_, ?_, ?_, ?_⟩
  · intro place after isThere
    obtain ⟨kin, isOld, rfl⟩ := exists_of_reparented isThere
    rw [children isOld]
    by_cases here : place = former
    · rw [if_pos here, here]
      exact between.row parent
    · rw [if_neg here]
      refine (woven.row isOld).congr ?_
      intro other member old isThereToo
      exact ⟨_, getElem?_reparented isThereToo,
        between.moved_of_not_child (notChild isOld here member) parent old⟩
  · intro place after isThere
    obtain ⟨kin, isOld, rfl⟩ := exists_of_reparented isThere
    rw [children isOld]
    by_cases here : place = former
    · rw [if_pos here, ← between.children_filter]
      exact (woven.nodup between.isAbove).filter _
    · rw [if_neg here]
      exact woven.nodup isOld
  · intro place other after isThere isParent notLoose
    obtain ⟨kin, isOld, rfl⟩ := exists_of_reparented isThere
    rw [mem_cons, not_or] at notLoose
    obtain ⟨notIndex, notOld⟩ := notLoose
    have sameParent : kin.parent = some other := by simpa [moved, notIndex] using isParent
    obtain ⟨elder, isOver, member⟩ := woven.member isOld sameParent notOld
    refine ⟨_, getElem?_reparented isOver, ?_⟩
    rw [children isOver]
    by_cases here : other = former
    · subst here
      cases isOver.symm.trans between.isAbove
      rw [if_pos rfl, ← between.children_filter]
      exact mem_filter.2 ⟨member, by simpa using notIndex⟩
    · rw [if_neg here]
      exact member
  · intro place member
    by_cases isIndex : place = index
    · subst isIndex
      refine ⟨⟨_, getElem?_reparented found, by simp [moved], by simp [moved]⟩, ?_⟩
      intro other after isThere inside
      obtain ⟨kin, isOld, rfl⟩ := exists_of_reparented isThere
      rw [children isOld] at inside
      by_cases here : other = former
      · rw [if_pos here, ← between.children_filter] at inside
        simpa using (mem_filter.1 inside).2
      · rw [if_neg here] at inside
        refine notChild isOld here inside ?_
        rw [between.split]
        simp
    · have old := (mem_cons.1 member).resolve_left isIndex
      obtain ⟨⟨kin, isThere, noLeft, noRight⟩, outside⟩ := woven.isLoose old
      have same := between.moved_of_not_child (outside between.isAbove) parent kin
      refine ⟨⟨_, getElem?_reparented isThere, same.2.1.trans noLeft, same.2.2.trans noRight⟩, ?_⟩
      intro other after isThereToo inside
      obtain ⟨elder, isOver, rfl⟩ := exists_of_reparented isThereToo
      exact outside isOver (mem_children_of_moved inside)
  · intro place after isThere noParent
    obtain ⟨kin, isOld, rfl⟩ := exists_of_reparented isThere
    by_cases isIndex : place = index
    · simp [moved, isIndex] at noParent
    · have noParentBefore : kin.parent = none := by simpa [moved, isIndex] using noParent
      have elsewhere : place ∉ above.children := by
        intro inside
        obtain ⟨one, isOne, ofFormer⟩ := (woven.row between.isAbove).mem inside
        cases isOld.symm.trans isOne
        rw [noParentBefore] at ofFormer
        cases ofFormer
      have same := between.moved_of_not_child elsewhere parent kin
      obtain ⟨noLeft, noRight⟩ := woven.alone isOld noParentBefore
      exact ⟨same.2.1.trans noLeft, same.2.2.trans noRight⟩

end Reparenting

section Adopting

variable {fresh : Kin} {children : List Nat}

theorem Woven.lt_length (woven : Woven table loose) (found : table[place]? = some kin)
    (member : index ∈ kin.children) : index < table.length := by
  obtain ⟨_, isThere, _⟩ := (woven.row found).mem member
  exact (List.getElem?_eq_some_iff.1 isThere).1

theorem getElem?_concat (found : (table ++ [fresh])[place]? = some kin) :
    table[place]? = some kin ∨ place = table.length ∧ kin = fresh := by
  rw [getElem?_append] at found
  split at found
  · exact .inl found
  · obtain ⟨inside, isThere⟩ := List.getElem?_eq_some_iff.1 found
    rw [length_singleton] at inside
    have isLast : place = table.length := by omega
    subst isLast
    exact .inr ⟨rfl, by simpa using isThere.symm⟩

theorem Woven.added (woven : Woven table loose) (noParent : fresh.parent = none)
    (noChildren : fresh.children = []) (noLeft : fresh.left = none) (noRight : fresh.right = none) :
    Woven (table ++ [fresh]) (table.length :: loose) := by
  have last : (table ++ [fresh])[table.length]? = some fresh := getElem?_concat_length
  have old {place : Nat} {kin : Kin} (found : table[place]? = some kin) :
      (table ++ [fresh])[place]? = some kin := by
    rw [List.getElem?_append_left (List.getElem?_eq_some_iff.1 found).1, found]
  refine ⟨?_, ?_, ?_, ?_, ?_⟩
  · intro place kin found
    rcases getElem?_concat found with isOld | ⟨_, rfl⟩
    · exact (woven.row isOld).congr fun index member other isThere =>
        ⟨other, old isThere, rfl, rfl, rfl⟩
    · rw [noChildren]
      trivial
  · intro place kin found
    rcases getElem?_concat found with isOld | ⟨_, rfl⟩
    · exact woven.nodup isOld
    · rw [noChildren]
      exact nodup_nil
  · intro index place kin found isParent notLoose
    rcases getElem?_concat found with isOld | ⟨rfl, rfl⟩
    · rw [mem_cons, not_or] at notLoose
      obtain ⟨above, isAbove, member⟩ := woven.member isOld isParent notLoose.2
      exact ⟨above, old isAbove, member⟩
    · exact absurd mem_cons_self notLoose
  · intro index member
    rcases mem_cons.1 member with rfl | before
    · refine ⟨⟨fresh, last, noLeft, noRight⟩, ?_⟩
      intro place kin found inside
      rcases getElem?_concat found with isOld | ⟨_, rfl⟩
      · exact Nat.lt_irrefl _ (woven.lt_length isOld inside)
      · rw [noChildren] at inside
        cases inside
    · obtain ⟨⟨kin, isThere, sides⟩, outside⟩ := woven.isLoose before
      refine ⟨⟨kin, old isThere, sides⟩, ?_⟩
      intro place above found inside
      rcases getElem?_concat found with isOld | ⟨_, rfl⟩
      · exact outside isOld inside
      · rw [noChildren] at inside
        cases inside
  · intro index kin found isRoot
    rcases getElem?_concat found with isOld | ⟨_, rfl⟩
    · exact woven.alone isOld isRoot
    · exact ⟨noLeft, noRight⟩

def placedIn (parent : Nat) (left right : Option Nat) (kin : Kin) : Kin :=
  { kin with parent := some parent, left := left.or kin.left, right := right.or kin.right }

def adopted (parent : Nat) : Option Nat → List Nat → List Kin → List Kin
  | _, [], table => table
  | left, child :: rest, table =>
    adopted parent (some child) rest (table.modify child (placedIn parent left rest.head?))

theorem adopted_of_not_mem (outside : place ∉ children) :
    (adopted parent left children table)[place]? = table[place]? := by
  induction children generalizing left table with
  | nil => rfl
  | cons child rest ih =>
    rw [mem_cons, not_or] at outside
    rw [adopted, ih outside.2, getElem?_modify_ne _ _ (Ne.symm outside.1)]

theorem exists_adopted (children : List Nat) (left : Option Nat)
    (found : table[place]? = some kin) :
    ∃ kept, (adopted parent left children table)[place]? = some kept ∧ kept.node = kin.node ∧
      kept.children = kin.children ∧ kept.width = kin.width ∧ kept.height = kin.height ∧
      kept.parent = if place ∈ children then some parent else kin.parent := by
  induction children generalizing left table kin with
  | nil => exact ⟨kin, found, rfl, rfl, rfl, rfl, by simp⟩
  | cons child rest ih =>
    by_cases here : child = place
    · subst here
      have placed : (table.modify child (placedIn parent left rest.head?))[child]? =
          some (placedIn parent left rest.head? kin) := by simp [found]
      obtain ⟨kept, isKept, node, inside, width, height, above⟩ := ih (some child) placed
      refine ⟨kept, isKept, node, inside, width, height, ?_⟩
      rw [above, if_pos mem_cons_self]
      split <;> rfl
    · obtain ⟨kept, isKept, node, inside, width, height, above⟩ :=
        ih (some child) ((getElem?_modify_ne _ _ here).trans found)
      refine ⟨kept, isKept, node, inside, width, height, ?_⟩
      simp only [above, mem_cons, Ne.symm here, false_or]

theorem row_adopted (nodup : children.Nodup)
    (free : ∀ child ∈ children, ∃ kin, table[child]? = some kin ∧ kin.left = none ∧
      kin.right = none) :
    Row (adopted parent left children table) parent none left children := by
  induction children generalizing left table with
  | nil => trivial
  | cons child rest ih =>
    obtain ⟨notIn, nodupRest⟩ := nodup_cons.1 nodup
    obtain ⟨kin, found, noLeft, noRight⟩ := free child mem_cons_self
    constructor
    · refine ⟨placedIn parent left rest.head? kin, ?_, rfl, ?_, ?_⟩
      · rw [adopted, adopted_of_not_mem notIn]
        simp [found]
      · simp [placedIn, noLeft]
      · simp [placedIn, noRight]
    · apply ih nodupRest
      intro other member
      have apart : child ≠ other := fun same => notIn (same ▸ member)
      rw [getElem?_modify_ne _ _ apart]
      exact free other (mem_cons_of_mem _ member)

theorem length_adopted (children : List Nat) (left : Option Nat) :
    (adopted parent left children table).length = table.length := by
  induction children generalizing left table with
  | nil => rfl
  | cons child rest ih => rw [adopted, ih, length_modify]

def settled (table : List Kin) (parent : Nat) (children : List Nat) : List Kin :=
  adopted parent none children (table.modify parent fun kin => { kin with children := children })

/-- What becomes of an entry, whether it is the parent, a child or neither. -/
structure Settled (above : Nat) (row : List Nat) (place : Nat) (old kin : Kin) : Prop where
  node : kin.node = old.node
  children : kin.children = if above = place then row else old.children
  width : kin.width = old.width
  height : kin.height = old.height
  parent : place ∈ row → kin.parent = some above
  others : place ∉ row → kin.parent = old.parent ∧ kin.left = old.left ∧ kin.right = old.right

theorem exists_settled (children : List Nat) (found : table[place]? = some old) :
    ∃ kin, (settled table parent children)[place]? = some kin ∧
      Settled parent children place old kin := by
  have given : (table.modify parent fun kin => { kin with children := children })[place]? =
      some (if parent = place then { old with children := children } else old) := by
    rw [getElem?_modify, found]
    rfl
  rcases exists_adopted children none given with
    ⟨kin, isThere, node, inside, width, height, above⟩
  refine ⟨kin, isThere, ?_, ?_, ?_, ?_, ?_, ?_⟩
  · rw [node]
    split <;> rfl
  · rw [inside]
    split <;> rfl
  · rw [width]
    split <;> rfl
  · rw [height]
    split <;> rfl
  · intro member
    rw [above, if_pos member]
  · intro outside
    rw [adopted_of_not_mem outside, given] at isThere
    cases isThere
    split <;> exact ⟨rfl, rfl, rfl⟩

theorem length_settled (children : List Nat) :
    (settled table parent children).length = table.length := by
  rw [settled, length_adopted, length_modify]

theorem exists_of_settled (found : (settled table parent children)[place]? = some kin) :
    ∃ old, table[place]? = some old ∧ Settled parent children place old kin := by
  have inside := (List.getElem?_eq_some_iff.1 found).1
  rw [length_settled] at inside
  obtain ⟨_, isThere, settled⟩ := exists_settled children (List.getElem?_eq_getElem inside)
  cases found.symm.trans isThere
  exact ⟨_, List.getElem?_eq_getElem inside, settled⟩

theorem settled_nil (found : table[parent]? = some above) (noChildren : above.children = []) :
    settled table parent [] = table := by
  apply ext_getElem?
  intro place
  rw [settled, adopted]
  by_cases here : parent = place
  · subst here
    simp [found, ← noChildren]
  · simp [here]

/-- When all that is loose is adopted by one entry, nothing is loose any more. -/
theorem Woven.settled (woven : Woven table loose) (found : table[parent]? = some above)
    (noChildren : above.children = []) {children : List Nat} (nodup : children.Nodup)
    (all : ∀ index, index ∈ children ↔ index ∈ loose) :
    Woven (Kin.settled table parent children) [] := by
  have row : Row (Kin.settled table parent children) parent none none children := by
    apply row_adopted nodup
    intro child member
    obtain ⟨⟨kin, isThere, noLeft, noRight⟩, _⟩ := woven.isLoose ((all child).1 member)
    rw [getElem?_modify, isThere]
    refine ⟨_, rfl, ?_, ?_⟩
    · split <;> exact noLeft
    · split <;> exact noRight
  refine ⟨?_, ?_, ?_, nofun, ?_⟩
  · intro place kin isThere
    obtain ⟨old, isOld, settled⟩ := exists_of_settled isThere
    rw [settled.children]
    by_cases here : parent = place
    · rw [if_pos here, ← here]
      exact row
    · rw [if_neg here]
      refine (woven.row isOld).congr ?_
      intro index member other isOther
      obtain ⟨kept, isKept, settledOther⟩ := exists_settled children isOther
      refine ⟨kept, isKept, settledOther.others ?_⟩
      exact fun inside => (woven.isLoose ((all index).1 inside)).2 isOld member
  · intro place kin isThere
    obtain ⟨old, isOld, settled⟩ := exists_of_settled isThere
    rw [settled.children]
    split
    · exact nodup
    · exact woven.nodup isOld
  · intro index place kin isThere isParent _
    obtain ⟨old, isOld, settled⟩ := exists_of_settled isThere
    by_cases inside : index ∈ children
    · cases (settled.parent inside).symm.trans isParent
      obtain ⟨kept, isKept, settledAbove⟩ := exists_settled children found
      refine ⟨kept, isKept, ?_⟩
      rw [settledAbove.children, if_pos rfl]
      exact inside
    · have sameParent := (settled.others inside).1.symm.trans isParent
      obtain ⟨_, isOver, member⟩ :=
        woven.member isOld sameParent (fun isLoose => inside ((all index).2 isLoose))
      obtain ⟨kept, isKept, settledOver⟩ := exists_settled children isOver
      refine ⟨kept, isKept, ?_⟩
      rw [settledOver.children, if_neg]
      · exact member
      · rintro rfl
        cases isOver.symm.trans found
        rw [noChildren] at member
        cases member
  · intro index kin isThere noParent
    obtain ⟨old, isOld, settled⟩ := exists_of_settled isThere
    by_cases inside : index ∈ children
    · rw [settled.parent inside] at noParent
      cases noParent
    · obtain ⟨sameParent, sameLeft, sameRight⟩ := settled.others inside
      rw [sameLeft, sameRight]
      exact woven.alone isOld (sameParent.symm.trans noParent)

end Adopting

end Kin

end NodeFormula
