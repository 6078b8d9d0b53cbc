import NodeFormula.Proofs.Layout.Groves

/-!
# Where the entries of a grove are

A position is relative to the siblings, and moving an entry moves all that is below it.  The
entries of a level keep apart as long as each sibling moves at least as far as those to its left.
-/

namespace NodeFormula

open List

variable {entries : List LayoutEntry} {grove : Grove}

def LayoutEntry.moved (entry : LayoutEntry) (distance : Int) : LayoutEntry :=
  { entry with prelim := entry.prelim + distance, modifier := entry.modifier + distance }

namespace Layout

def entryOf (entries : List LayoutEntry) (index : Nat) : LayoutEntry := entries.getD index .ofRoots

def shifted (entries : List LayoutEntry) (move : Nat → Int) : List LayoutEntry :=
  entries.mapIdx fun index entry => entry.moved (move index)

section Entries

theorem entryOf_eq (found : entries[index]? = some entry) : entryOf entries index = entry := by
  rw [entryOf, getD_eq_getElem?_getD, found, Option.getD_some]

theorem getElem?_shifted (entries : List LayoutEntry) (move : Nat → Int) (index : Nat) :
    (shifted entries move)[index]? = entries[index]?.map (·.moved (move index)) :=
  getElem?_mapIdx

@[simp] theorem moved_zero (entry : LayoutEntry) : entry.moved 0 = entry := by
  simp [LayoutEntry.moved]

theorem entryOf_shifted (inside : index < entries.length) :
    entryOf (shifted entries move) index = (entryOf entries index).moved (move index) := by
  rw [entryOf_eq (getElem?_eq_getElem inside), entryOf, getD_eq_getElem?_getD,
    getElem?_shifted, getElem?_eq_getElem inside]
  rfl

theorem entryOf_shifted_of_zero (still : move index = 0) :
    entryOf (shifted entries move) index = entryOf entries index := by
  rw [entryOf, entryOf, getD_eq_getElem?_getD, getElem?_shifted, still]
  simp

theorem map_kin_shifted (entries : List LayoutEntry) (move : Nat → Int) :
    (shifted entries move).map LayoutEntry.kin = entries.map LayoutEntry.kin := by
  apply ext_getElem?
  intro index
  rw [getElem?_map, getElem?_map, getElem?_shifted, Option.map_map]
  rfl

theorem shifted_shifted (entries : List LayoutEntry) (first second : Nat → Int) :
    shifted (shifted entries first) second =
      shifted entries fun index => first index + second index := by
  apply ext_getElem?
  intro index
  rw [getElem?_shifted, getElem?_shifted, getElem?_shifted, Option.map_map]
  congr 1
  funext entry
  simp [LayoutEntry.moved, Int.add_assoc]

theorem shifted_zero (entries : List LayoutEntry) : shifted entries (fun _ => 0) = entries := by
  apply ext_getElem?
  intro index
  rw [getElem?_shifted]
  simp

theorem exists_entryOf_shifted (entries : List LayoutEntry) (move : Nat → Int) (index : Nat) :
    ∃ distance, entryOf (shifted entries move) index = (entryOf entries index).moved distance := by
  by_cases inside : index < entries.length
  · exact ⟨_, entryOf_shifted inside⟩
  · refine ⟨0, ?_⟩
    rw [entryOf, entryOf, getD_eq_getElem?_getD, getD_eq_getElem?_getD, getElem?_shifted,
      getElem?_eq_none (Nat.le_of_not_lt inside), moved_zero]
    rfl

theorem height_shifted (entries : List LayoutEntry) (move : Nat → Int) (index : Nat) :
    (entryOf (shifted entries move) index).height = (entryOf entries index).height := by
  obtain ⟨_, same⟩ := exists_entryOf_shifted entries move index
  rw [same]
  rfl

end Entries

/-! ## Spots -/

/-- Where an entry is, in the frame of the parent of the sibling above it. -/
structure Spot where
  index : Nat
  top : Nat
  place : Int

def Spot.under (top : Nat) (offset : Int) (spot : Spot) : Spot :=
  ⟨spot.index, top, spot.place + offset⟩

def Spot.moved (move : Nat → Int) (spot : Spot) : Spot :=
  ⟨spot.index, spot.top, spot.place + move spot.top⟩

def Grove.spots (entries : List LayoutEntry) : Nat → Grove → List Spot
  | _, nil => []
  | 0, cons index _ rest => ⟨index, index, (entryOf entries index).prelim⟩ :: spots entries 0 rest
  | level + 1, cons index below rest =>
    (spots entries level below).map (.under index (entryOf entries index).modifier) ++
      spots entries (level + 1) rest

/-- The entries follow each other with a gap between them. -/
def Apart (entries : List LayoutEntry) (gap : Int) (spots : List Spot) : Prop :=
  spots.Pairwise fun first second =>
    first.place + (entryOf entries first.index).height + gap ≤ second.place

theorem Apart.either (apart : Apart entries gap spots) (isFirst : first ∈ spots)
    (isSecond : second ∈ spots) (different : first ≠ second) :
    first.place + (entryOf entries first.index).height + gap ≤ second.place ∨
      second.place + (entryOf entries second.index).height + gap ≤ first.place := by
  induction spots with
  | nil => cases isFirst
  | cons spot spots ih =>
    obtain ⟨before, others⟩ := pairwise_cons.1 apart
    rcases mem_cons.1 isFirst with rfl | laterFirst
    · exact .inl (before second ((mem_cons.1 isSecond).resolve_left different.symm))
    · rcases mem_cons.1 isSecond with rfl | laterSecond
      · exact .inr (before first laterFirst)
      · exact ih others laterFirst laterSecond

namespace Grove

theorem spots_append (entries : List LayoutEntry) (level : Nat) (first second : Grove) :
    (first.append second).spots entries level =
      first.spots entries level ++ second.spots entries level := by
  induction first with
  | nil => cases level <;> simp [append, spots]
  | cons index below rest _ ih => cases level <;> simp [append, spots, ih]

theorem map_index_spots (entries : List LayoutEntry) (level : Nat) (grove : Grove) :
    (grove.spots entries level).map (·.index) = grove.nodesAt level := by
  induction grove generalizing level with
  | nil => cases level <;> rfl
  | cons index below rest ihBelow ihRest =>
    cases level with
    | zero => rw [spots, nodesAt, map_cons, ihRest]
    | succ level =>
      rw [spots, nodesAt, map_append, ihRest, map_map, ← ihBelow]
      rfl

theorem spots_zero (entries : List LayoutEntry) (grove : Grove) :
    grove.spots entries 0 =
      grove.tops.map fun index => ⟨index, index, (entryOf entries index).prelim⟩ := by
  induction grove with
  | nil => rfl
  | cons index below rest _ ih => rw [spots, tops, map_cons, ih]

theorem spots_eq_nil (empty : grove.nodesAt level = []) : grove.spots entries level = [] := by
  rw [← map_index_spots entries, map_eq_nil_iff] at empty
  exact empty

theorem top_mem_tops (member : spot ∈ grove.spots entries level) : spot.top ∈ grove.tops := by
  induction grove with
  | nil => cases level <;> cases member
  | cons index below rest _ ih =>
    cases level with
    | zero =>
      rcases mem_cons.1 member with rfl | later
      · exact mem_cons_self
      · exact mem_cons_of_mem _ (ih later)
    | succ level =>
      rcases mem_append.1 member with isBelow | later
      · obtain ⟨_, _, rfl⟩ := mem_map.1 isBelow
        exact mem_cons_self
      · exact mem_cons_of_mem _ (ih later)

theorem pairwise_tops (refl : ∀ top, order top top) (inOrder : grove.tops.Pairwise order)
    (level : Nat) :
    (grove.spots entries level).Pairwise fun first second => order first.top second.top := by
  induction grove with
  | nil => cases level <;> exact .nil
  | cons index below rest _ ih =>
    obtain ⟨first, others⟩ := pairwise_cons.1 inOrder
    cases level with
    | zero =>
      exact pairwise_cons.2 ⟨fun spot member => first _ (top_mem_tops member), ih others⟩
    | succ level =>
      refine pairwise_append.2 ⟨?_, ih others, ?_⟩
      · refine pairwise_map.2 (pairwise_of_forall_mem_list ?_)
        exact fun _ _ _ _ => refl index
      · intro spot member other isLater
        obtain ⟨_, _, rfl⟩ := mem_map.1 member
        exact first _ (top_mem_tops isLater)

theorem spots_congr
    (same : ∀ index ∈ grove.indices, (entryOf later index).prelim = (entryOf entries index).prelim ∧
      (entryOf later index).modifier = (entryOf entries index).modifier) (level : Nat) :
    grove.spots later level = grove.spots entries level := by
  induction grove generalizing level with
  | nil => cases level <;> rfl
  | cons index below rest ihBelow ihRest =>
    have here := same index mem_cons_self
    have sameBelow := ihBelow fun other member =>
      same other (mem_cons_of_mem _ (mem_append_left _ member))
    have sameRest := ihRest fun other member =>
      same other (mem_cons_of_mem _ (mem_append_right _ member))
    cases level with
    | zero => rw [spots, spots, here.1, sameRest]
    | succ level => rw [spots, spots, here.2, sameBelow, sameRest]

/-- If only siblings move, all spots move with the siblings above them. -/
theorem spots_shifted (inside : ∀ index ∈ grove.indices, index < entries.length)
    (nodup : grove.indices.Nodup)
    (still : ∀ index ∈ grove.indices, index ∉ grove.tops → move index = 0) (level : Nat) :
    grove.spots (shifted entries move) level = (grove.spots entries level).map (.moved move) := by
  induction grove with
  | nil => cases level <;> rfl
  | cons index below rest _ ih =>
    obtain ⟨notIn, nodupOthers⟩ := nodup_cons.1 nodup
    rw [mem_append, not_or] at notIn
    obtain ⟨_, nodupRest, disjoint⟩ := nodup_append.1 nodupOthers
    have rest := ih (fun other member =>
        inside other (mem_cons_of_mem _ (mem_append_right _ member))) nodupRest
      (fun other member notTop =>
        still other (mem_cons_of_mem _ (mem_append_right _ member)) (by
          rw [tops, mem_cons, not_or]
          exact ⟨fun same => notIn.2 (same ▸ member), notTop⟩))
    have here : entryOf (shifted entries move) index = (entryOf entries index).moved (move index) :=
      entryOf_shifted (inside index mem_cons_self)
    cases level with
    | zero =>
      rw [spots, rest, here]
      rfl
    | succ level =>
      have same : below.spots (shifted entries move) level = below.spots entries level := by
        apply spots_congr
        intro other member
        have fixed : move other = 0 := by
          refine still other (mem_cons_of_mem _ (mem_append_left _ member)) ?_
          rw [tops, mem_cons, not_or]
          refine ⟨fun same => notIn.1 (same ▸ member), fun isTop => ?_⟩
          exact disjoint other member other (mem_indices_of_mem_tops isTop) rfl
        rw [entryOf_shifted_of_zero fixed]
        exact ⟨rfl, rfl⟩
      rw [spots, spots, map_append, here, map_map]
      congr 2
      funext spot
      simp [Spot.under, Spot.moved, LayoutEntry.moved, Int.add_assoc]

end Grove

section Gaps

theorem Apart.moved (apart : Apart entries gap (grove.spots entries level))
    (spots : grove.spots (shifted entries move) level = (grove.spots entries level).map
      (.moved move))
    (away : grove.tops.Pairwise fun first second => move first ≤ move second) :
    Apart (shifted entries move) gap (grove.spots (shifted entries move) level) := by
  rw [Apart, spots, pairwise_map]
  refine (apart.and (Grove.pairwise_tops (fun _ => Int.le_refl _) away level)).imp ?_
  rintro first second ⟨gaps, moves⟩
  rw [height_shifted]
  simp only [Spot.moved]
  omega

theorem Apart.append (apart : Apart entries gap first) (apartSecond : Apart entries gap second)
    (roomy : 0 ≤ gap) (tall : ∀ spot ∈ first ++ second, 0 ≤ (entryOf entries spot.index).height)
    (joined : ∀ last ∈ first.getLast?, ∀ next ∈ second.head?,
      last.place + (entryOf entries last.index).height + gap ≤ next.place) :
    Apart entries gap (first ++ second) := by
  refine pairwise_append.2 ⟨apart, apartSecond, ?_⟩
  intro early isEarly late isLate
  rcases eq_nil_or_concat first with rfl | ⟨firsts, last, rfl⟩
  · cases isEarly
  rw [concat_eq_append] at *
  cases second with
  | nil => cases isLate
  | cons next others =>
    have between := joined last (by simp) next (by simp)
    have tallLast := tall last (by simp)
    have tallNext := tall next (by simp)
    have before : early = last ∨
        early.place + (entryOf entries early.index).height + gap ≤ last.place := by
      rcases mem_append.1 isEarly with isFirst | isLast
      · exact .inr ((pairwise_append.1 apart).2.2 early isFirst last (by simp))
      · exact .inl (mem_singleton.1 isLast)
    have after : late = next ∨
        next.place + (entryOf entries next.index).height + gap ≤ late.place := by
      rcases mem_cons.1 isLate with same | isOther
      · exact .inl same
      · exact .inr ((pairwise_cons.1 apartSecond).1 late isOther)
    rcases before with rfl | before <;> rcases after with rfl | after <;> omega

end Gaps

end Layout

end NodeFormula
