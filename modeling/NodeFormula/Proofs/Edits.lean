import NodeFormula.Text.EditDistance
import Mathlib.Order.Bounds.Defs
import Mathlib.Order.MinMax

/-!
# Edits of a text

The number that is computed row by row is the least number of edits that lead from one text to the
other.  A row is about the beginnings of the texts, so that the last letter of a beginning is the
first one that counts: `distance` is stated for texts that are read backwards.
-/

namespace NodeFormula.Text

open List

/-- One letter is inserted, deleted or replaced. -/
inductive Edit : List Char → List Char → Prop
  | insert (front back : List Char) (letter : Char) : Edit (front ++ back) (front ++ letter :: back)
  | delete (front back : List Char) (letter : Char) : Edit (front ++ letter :: back) (front ++ back)
  | replace (front back : List Char) (old new : Char) :
      Edit (front ++ old :: back) (front ++ new :: back)

/-- The first text becomes the second one by so many edits. -/
inductive Edits : Nat → List Char → List Char → Prop
  | none (text : List Char) : Edits 0 text text
  | more {n : Nat} {x y z : List Char} : Edit x y → Edits n y z → Edits (n + 1) x z

namespace Edit

theorem symm (edit : Edit x y) : Edit y x := by
  cases edit with
  | insert front back letter => exact .delete front back letter
  | delete front back letter => exact .insert front back letter
  | replace front back old new => exact .replace front back new old

theorem reverse (edit : Edit x y) : Edit x.reverse y.reverse := by
  cases edit with
  | insert front back letter => simpa using Edit.insert back.reverse front.reverse letter
  | delete front back letter => simpa using Edit.delete back.reverse front.reverse letter
  | replace front back old new => simpa using Edit.replace back.reverse front.reverse old new

theorem cons (letter : Char) (edit : Edit x y) : Edit (letter :: x) (letter :: y) := by
  cases edit with
  | insert front back other => exact .insert (letter :: front) back other
  | delete front back other => exact .delete (letter :: front) back other
  | replace front back old new => exact .replace (letter :: front) back old new

end Edit

namespace Edits

theorem trans (early : Edits m x y) (late : Edits n y z) : Edits (m + n) x z := by
  induction early with
  | none => rwa [Nat.zero_add]
  | more edit _ ih => rw [Nat.succ_add]; exact .more edit (ih late)

theorem symm (edits : Edits n x y) : Edits n y x := by
  induction edits with
  | none => exact .none _
  | more edit _ ih => exact ih.trans (.more edit.symm (.none _))

theorem map {change : List Char → List Char} (kept : ∀ {x y}, Edit x y → Edit (change x) (change y))
    (edits : Edits n x y) : Edits n (change x) (change y) := by
  induction edits with
  | none => exact .none _
  | more edit _ ih => exact .more (kept edit) ih

theorem eq_of_zero (edits : Edits 0 x y) : x = y := by
  cases edits
  rfl

end Edits

/-! ## The recursion -/

/-- The entry of the table for two beginnings, each with its last letter first. -/
def distance : List Char → List Char → Nat
  | [], y => y.length
  | _ :: x, [] => x.length + 1
  | c :: x, d :: y =>
    min (min (distance x (d :: y) + 1) (distance (c :: x) y + 1))
      (distance x y + if c = d then 0 else 1)

theorem nil_distance (y : List Char) : distance [] y = y.length := by rw [distance]

theorem distance_nil (x : List Char) : distance x [] = x.length := by
  cases x with
  | nil => exact nil_distance []
  | cons c x => rw [distance, length_cons]

theorem distance_cons_left (c : Char) (x y : List Char) :
    distance (c :: x) y ≤ distance x y + 1 := by
  cases y with
  | nil => rw [distance_nil, distance_nil, length_cons]
  | cons d y => rw [distance]; omega

theorem distance_cons_right (x : List Char) (d : Char) (y : List Char) :
    distance x (d :: y) ≤ distance x y + 1 := by
  cases x with
  | nil => rw [nil_distance, nil_distance, length_cons]
  | cons c x => rw [distance]; omega

theorem distance_le_cons (c : Char) (x y : List Char) : distance x y ≤ distance (c :: x) y + 1 := by
  induction y with
  | nil => rw [distance_nil, distance_nil, length_cons]; omega
  | cons d y ih =>
    have right := distance_cons_right x d y
    rw [distance]
    omega

/-- Texts that are one edit apart in all but the first letter are one edit apart. -/
theorem distance_cons_le (c : Char) (near : ∀ z, distance x z ≤ distance y z + 1) (z : List Char) :
    distance (c :: x) z ≤ distance (c :: y) z + 1 := by
  induction z with
  | nil =>
    have lengths := near []
    simp only [distance_nil, length_cons] at lengths ⊢
    omega
  | cons d z ih =>
    have whole := near (d :: z)
    have rest := near z
    rw [distance, distance]
    omega

theorem Edit.distance_le (edit : Edit x y) : ∀ z, distance x z ≤ distance y z + 1 := by
  have behind (front : List Char) {old new : List Char}
      (near : ∀ z, distance old z ≤ distance new z + 1) :
      ∀ z, distance (front ++ old) z ≤ distance (front ++ new) z + 1 := by
    induction front with
    | nil => exact near
    | cons c _ ih => exact distance_cons_le c ih
  cases edit with
  | insert front back letter => exact behind front (distance_le_cons letter back)
  | delete front back letter => exact behind front (distance_cons_left letter back)
  | replace front back old new =>
    refine behind front fun z => ?_
    induction z with
    | nil => simp only [distance_nil, length_cons]; omega
    | cons d z ih =>
      rw [distance, distance]
      split <;> split <;> omega

theorem distance_self (x : List Char) : distance x x = 0 := by
  induction x with
  | nil => exact nil_distance []
  | cons c x ih => rw [distance, if_pos rfl, ih]; omega

theorem distance_le_max (x y : List Char) : distance x y ≤ max x.length y.length := by
  induction x generalizing y with
  | nil => rw [nil_distance]; exact Nat.le_max_right ..
  | cons c x ih =>
    cases y with
    | nil => rw [distance_nil]; exact Nat.le_max_left ..
    | cons d y =>
      have kept : (if c = d then 0 else 1) ≤ 1 := by split <;> decide
      have rest := ih y
      rw [distance, length_cons, length_cons]
      omega

theorem Edits.distance_le (edits : Edits n x y) (z : List Char) :
    distance x z ≤ distance y z + n := by
  induction edits with
  | none => exact Nat.le_refl _
  | more edit _ ih => exact Nat.le_trans (edit.distance_le z) (Nat.succ_le_succ ih)

theorem edits_nil (x : List Char) : Edits x.length x [] := by
  induction x with
  | nil => exact .none []
  | cons c x ih => exact .more (.delete [] x c) ih

theorem edits_distance (x y : List Char) : Edits (distance x y) x y := by
  fun_induction distance x y with
  | case1 y => exact (edits_nil y).symm
  | case2 c x => exact edits_nil (c :: x)
  | case3 c x d y deleted inserted kept =>
    rcases min_choice (min (distance x (d :: y) + 1) (distance (c :: x) y + 1))
      (distance x y + if c = d then 0 else 1) with least | least
    · rw [least]
      rcases min_choice (distance x (d :: y) + 1) (distance (c :: x) y + 1) with least | least
      · rw [least]
        exact .more (.delete [] x c) deleted
      · rw [least]
        exact inserted.trans (.more (.insert [] y d) (.none _))
    · rw [least]
      have both := kept.map (Edit.cons d)
      split
      next same => rwa [same]
      next => exact .more (.replace [] x c d) both

/-! ## The rows -/

/-- The entries for a beginning of the first text, behind a beginning of the second one. -/
def entries (x y : List Char) : List Char → List Nat
  | [] => []
  | d :: rest => distance x (d :: y) :: entries x (d :: y) rest

theorem nextEntries_entries (c : Char) (x y rest : List Char) :
    nextEntries c (distance (c :: x) y) (distance x y) rest (entries x y rest) =
      entries (c :: x) y rest := by
  induction rest generalizing y with
  | nil => rfl
  | cons d rest ih =>
    rw [entries, entries, nextEntries, ← ih (d :: y), distance]

/-- The row for a beginning of the first text. -/
def rowOf (target x : List Char) : List Nat := distance x [] :: entries x [] target

theorem nextRow_rowOf (c : Char) (target x : List Char) :
    nextRow c target (rowOf target x) = rowOf target (c :: x) := by
  have first : distance x [] + 1 = distance (c :: x) [] := by rw [distance_nil, distance_nil]; rfl
  rw [rowOf, nextRow, first, nextEntries_entries, rowOf]

theorem entries_nil (y rest : List Char) :
    entries [] y rest = range' (y.length + 1) rest.length := by
  induction rest generalizing y with
  | nil => rfl
  | cons d rest ih =>
    rw [entries, ih (d :: y), nil_distance]
    rfl

theorem getLastD_entries (x y rest : List Char) :
    (entries x y rest).getLastD (distance x y) = distance x (rest.reverse ++ y) := by
  induction rest generalizing y with
  | nil => rfl
  | cons d rest ih => rw [entries, getLastD_cons, ih, reverse_cons, append_assoc]; rfl

theorem foldl_nextRow (target source x : List Char) :
    source.foldl (fun row letter => nextRow letter target row) (rowOf target x) =
      rowOf target (source.reverse ++ x) := by
  induction source generalizing x with
  | nil => rfl
  | cons c source ih => rw [foldl_cons, nextRow_rowOf, ih, reverse_cons, append_assoc]; rfl

theorem editDistance_eq (source target : String) :
    editDistance source target = distance source.toList.reverse target.toList.reverse := by
  have first : range (target.toList.length + 1) = rowOf target.toList [] := by
    rw [rowOf, entries_nil, nil_distance, range_eq_range']
    rfl
  rw [editDistance, first, foldl_nextRow, append_nil, rowOf, getLastD_cons, getLastD_entries,
    append_nil]

theorem isLeast_editDistance (source target : String) :
    IsLeast {n | Edits n source.toList target.toList} (editDistance source target) := by
  rw [editDistance_eq]
  constructor
  · rw [Set.mem_ofPred_eq]
    simpa using (edits_distance source.toList.reverse target.toList.reverse).map Edit.reverse
  · intro n edits
    have bound := (edits.map Edit.reverse).distance_le target.toList.reverse
    rwa [distance_self, Nat.zero_add] at bound

/--
The computed number is the least number of edits, so it is a metric, and it lies between the
difference of the lengths and the greater length.
-/
theorem editDistance_metric (source target : String) :
    IsLeast {n | Edits n source.toList target.toList} (editDistance source target) ∧
      (editDistance source target = 0 ↔ source = target) ∧
      editDistance source target = editDistance target source ∧
      (∀ middle, editDistance source target ≤
        editDistance source middle + editDistance middle target) ∧
      ((source.length : Int) - target.length).natAbs ≤ editDistance source target ∧
      editDistance source target ≤ max source.length target.length := by
  have ⟨edits, least⟩ := isLeast_editDistance source target
  have ⟨back, leastBack⟩ := isLeast_editDistance target source
  refine ⟨⟨edits, least⟩, ?_, ?_, ?_, ?_, ?_⟩
  · constructor
    · intro isZero
      rw [isZero] at edits
      exact String.toList_inj.1 (Edits.eq_of_zero edits)
    · rintro rfl
      exact Nat.le_zero.1 (least (Edits.none _))
  · exact Nat.le_antisymm (least (Edits.symm back)) (leastBack (Edits.symm edits))
  · intro middle
    have ⟨early, _⟩ := isLeast_editDistance source middle
    have ⟨late, _⟩ := isLeast_editDistance middle target
    exact least (Edits.trans early late)
  · have longer := Edits.distance_le edits []
    have shorter := Edits.distance_le (Edits.symm edits) []
    rw [distance_nil, distance_nil, String.length_toList, String.length_toList] at longer shorter
    omega
  · have bound := distance_le_max source.toList.reverse target.toList.reverse
    rwa [← editDistance_eq, length_reverse, length_reverse, String.length_toList,
      String.length_toList] at bound

end NodeFormula.Text
