import NodeFormula.Resolution
import Mathlib.Data.List.Basic

/-!
# The first of the cheapest candidates

The search for a candidate keeps the price to beat and goes from left to right.  It stops at a
perfect match, passes by candidates that take too few arguments, and never pays a thousand.
-/

namespace NodeFormula

open List

variable {callable : Callable} {after : List Callable}

def TreeKind.nodesOf (kind : TreeKind) (name : String) : List Callable :=
  kind.fromTable kind.overloads name ++ kind.fromTable Catalog.sharedOverloads name

namespace Callable

def price? (types : List DataType) (callable : Callable) : Option Nat :=
  (candidatePenalty? types callable.inputTypes).filter (· < 1000)

theorem price?_eq_some : callable.price? types = some price ↔
    candidatePenalty? types callable.inputTypes = some price ∧ price < 1000 := by
  rw [price?, Option.filter_eq_some_iff, decide_eq_true_iff]

theorem length_le_of_price? (priced : callable.price? types = some price) :
    types.length ≤ callable.inputTypes.length := by
  obtain ⟨priced, _⟩ := price?_eq_some.mp priced
  rw [candidatePenalty?] at priced
  by_contra tooMany
  rw [if_pos (Nat.lt_of_not_le tooMany)] at priced
  cases priced

/-- A candidate is cheaper than those before it and no dearer than those after it. -/
structure FirstCheapest (types : List DataType) (before : List Callable) (callable : Callable)
    (after : List Callable) (price : Nat) : Prop where
  priced : callable.price? types = some price
  dearer : ∀ other ∈ before, ∀ cost ∈ other.price? types, price < cost
  least : ∀ other ∈ after, ∀ cost ∈ other.price? types, price ≤ cost

theorem FirstCheapest.mono (first : FirstCheapest types before callable after price)
    (early : fewer ⊆ before) (late : less ⊆ after) :
    FirstCheapest types fewer callable less price :=
  ⟨first.priced, fun other member => first.dearer other (early member),
    fun other member => first.least other (late member)⟩

theorem FirstCheapest.le (first : FirstCheapest types before callable after price)
    (listed : other ∈ before ++ callable :: after) (costs : other.price? types = some cost) :
    price ≤ cost := by
  rcases mem_append.mp listed with early | late
  · exact Nat.le_of_lt (first.dearer other early cost costs)
  · rcases mem_cons.mp late with rfl | later
    · cases first.priced.symm.trans costs
      exact Nat.le_refl _
    · exact first.least other later cost costs

/--
What a search comes to: it keeps the candidate that it has, or ends at the first of the cheapest.
-/
inductive Searched (types : List DataType) (best index : Nat) (found : Option Nat)
    (candidates : List Callable) : Option Nat → Prop
  | kept (dear : ∀ other ∈ candidates, ∀ cost ∈ other.price? types, best ≤ cost) :
      Searched types best index found candidates found
  | first {before callable after price}
      (split : candidates = before ++ callable :: after) (cheap : price < best)
      (first : FirstCheapest types before callable after price) :
      Searched types best index found candidates (some (index + before.length))

section Searching

theorem FirstCheapest.searched (first : FirstCheapest types before callable after price)
    (cheap : price < best) (dear : ∀ cost ∈ other.price? types, price < cost) :
    Searched types best index found (other :: (before ++ callable :: after))
      (some (index + 1 + before.length)) := by
  have place : index + 1 + before.length = index + (other :: before).length := by
    rw [length_cons]
    omega
  rw [place]
  exact .first rfl cheap ⟨first.priced, forall_mem_cons.mpr ⟨dear, first.dearer⟩, first.least⟩

theorem Searched.pass (searched : Searched types best (index + 1) found candidates result)
    (dear : ∀ cost ∈ callable.price? types, best ≤ cost) :
    Searched types best index found (callable :: candidates) result := by
  cases searched with
  | kept others => exact .kept (forall_mem_cons.mpr ⟨dear, others⟩)
  | first split cheap first =>
    rw [split]
    exact first.searched cheap fun cost costs => Nat.lt_of_lt_of_le cheap (dear cost costs)

theorem Searched.take (searched : Searched types price (index + 1) (some index) candidates result)
    (priced : callable.price? types = some price) (cheap : price < best) :
    Searched types best index found (callable :: candidates) result := by
  cases searched with
  | kept others => exact .first (nil_append _).symm cheap ⟨priced, nofun, others⟩
  | first split cheaper first =>
    rw [split]
    exact first.searched (Nat.lt_trans cheaper cheap) (by simpa [priced] using cheaper)

theorem searched_cheapestFrom (low : best ≤ 1000) (candidates : List Callable) :
    Searched types best index found candidates
      (cheapestFrom types index best found (candidates.map inputTypes)) := by
  induction candidates generalizing index best found with
  | nil => exact .kept nofun
  | cons callable rest ih =>
    rw [map_cons, cheapestFrom]
    cases taken : candidatePenalty? types callable.inputTypes with
    | none => exact (ih low).pass (by simp [price?, taken])
    | some price =>
      have priced (low : price < 1000) : callable.price? types = some price :=
        price?_eq_some.mpr ⟨taken, low⟩
      simp only
      split_ifs with cheap free
      · refine .take (.kept ?_) (priced (Nat.lt_of_lt_of_le cheap low)) cheap
        exact fun _ _ cost _ => free ▸ Nat.zero_le cost
      · have low := Nat.lt_of_lt_of_le cheap low
        exact (ih (Nat.le_of_lt low)).take (priced low) cheap
      · refine (ih low).pass ?_
        intro cost costs
        cases taken.symm.trans (price?_eq_some.mp costs).1
        exact Nat.le_of_not_lt cheap

end Searching

/-- The first of the cheapest candidates is chosen; there is none if all are too dear. -/
theorem choose?_cases (types : List DataType) (candidates : List Callable) :
    (TreeKind.choose? candidates types = none ∧ ∀ other ∈ candidates, other.price? types = none) ∨
    ∃ before callable after price, candidates = before ++ callable :: after ∧
      FirstCheapest types before callable after price ∧
      TreeKind.choose? candidates types = some callable := by
  have searched : Searched types 1000 0 none candidates
      (cheapest? types (candidates.map inputTypes)) := searched_cheapestFrom (Nat.le_refl _) _
  rw [TreeKind.choose?]
  generalize cheapest? types (candidates.map inputTypes) = result at searched
  cases searched with
  | kept dear =>
    refine .inl ⟨rfl, fun other listed => Option.eq_none_iff_forall_not_mem.mpr ?_⟩
    intro cost costs
    exact Nat.not_lt.mpr (dear other listed cost costs) (price?_eq_some.mp costs).2
  | @first before callable after price split cheap first =>
    refine .inr ⟨before, callable, after, price, split, first, ?_⟩
    rw [split]
    simp

theorem choose?_some (chosen : TreeKind.choose? candidates types = some callable) :
    callable ∈ candidates ∧ types.length ≤ callable.inputTypes.length := by
  rcases choose?_cases types candidates with ⟨none, _⟩ | ⟨_, _, _, _, rfl, first, found⟩
  · cases none.symm.trans chosen
  · cases found.symm.trans chosen
    exact ⟨by simp, length_le_of_price? first.priced⟩

theorem FirstCheapest.choose? (first : FirstCheapest types before callable after price) :
    TreeKind.choose? (before ++ callable :: after) types = some callable := by
  rcases choose?_cases types (before ++ callable :: after) with
    ⟨_, dear⟩ | ⟨_, _, _, cost, same, cheapest, found⟩
  · cases (dear callable (by simp)).symm.trans first.priced
  · rw [found]
    have notAbove : price ≤ cost := first.le (same ▸ by simp) cheapest.priced
    have notBelow : cost ≤ price := cheapest.le (same ▸ by simp) first.priced
    rcases append_eq_append_iff.mp same with
      ⟨_ | ⟨head, between⟩, earlier, rest⟩ | ⟨_ | ⟨head, between⟩, earlier, rest⟩
    · cases rest
      rfl
    · -- The candidate would stand among those that are dearer.
      cases rest
      exact absurd (cheapest.dearer _ (by simp [earlier]) _ first.priced) (Nat.not_lt.mpr notAbove)
    · cases rest
      rfl
    · cases rest
      exact absurd (first.dearer _ (by simp [earlier]) _ cheapest.priced) (Nat.not_lt.mpr notBelow)

end Callable

end NodeFormula
