import Mathlib.Data.Int.CardIntervalMod
import NodeFormula.Mesh.TimesTable

/-!
# The edges of times tables

A point has no edge exactly if the multiplier takes it to itself.  It does so with the multiples of
the base over what the base and the multiplier less one have in common.
-/

namespace NodeFormula.TimesTable

open List

variable {table : TimesTable}

theorem edges_eq (table : TimesTable) : table.edges =
    ((range table.base).filter fun point => table.target point ≠ point).map
      fun point => (point, table.target point) := by
  rw [edges, ← filterMap_eq_map, filterMap_filter]
  refine filterMap_congr fun point _ => ?_
  by_cases stays : table.target point = point <;> simp [stays]

section Counting

variable (positive : 0 < table.base)
include positive

theorem cast_target (point : Nat) :
    (table.target point : Int) = point * table.multiplier % table.base :=
  Int.toNat_of_nonneg (Int.emod_nonneg _ (by omega))

theorem target_lt (point : Nat) : table.target point < table.base := by
  have below : (point * table.multiplier) % (table.base : Int) < table.base :=
    Int.emod_lt_of_pos _ (by omega)
  rw [← cast_target positive] at below
  omega

theorem target_eq_self_iff (inside : point < table.base) :
    table.target point = point ↔
      table.base / table.base.gcd (table.multiplier - 1).natAbs ∣ point := by
  have own : (point : Int) % table.base = point := Int.emod_eq_of_lt (by omega) (by omega)
  calc table.target point = point
      ↔ point * table.multiplier % table.base = (point : Int) % table.base := by
        rw [← cast_target positive, own, Nat.cast_inj]
    _ ↔ (table.base : Int) ∣ (table.multiplier - 1) * point := by
        rw [eq_comm, ← Int.ModEq, Int.modEq_iff_dvd, mul_comm, Int.sub_mul, Int.one_mul]
    _ ↔ table.base ∣ (table.multiplier - 1).natAbs * point := by
        rw [Int.natCast_dvd, Int.natAbs_mul, Int.natAbs_natCast]
    _ ↔ table.base / table.base.gcd (table.multiplier - 1).natAbs ∣ point := by
        rw [Nat.div_dvd_iff_dvd_mul (Nat.gcd_dvd_left ..) (Nat.gcd_pos_of_pos_left _ positive),
          Nat.dvd_gcd_mul_iff_dvd_mul]

theorem countP_target_eq_self :
    (range table.base).countP (fun point => table.target point = point) =
      table.base.gcd (table.multiplier - 1).natAbs := by
  have divides := Nat.gcd_dvd_left table.base (table.multiplier - 1).natAbs
  have step : 0 < table.base / table.base.gcd (table.multiplier - 1).natAbs :=
    Nat.div_pos (Nat.gcd_le_left _ positive) (Nat.gcd_pos_of_pos_left _ positive)
  calc (range table.base).countP (fun point => table.target point = point)
      = (range table.base).countP (fun point =>
          point ≡ 0 [MOD table.base / table.base.gcd (table.multiplier - 1).natAbs]) := by
        refine countP_congr fun point inside => ?_
        simp only [decide_eq_true_eq, Nat.modEq_zero_iff_dvd]
        exact target_eq_self_iff positive (mem_range.1 inside)
    _ = table.base.count
          (· ≡ 0 [MOD table.base / table.base.gcd (table.multiplier - 1).natAbs]) := by
        rw [Nat.count_eq_card_filter_range, countP_eq_length_filter]
        rfl
    _ = table.base.gcd (table.multiplier - 1).natAbs := by
        rw [Nat.count_modEq_card _ step, Nat.div_div_self divides positive.ne', Nat.zero_mod,
          Nat.mod_eq_zero_of_dvd (Nat.div_dvd_of_dvd divides), if_neg (Nat.lt_irrefl 0),
          Nat.add_zero]

theorem length_edges :
    table.edges.length = table.base - (table.multiplier - 1).gcd table.base := by
  have all := length_eq_countP_add_countP (fun point => decide (table.target point = point))
    (l := range table.base)
  rw [length_range, countP_target_eq_self positive] at all
  have moving : table.edges.length =
      (range table.base).countP (fun point => ¬ decide (table.target point = point)) := by
    rw [edges_eq, length_map, countP_eq_length_filter]
    simp
  rw [moving, Int.gcd, Int.natAbs_natCast, Nat.gcd_comm]
  omega

end Counting

/--
The mesh has a vertex for each point and an edge for each point that the multiplier does not take to
itself, which are all but as many as the base and the multiplier less one have in common.
-/
theorem mesh_joins_multiples (table : TimesTable) (radius : Float) (positive : 0 < table.base)
    (measured : table.radius.toFloat = .ok radius) :
    ∃ mesh, table.mesh = .ok mesh ∧ mesh.vertices.length = table.base ∧
      mesh.edges.length = table.base - (table.multiplier - 1).gcd table.base ∧
      (∀ edge ∈ mesh.edges, edge.1 < table.base ∧ edge.2 < table.base ∧
        edge.2 ≡ edge.1 * table.multiplier [ZMOD table.base] ∧ edge.1 ≠ edge.2) ∧
      (mesh.edges.map Prod.fst).Nodup := by
  have made : table.mesh = .ok ⟨"Times Table", table.vertices radius, table.edges, [], 0,
      Mesh.linkObject "Times Table" :: if table.hasSkin then table.skinRequests else [], []⟩ := by
    rw [mesh, if_neg positive.ne', measured]
    rfl
  refine ⟨_, made, ?_, length_edges positive, ?_, ?_⟩
  · rw [vertices, length_map, length_range]
  · simp only [edges_eq, mem_map, mem_filter, mem_range, decide_eq_true_eq]
    rintro _ ⟨point, ⟨inside, moves⟩, rfl⟩
    refine ⟨inside, target_lt positive point, ?_, moves.symm⟩
    rw [cast_target positive]
    exact Int.mod_modEq _ _
  · rw [edges_eq, map_map]
    exact (nodup_range.filter _).map fun _ _ same => same

/-- Of ten points times three the first and the sixth stay where they are. -/
theorem mesh_joins_multiples_ten : ∃ made,
    (⟨10, 3, .float 1.0, false, .blank⟩ : TimesTable).mesh = .ok made ∧
      made.vertices.length = 10 ∧ made.edges.length = 8 ∧ (made.edges.map Prod.fst).Nodup := by
  obtain ⟨made, isMade, vertices, edges, _, nodup⟩ := mesh_joins_multiples
    ⟨10, 3, .float 1.0, false, .blank⟩ 1.0 (by decide) rfl
  exact ⟨made, isMade, vertices, edges, nodup⟩

end NodeFormula.TimesTable
