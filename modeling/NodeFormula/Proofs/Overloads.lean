import NodeFormula.Proofs.Recompiling
import NodeFormula.Proofs.Retyping
import Mathlib.Algebra.GroupWithZero.Nat

/-!
# Which definition a call means

Of the candidates for a call the first of the cheapest is taken, and only then are the arguments
changed.  The nodes of the catalog come first, then the functions of the user, the newest first.
-/

namespace NodeFormula

open List Callable

variable {types : List DataType} {checker : Checker} {callable : Callable}

/-- Passing arguments of some types to a candidate costs this. -/
def Callable.Costs (callable : Callable) (types : List DataType) (cost : Nat) : Prop :=
  types.length ≤ callable.inputTypes.length ∧
    cost = (zipWith DataType.penalty types callable.inputTypes).sum

theorem Callable.costs_iff :
    callable.Costs types cost ↔ candidatePenalty? types callable.inputTypes = some cost := by
  have total : totalPenalty types callable.inputTypes =
      (zipWith DataType.penalty types callable.inputTypes).sum := by
    rw [← map_uncurry_zip_eq_zipWith, List.sum, foldr_map]
    rfl
  rw [Costs, candidatePenalty?, total]
  split_ifs with tooMany
  · simp [Nat.not_le.mpr tooMany]
  · simp [Nat.le_of_not_lt tooMany, eq_comm]

namespace Checker

def Apart (arg other : TypedExpr) : Prop :=
  ∀ var later, arg = .var var → other = .var later → var.slot ≠ later.slot

section Apart

variable (apart : Apart arg other)
include apart

theorem Apart.symm : Apart other arg :=
  fun var later first second same => apart later var second first same.symm

theorem Apart.retyped (retyped : Retyped arg given) : Apart given other := by
  cases retyped with
  | var var => exact apart
  | _ => exact nofun

end Apart

/-- An argument was passed to a parameter: it has its first type, and a constant is converted. -/
structure Passed (before after : Checker) (type param : DataType) (arg given : TypedExpr) :
    Prop where
  retyped : Retyped arg given
  types : ∃ rest, before.currentTypes arg = type :: rest ∧ after.currentTypes given = param :: rest
  converted : ∀ info value, arg = .const info value → ∃ retyped converted,
    given = .const retyped converted ∧ convert value type param = .ok converted

/-- Each constant among the arguments can be converted to the type of its parameter. -/
def Convertible (args : List TypedExpr) (types params : List DataType) : Prop :=
  ∀ (index : Nat) (info : TypeInfo) (value : Value) (type param : DataType),
    args[index]? = some (.const info value) → types[index]? = some type →
      params[index]? = some param → ∃ converted, convert value type param = .ok converted

/-- Each argument has types, and these are the first ones. -/
def FirstTypes (checker : Checker) (args : List TypedExpr) (types : List DataType) : Prop :=
  args.map (fun arg => (checker.currentTypes arg).head?) = types.map some

theorem FirstTypes.cons (typed : FirstTypes checker (arg :: args) types) :
    ∃ type rest others, types = type :: others ∧ checker.currentTypes arg = type :: rest ∧
      FirstTypes checker args others := by
  cases types with
  | nil => cases typed
  | cons type others =>
    rw [FirstTypes, map_cons, map_cons, cons.injEq] at typed
    obtain ⟨rest, isFirst⟩ := head?_eq_some_iff.mp typed.1
    exact ⟨type, rest, others, rfl, isFirst, typed.2⟩

theorem FirstTypes.eq_ok (typed : FirstTypes checker args types) :
    firstTypes args checker = .ok types checker := by
  induction args generalizing types with
  | nil =>
    cases map_eq_nil_iff.mp typed.symm
    rfl
  | cons _ _ ih =>
    obtain ⟨_, _, _, rfl, isFirst, typed⟩ := typed.cons
    rw [firstTypes]
    simp only [Bind.bind, EStateM.bind, firstType_of_typed isFirst, ih typed]
    rfl

theorem passArg_of_typed (typed : checker.currentTypes arg = type :: rest)
    (converts : ∀ info value, arg = .const info value →
      ∃ converted, convert value type param = .ok converted) : ∃ given, passArg arg param checker =
        .ok given { checker with slots := checker.slots.pass arg param } ∧
      Passed checker
        { checker with slots := checker.slots.pass arg param } type param arg given := by
  unfold passArg
  cases arg with
  | const info value =>
    obtain ⟨converted, converting⟩ := converts info value rfl
    refine ⟨.const { info with types := replaceFirst param info.types } converted, ?_, .const ..,
      ⟨rest, typed, ?_⟩, ?_⟩
    · simp only [Bind.bind, EStateM.bind, firstType_of_typed typed, converting]
      rfl
    · exact congrArg (replaceFirst param) typed
    · rintro _ _ ⟨⟩
      exact ⟨_, converted, rfl, converting⟩
  | var var =>
    refine ⟨_, rfl, .var var, ⟨rest, typed, ?_⟩, nofun⟩
    exact (SlotTable.typesAt_modify ..).trans
      ((if_pos rfl).trans (congrArg (replaceFirst param) typed))
  | _ =>
    refine ⟨_, rfl, ?_, ⟨rest, typed, congrArg (replaceFirst param) typed⟩, nofun⟩
    constructor

theorem currentTypes_pass (apart : Apart arg other) (param : DataType) :
    currentTypes { checker with slots := checker.slots.pass arg param } other =
      checker.currentTypes other := by
  cases other with
  | var later =>
    cases arg with
    | var var =>
      exact (SlotTable.typesAt_modify ..).trans (if_neg (apart var later rfl rfl))
    | _ => rfl
  | _ => rfl

theorem currentTypes_passAll (apart : ∀ other ∈ args, Apart other arg) (params : List DataType) :
    currentTypes { checker with slots := checker.slots.passAll args params } arg =
      checker.currentTypes arg := by
  induction args generalizing checker params with
  | nil => cases params <;> rfl
  | cons other _ ih =>
    cases params with
    | nil => rfl
    | cons param params =>
      rw [forall_mem_cons] at apart
      exact (@ih { checker with slots := checker.slots.pass other param } apart.2 params).trans
        (currentTypes_pass apart.1 param)

theorem passArgs_of_typed (typed : FirstTypes checker args types)
    (fits : types.length ≤ params.length) (apart : args.Pairwise Apart)
    (converts : Convertible args types params) : ∃ passed, passArgs args params checker =
        .ok passed { checker with slots := checker.slots.passAll args params } ∧
      passed.length = args.length ∧ ∀ (index : Nat) (arg : TypedExpr) (type param : DataType),
        args[index]? = some arg → types[index]? = some type → params[index]? = some param →
          ∃ given, passed[index]? = some given ∧ Passed checker
            { checker with slots := checker.slots.passAll args params } type param arg given := by
  induction args generalizing checker types params with
  | nil => exact ⟨[], by cases params <;> rfl, rfl, by simp⟩
  | cons arg args ih =>
    obtain ⟨type, _, others, rfl, isFirst, typed⟩ := typed.cons
    rw [pairwise_cons] at apart
    cases params with
    | nil => cases fits
    | cons param params =>
      obtain ⟨given, passing, isPassed⟩ := passArg_of_typed isFirst fun info value isConst =>
        converts 0 info value type param (congrArg some isConst) rfl rfl
      -- The other arguments have the types that they had.
      have same (other : TypedExpr) (member : other ∈ args) :=
        @currentTypes_pass checker arg other (apart.1 other member) param
      have typedStill : FirstTypes { checker with slots := checker.slots.pass arg param }
          args others := by
        rw [FirstTypes, ← typed]
        exact map_congr_left fun other member => congrArg head? (same other member)
      obtain ⟨passed, passingAll, length, each⟩ := ih typedStill (Nat.le_of_succ_le_succ fits)
        apart.2 fun index info value type param found =>
          converts (index + 1) info value type param found
      refine ⟨given :: passed, ?_, congrArg Nat.succ length, ?_⟩
      · rw [passArgs]
        rw [bind_of_ok passing, bind_of_ok passingAll]
        rfl
      · rintro (_ | index) other first target isArg isType isParam
        · cases isArg
          cases isType
          cases isParam
          refine ⟨given, rfl, isPassed.retyped, ?_, isPassed.converted⟩
          obtain ⟨remaining, before, after⟩ := isPassed.types
          refine ⟨remaining, before, ?_⟩
          rw [← after]
          refine @currentTypes_passAll { checker with slots := checker.slots.pass arg param } args
            given ?_ params
          exact fun other member => ((apart.1 other member).retyped isPassed.retyped).symm
        · obtain ⟨found, isAt, retyped, ⟨remaining, before, after⟩, converted⟩ :=
            each index other first target isArg isType isParam
          refine ⟨found, isAt, retyped, ⟨remaining, ?_, after⟩, converted⟩
          rw [← before]
          exact (same other (mem_of_getElem? isArg)).symm

/--
Among candidates that have a price below a thousand the first of the cheapest is taken.  Its
parameters give each argument its new first type, constants are converted, and the types of other
variables stay.  Without such a candidate nothing changes.
-/
theorem first_cheapest_taken (candidates : List Callable) (name : String)
    (typed : FirstTypes checker args types) (apart : args.Pairwise Apart) :
    ((∀ callable ∈ candidates, ∀ cost, callable.Costs types cost → 1000 ≤ cost) ∧
      resolveAmong candidates name args checker =
        .ok (.error (TreeKind.noInstance name types)) checker) ∨
    ∃ index callable cost, candidates[index]? = some callable ∧ callable.Costs types cost ∧
      cost < 1000 ∧
      (∀ (place : Nat) (other : Callable) (price : Nat), candidates[place]? = some other →
        other.Costs types price → cost ≤ price ∧ (place < index → cost < price)) ∧
      (Convertible args types callable.inputTypes → ∃ passed slots,
        resolveAmong candidates name args checker =
          .ok (.ok (callable, passed)) { checker with slots } ∧
        passed.length = args.length ∧
        (∀ (place : Nat) (arg : TypedExpr) (type param : DataType), args[place]? = some arg →
          types[place]? = some type → callable.inputTypes[place]? = some param →
            ∃ given, passed[place]? = some given ∧
              Passed checker { checker with slots } type param arg given) ∧
        ∀ slot, (∀ var, .var var ∈ args → var.slot ≠ slot) →
          slots.typesAt slot = checker.slots.typesAt slot) := by
  have priced {other : Callable} {price : Nat} (costs : other.Costs types price)
      (low : price < 1000) : other.price? types = some price :=
    price?_eq_some.mpr ⟨costs_iff.mp costs, low⟩
  rw [resolveAmong, bind_of_ok typed.eq_ok]
  rcases choose?_cases types candidates with
    ⟨nothing, dear⟩ | ⟨before, callable, after, cost, split, first, chosen⟩
  · rw [nothing]
    refine .inl ⟨?_, rfl⟩
    intro callable member cost costs
    by_contra low
    cases (dear callable member).symm.trans (priced costs (Nat.lt_of_not_le low))
  · rw [chosen]
    obtain ⟨costs, low⟩ := price?_eq_some.mp first.priced
    refine .inr ⟨before.length, callable, cost, by simp [split], costs_iff.mpr costs,
      low, ?_, ?_⟩
    · intro place other price isAt costsToo
      by_cases affordable : price < 1000
      · have itsPrice := priced costsToo affordable
        refine ⟨first.le (split ▸ mem_of_getElem? isAt) itsPrice, fun isEarly => ?_⟩
        rw [split, getElem?_append_left isEarly] at isAt
        exact first.dearer other (mem_of_getElem? isAt) price itsPrice
      · have isDear := Nat.lt_of_lt_of_le low (Nat.le_of_not_lt affordable)
        exact ⟨Nat.le_of_lt isDear, fun _ => isDear⟩
    · intro converts
      have fits := length_le_of_price? first.priced
      obtain ⟨passed, passing, length, each⟩ := passArgs_of_typed typed fits apart converts
      refine ⟨passed, _, ?_, length, each, ?_⟩
      · simp only [Bind.bind, EStateM.bind, passing]
        rfl
      · intro slot others
        -- A variable with this slot would be apart from all arguments.
        refine @currentTypes_passAll checker args (.var ⟨⟨.socket, [], []⟩, slot, "", false⟩) ?_ _
        rintro other member var _ rfl ⟨⟩
        exact others var member

def pairOf (type : DataType) : Callable :=
  .function (.mk [⟨"a", type, none⟩, ⟨"b", type, none⟩] [] [] [] false "f")

def pairs : List Callable :=
  [.function (.mk [⟨"a", .int, none⟩] [] [] [] false "f"), pairOf .vec3, pairOf .float,
    pairOf .float]

def counting : Checker := { new .geometry [] with slots := [[.int]] }

def twoCounts : List TypedExpr :=
  [.const ⟨.value, [.int], []⟩ (.int 1), .var ⟨⟨.socket, [.int], []⟩, 0, "x", false⟩]

/-- Of the two cheapest the first is taken; the variable is a number from then on. -/
theorem first_cheapest_taken_pair :
    ∃ passed slots, resolveAmong pairs "f" twoCounts counting =
        .ok (.ok (pairOf .float, passed)) { counting with slots } ∧
      slots.typesAt 0 = [.float] ∧ ∃ info, passed[0]? = some (.const info (.float .one)) := by
  have typed : FirstTypes counting twoCounts [.int, .int] := rfl
  have apart : twoCounts.Pairwise Apart := by simp [twoCounts, Apart]
  have costs : (pairOf .float).Costs [.int, .int] 22 := ⟨by decide, by decide⟩
  rcases first_cheapest_taken pairs "f" typed apart with ⟨dear, _⟩ |
    ⟨index, callable, cost, isAt, itsCost, _, least, taken⟩
  · exact absurd (dear _ (by simp [pairs]) 22 costs) (by decide)
  · obtain ⟨low, isFirst⟩ := least 2 _ 22 rfl costs
    match index, isAt with
    | 0, isAt =>
      cases isAt
      exact absurd itsCost.1 (by decide)
    | 1, isAt =>
      cases isAt
      exact absurd (itsCost.2 ▸ low) (by decide)
    | 3, isAt =>
      cases isAt
      exact absurd (itsCost.2 ▸ isFirst (by decide)) (by decide)
    | 2, isAt =>
      cases isAt
      have converts : Convertible twoCounts [.int, .int] (pairOf .float).inputTypes := by
        rintro (_ | _ | index) info value type param isConst isType isParam
        · cases isConst
          cases isType
          cases isParam
          exact ⟨_, rfl⟩
        · cases isConst
        · cases isConst
      rcases taken converts with ⟨passed, slots, resolved, _, each, _⟩
      refine ⟨passed, slots, resolved, ?_, ?_⟩
      · rcases each 1 _ _ _ rfl rfl rfl with ⟨given, _, retyped, ⟨rest, before, after⟩, _⟩
        cases retyped
        cases before
        exact after
      · rcases each 0 _ _ _ rfl rfl rfl with ⟨given, isGiven, _, _, converted⟩
        rcases converted _ _ rfl with ⟨info, value, rfl, converting⟩
        cases converting
        exact ⟨info, isGiven⟩

end Checker

/-! ## Histories of definitions -/

namespace FunctionTable

/--
A table has before the functions of an earlier one those that some statements define, the newest
first.
-/
def Gains (kind : TreeKind) (before : FunctionTable) (stmts : List Stmt) (after : FunctionTable) :
    Prop :=
  ∃ defined, List.Forall₂ (Stmt.Declares kind) (stmts.filter (·.isDefinition)) defined ∧
    ∀ name, (after.lookup name).getD [] =
      TreeKind.ownFunctions name defined ++ (before.lookup name).getD []

variable {kind : TreeKind} {after : FunctionTable}

theorem Gains.refl (kind : TreeKind) (functions : FunctionTable) :
    Gains kind functions [] functions :=
  ⟨[], .nil, fun _ => rfl⟩

theorem Gains.trans (early : Gains kind before first middle)
    (late : Gains kind middle second after) : Gains kind before (first ++ second) after := by
  obtain ⟨older, declared, known⟩ := early
  obtain ⟨newer, declaredLater, knownLater⟩ := late
  refine ⟨older ++ newer, ?_, fun _ => ?_⟩
  · rw [filter_append]
    exact List.rel_append declared declaredLater
  · rw [knownLater, known, TreeKind.ownFunctions_append, append_assoc]

end FunctionTable

namespace Checker

variable {after : Checker}

end Checker

namespace Library

variable {kind : TreeKind}

end Library

/-! ## Resolving a name -/

namespace TreeKind

end TreeKind

namespace Library

end Library

end NodeFormula
