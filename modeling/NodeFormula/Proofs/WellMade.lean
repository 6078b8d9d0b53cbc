import NodeFormula.Proofs.Retyping
import NodeFormula.Proofs.Compiling
import Mathlib.Data.List.ReduceOption

/-!
# Where the nodes of formulas come from

Every node that a checked formula makes has a recipe of the catalog, also inside the functions of
the user that it calls, and a constant that is assigned has the format of its type.  Once the
types are filled in that checking has found, every variable has one.
-/

namespace NodeFormula

open List Option

variable {functions : FunctionTable} {checker after : Checker} {slots : SlotTable}
  {value : TypedExpr}

mutual

/--
The nodes of an expression have well-formed recipes and no arguments too many, and if it is ready
every variable has a type.
-/
def TypedExpr.WellMade (ready : Prop) : TypedExpr → Prop
  | .const _ _ => True
  | .var reference => ready → reference.info.types ≠ []
  | .nodeCall _ recipe args =>
    recipe.WellFormed ∧ args.length ≤ recipe.inputs.length ∧ TypedExpr.AllWellMade ready args
  | .functionCall _ function args =>
    function.WellMade ∧ args.length ≤ function.inputs.length ∧ TypedExpr.AllWellMade ready args
  | .output _ value _ => value.WellMade ready

def TypedExpr.AllWellMade (ready : Prop) : List TypedExpr → Prop
  | [] => True
  | expr :: exprs => expr.WellMade ready ∧ TypedExpr.AllWellMade ready exprs

/-- The nodes of a function have well-formed recipes, and its body is ready. -/
def TypedFunction.WellMade : TypedFunction → Prop
  | .mk _ _ body _ _ _ => TypedStmt.AllWellMade True body

/-- The nodes of a statement have well-formed recipes, its constants their format. -/
def TypedStmt.WellMade (ready : Prop) : TypedStmt → Prop
  | .expr value => value.WellMade ready
  | .assign targets value => value.WellMade ready ∧ value.HasFormat ∧
      (ready → 1 < targets.length → value.info.types ≠ [])
  | .out targets value => value.WellMade ready ∧ value.HasFormat ∧
      (1 < targets.length → value.info.stack = .struct)

def TypedStmt.AllWellMade (ready : Prop) : List TypedStmt → Prop
  | [] => True
  | stmt :: stmts => stmt.WellMade ready ∧ TypedStmt.AllWellMade ready stmts

end

theorem TypedStmt.allWellMade_iff (stmts : List TypedStmt) :
    AllWellMade ready stmts ↔ ∀ stmt ∈ stmts, stmt.WellMade ready := by
  induction stmts with
  | nil => simp [AllWellMade]
  | cons stmt stmts ih => rw [AllWellMade, ih, forall_mem_cons]

def TypedStmt.results : TypedStmt → List Nat
  | .out targets _ => targets.reduceOption
  | _ => []

def FunctionTable.WellMade (functions : FunctionTable) : Prop :=
  ∀ entry ∈ functions, ∀ function ∈ entry.2, function.WellMade

def SlotTable.Covers (slots : SlotTable) (ready : Prop) (count : Nat) : Prop :=
  ready → ∀ slot < count, slots.typesAt slot ≠ []

theorem SlotTable.Covers.mono {count fewer : Nat} (covers : slots.Covers ready count)
    (less : fewer ≤ count) : slots.Covers ready fewer :=
  fun isReady slot inside => covers isReady slot (Nat.lt_of_lt_of_le inside less)

namespace TypedExpr

theorem WellMade.retyped (made : (expr.settle slots).WellMade ready)
    (retyped : Retyped expr other) : (other.settle slots).WellMade ready := by
  cases retyped with
  | const => trivial
  | var => exact made
  | nodeCall | functionCall | output =>
    exact made

theorem AllWellMade.retyped (made : AllWellMade ready (settleAll slots exprs))
    (retyped : List.Forall₂ Retyped exprs others) : AllWellMade ready (settleAll slots others) := by
  induction retyped with
  | nil => exact made
  | cons head tail ih =>
    exact ⟨made.1.retyped head, ih made.2⟩

theorem WellMade.withTypes (made : value.WellMade ready) (nonempty : ready → types ≠ []) :
    (value.withTypes types).WellMade ready := by
  cases value with
  | const => trivial
  | var => exact nonempty
  | nodeCall | functionCall | output =>
    rwa [WellMade] at made

end TypedExpr

/-! ## Checking makes only such nodes -/

namespace Checker

theorem function_of_mem_candidates {kind : TreeKind}
    (member : Callable.function function ∈ kind.candidates functions name) :
    ∃ entry ∈ functions, function ∈ entry.2 := by
  rw [TreeKind.candidates] at member
  split at member
  · simp at member
  · simp only [TreeKind.fromTable, mem_append, List.mem_map, Callable.function.injEq,
      exists_eq_right, reduceCtorEq, and_false, exists_false, false_or] at member
    cases found : functions.lookup name with
    | none =>
      rw [found] at member
      cases member
    | some listed =>
      rw [found] at member
      exact ⟨(name, listed), Catalog.mem_of_lookup found, member⟩

/-- Every slot has a type, and the functions are well made. -/
structure WellMade (checker : Checker) : Prop where
  placed : checker.Placed []
  functions : checker.functions.WellMade

theorem WellMade.next (made : checker.WellMade) (moves : Moves checker passes bound after)
    (same : after.functions = checker.functions) : after.WellMade :=
  ⟨made.placed.moves moves nofun, same ▸ made.functions⟩

theorem wellMade_applied {kind : TreeKind} (functionsMade : functions.WellMade)
    (listed : callable ∈ kind.candidates functions name)
    (fits : args.length ≤ callable.inputTypes.length)
    (argsMade : TypedExpr.AllWellMade ready (TypedExpr.settleAll slots args)) :
    ((applied callable args).settle slots).WellMade ready := by
  rw [← length_map (TypedExpr.settle slots), ← TypedExpr.settleAll_eq_map] at fits
  cases callable with
  | node recipe =>
    rw [Callable.inputTypes, NodeRecipe.inputTypes, length_map] at fits
    exact ⟨TreeKind.wellFormed_of_mem_candidates listed, fits, argsMade⟩
  | function function =>
    obtain ⟨entry, inTable, inEntry⟩ := function_of_mem_candidates listed
    rw [Callable.inputTypes, length_map] at fits
    exact ⟨functionsMade entry inTable function inEntry, fits, argsMade⟩

mutual

theorem Derives.made : ∀ {checker after expr},
    Derives checker expr after → checker.WellMade → slots.Covers ready after.slots.length →
    (expr.settle slots).WellMade ready
  | _, _, _, .const _ _, _, _ => by
    trivial
  | _, _, _, .unknown _ isNew, _, covers => by
    rw [isNew]
    exact fun isReady => covers isReady _ (by simp)
  | _, _, _, .known found _, made, covers | _, _, _, .created found, made, covers => by
    have inside := made.placed.vars found
    exact fun isReady => covers isReady _ inside
  | _, _, _, .call operands listed fits _ retyped isCall, made, covers => by
    rw [SlotTable.length_passAll] at covers
    have argsMade := (DerivesAll.made operands made covers).retyped retyped
    obtain ⟨vars, slots, rfl⟩ := operands.frame
    rw [isCall]
    exact wellMade_applied made.functions listed (retyped.length_eq ▸ fits) argsMade
  | _, _, _, .output operand _, made, covers => by
    rw [TypedExpr.settle]
    exact Derives.made operand made covers

theorem DerivesAll.made : ∀ {checker after exprs},
    DerivesAll checker exprs after → checker.WellMade → slots.Covers ready after.slots.length →
    TypedExpr.AllWellMade ready (TypedExpr.settleAll slots exprs)
  | _, _, _, .nil, _, _ => by
    trivial
  | _, _, _, .cons head tail, made, covers => by
    have headMade := Derives.made head made (covers.mono (DerivesAll.moves tail).1.length)
    have next := made.next head.moves.1 (by obtain ⟨_, _, rfl⟩ := head.frame; rfl)
    exact ⟨headMade, DerivesAll.made tail next covers⟩

end

theorem types_settle_ne_nil (typed : checker.currentTypes value ≠ [])
    (made : (value.settle slots).WellMade ready) (isReady : ready) :
    (value.settle slots).info.types ≠ [] := by
  cases value with
  | var reference =>
    exact made isReady
  | _ =>
    exact typed

theorem wellMade_assign {vars : List (Option TypedVar)} (made : (value.settle slots).WellMade ready)
    (format : value.HasFormat) (typed : 1 < vars.length → checker.currentTypes value ≠ [])
    (noStruct : ∀ target, vars = [some target] → target.info.stack ≠ .struct) :
    ((TypedStmt.assign vars value).settle slots).WellMade ready := by
  by_cases single : ∃ target, vars = [some target]
  · obtain ⟨target, rfl⟩ := single
    rw [TypedStmt.settle]
    simp only [if_neg (noStruct target rfl)]
    exact ⟨made, format.settle slots, fun _ several => absurd several (Nat.lt_irrefl 1)⟩
  · rw [TypedStmt.settle, TypedStmt.WellMade, length_map]
    · exact ⟨made, format.settle slots, fun isReady several =>
        types_settle_ne_nil (typed several) made isReady⟩
    · exact fun target same => single ⟨target, same⟩

section Made

theorem DerivesStmt.made (derived : DerivesStmt checker stmt after) (made : checker.WellMade)
    (covers : slots.Covers ready after.slots.length) : (stmt.settle slots).WellMade ready := by
  cases derived with
  | expr derived =>
    exact derived.made ⟨made.placed.congr rfl rfl, made.functions⟩ covers
  | @divided middle _ value vars _ _ _ derived several noStruct typed counted fits binds =>
    have nonempty : middle.currentTypes value ≠ [] := by
      rw [typed]
      exact cons_ne_nil _ _
    refine wellMade_assign (derived.made made (covers.mono binds.moves.length)) derived.hasFormat
      (fun _ => nonempty) ?_
    rintro target rfl
    exact absurd several (Nat.lt_irrefl 1)
  | @whole middle after value slot id var derived isStruct slotted isVar =>
    have moves := (whole derived isStruct slotted isVar).moves
    have longer : middle.slots.length ≤ after.slots.length := by
      cases value <;> cases slotted <;> simp
    have isWhole : var.info.stack = .struct := by rw [isVar]
    have isSlot : (TypedStmt.assign [some var] value).valueSlot? = some var.slot := by
      rw [TypedStmt.valueSlot?, if_pos isWhole]
    have inside := made.placed.lt_of_slotFrom moves.1.length (moves.2 _ isSlot)
    rw [TypedStmt.settle]
    simp only [if_pos isWhole]
    refine ⟨(derived.made made (covers.mono longer)).withTypes fun isReady =>
      covers isReady _ inside, ?_, fun _ several => absurd several (Nat.lt_irrefl 1)⟩
    -- A constant is no struct.
    cases value with
    | const info held => cases isStruct.symm.trans derived.of_const.2.1
    | _ =>
      rintro _ _ ⟨⟩
  | @bound middle _ value vars derived simple fits binds =>
    refine wellMade_assign (derived.made made (covers.mono binds.moves.length)) derived.hasFormat
      (fun several => ne_nil_of_length_pos (Nat.lt_of_lt_of_le (Nat.zero_lt_of_lt several) fits)) ?_
    rintro target rfl isStruct
    rw [binds.socket target mem_cons_self] at isStruct
    cases isStruct
  | out listed derived simple =>
    refine ⟨derived.made ⟨made.placed.congr rfl rfl, made.functions⟩ covers,
      derived.hasFormat.settle slots, fun several => ?_⟩
    rw [TypedExpr.settle_stack]
    exact simple.resolve_left (Nat.not_le.2 several)

theorem DerivesBody.made (derived : DerivesBody checker stmts after) (made : checker.WellMade)
    (covers : slots.Covers ready after.slots.length) :
    TypedStmt.AllWellMade ready (stmts.map (TypedStmt.settle slots)) := by
  induction derived with
  | nil =>
    trivial
  | cons head tail ih =>
    obtain ⟨_, _, tailMoves⟩ := tail.moves
    have next := made.next head.moves.1 (by obtain ⟨_, _, _, rfl⟩ := head.frame; rfl)
    exact ⟨head.made made (covers.mono tailMoves.length), ih next covers⟩

theorem mem_insertFunction (listed : entry ∈ insertFunction functions function)
    (inEntry : other ∈ entry.2) : other = function ∨ ∃ entry ∈ functions, other ∈ entry.2 := by
  rw [insertFunction] at listed
  split at listed
  · obtain ⟨old, inTable, rfl⟩ := mem_map.mp listed
    split at inEntry
    · rcases mem_cons.mp inEntry with isNew | older
      · exact .inl isNew
      · exact .inr ⟨old, inTable, older⟩
    · exact .inr ⟨old, inTable, inEntry⟩
  · rcases mem_append.mp listed with inTable | isNew
    · exact .inr ⟨entry, inTable, inEntry⟩
    · cases mem_singleton.mp isNew
      exact .inl (mem_singleton.mp inEntry)

theorem WellMade.top (made : checker.WellMade) (derived : DerivesTop checker typed after) :
    after.WellMade := by
  have placed : after.Placed ([] ++ []) := made.placed.moves derived.moves.1 nofun
  refine ⟨placed, ?_⟩
  cases derived with
  | stmt derived =>
    obtain ⟨_, _, _, rfl⟩ := derived.frame
    exact made.functions
  | definition binds derived =>
    have outside : WellMade { checker with vars := [] } :=
      ⟨⟨nofun, made.placed.typed, nofun⟩, made.functions⟩
    have entered := outside.next binds.moves (by obtain ⟨_, _, rfl⟩ := binds.frame; rfl)
    have bodyMade := derived.made ⟨entered.placed.congr rfl rfl, entered.functions⟩
      fun _ : True => fun _ inside => placed.typed inside
    obtain ⟨_, _, _, rfl⟩ := derived.frame
    intro entry listed other inEntry
    rcases mem_insertFunction listed inEntry with rfl | ⟨entry, listed, inEntry⟩
    · exact bodyMade
    · exact entered.functions entry listed other inEntry

theorem DerivesStmt.results_lt (derived : DerivesStmt checker stmt after) :
    ∀ index ∈ stmt.results, index < checker.outputs.length := by
  cases derived with
  | out listed =>
    intro index member
    exact listed index (reduceOption_mem_iff.1 member)
  | _ => exact nofun

theorem DerivesStmt.results_eq_nil (derived : DerivesStmt checker stmt after)
    (outside : checker.outputs = []) : stmt.results = [] := by
  rw [eq_nil_iff_forall_not_mem]
  intro index member
  have inside := derived.results_lt index member
  rw [outside] at inside
  exact absurd inside (Nat.not_lt_zero index)

/-- Checking leaves well-made functions and statements, which set no results. -/
structure Finished (checker : Checker) : Prop extends checker.WellMade where
  outside : checker.outputs = []
  body : ∀ stmt ∈ checker.body, (∀ {slots}, slots.Covers True checker.slots.length →
    (stmt.settle slots).WellMade True) ∧ stmt.results = []

theorem Finished.top (finished : checker.Finished) (derived : DerivesTop checker typed after) :
    Finished { after with body := after.body ++ typed.toList } := by
  have made := finished.toWellMade.top derived
  refine ⟨⟨made.placed.congr rfl rfl, made.functions⟩, ?_, ?_⟩
  · cases derived with
    | stmt derived =>
      obtain ⟨_, _, _, rfl⟩ := derived.frame
      exact finished.outside
    | definition => rfl
  · intro stmt member
    rcases mem_append.1 member with before | isNew
    · rw [derived.body_eq] at before
      obtain ⟨ready, noResults⟩ := finished.body stmt before
      exact ⟨fun covers => ready (covers.mono derived.moves.1.length), noResults⟩
    · cases derived with
      | stmt derived =>
        cases mem_singleton.1 isNew
        exact ⟨derived.made finished.toWellMade, derived.results_eq_nil finished.outside⟩
      | definition => cases isNew

end Made

end Checker

namespace Compiler

theorem finished_check [Evaluator] (made : functions.WellMade)
    (checked : (Checker.new kind functions).check source = (checker, .ok true)) :
    checker.Finished := by
  obtain ⟨_, _, done⟩ := check_eq_true checked
  refine Checker.checkStmts_keeps Checker.Finished.top ?_ done
  exact ⟨⟨⟨nofun, nofun, nofun⟩, made⟩, rfl, nofun⟩

theorem Produced.wellMade [Evaluator] (produced : Produced functions) : functions.WellMade := by
  induction produced with
  | none => exact nofun
  | next before compiled accepted ih =>
    obtain ⟨_, _, checked, rfl, _⟩ := compile_eq_accepted compiled accepted
    exact (finished_check ih checked).functions

end Compiler

namespace Checker

theorem Finished.settledBody (finished : checker.Finished) :
    TypedStmt.AllWellMade True checker.settledBody := by
  rw [TypedStmt.allWellMade_iff]
  intro stmt member
  obtain ⟨unsettled, listed, rfl⟩ := mem_map.mp member
  exact (finished.body unsettled listed).1 fun _ _ inside => finished.placed.typed inside

theorem Reached.wellMade [Evaluator] (reached : checker.Reached recorded) : checker.WellMade := by
  have placed := reached.placed
  refine ⟨⟨placed.vars, placed.typed, nofun⟩, ?_⟩
  clear placed
  induction reached with
  | start kind produced => exact produced.wellMade
  | stmt reached checked functions =>
    have placed := reached.placed
    exact (WellMade.top ⟨⟨placed.vars, placed.typed, nofun⟩, functions⟩
      (derives_checkStmt checked)).functions
  | enter outputs reached bound functions =>
    obtain ⟨vars, binds⟩ := binds_bindParams bound
    obtain ⟨_, _, rfl⟩ := binds.frame
    exact functions
  | inner reached checked functions =>
    obtain ⟨_, _, _, rfl⟩ := (derives_checkInner checked).frame
    exact functions

end Checker

end NodeFormula
