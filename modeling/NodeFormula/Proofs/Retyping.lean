import NodeFormula.Calculation.Function
import NodeFormula.Proofs.Derivation
import Mathlib.Data.List.Induction
import Mathlib.Data.List.ReduceOption

/-!
# When variables change their types

A variable that a call takes directly as an argument gets the type of the parameter, in all its
uses, also in statements that were checked before.  Nothing else changes the type of a variable.
-/

namespace NodeFormula

open List Checker

/-- The functions that are left behind by formulas accepted one after the other. -/
inductive Compiler.Produced [Evaluator] : FunctionTable → Prop
  | none : Produced []
  | next {functions after kind source} {outcome} (before : Produced functions)
      (compiled : compile kind functions source = (after, .ok outcome))
      (accepted : outcome.accepted = true) : Produced after

/-- The states that checking formulas goes through, with the statements that were checked before. -/
inductive Checker.Reached [Evaluator] : Checker → List TypedStmt → Prop
  | start {functions} (kind : TreeKind) (produced : Compiler.Produced functions) :
      Reached (.new kind functions) []
  | stmt {checker after recorded stmt typed} (reached : Reached checker recorded)
      (checked : checkStmt stmt checker = .ok typed after) :
      Reached { after with body := after.body ++ typed.toList } (recorded ++ typed.toList)
  | enter {checker after recorded params} (outputs : List Binding)
      (reached : Reached checker recorded)
      (bound : bindParams params { checker with vars := [] } = .ok () after) :
      Reached (after.entering outputs) recorded
  | inner {checker after recorded stmt typed} (reached : Reached checker recorded)
      (checked : checkInner stmt checker = .ok typed after) : Reached after (recorded ++ [typed])

variable {types : List DataType} {expr : TypedExpr} {checker after : Checker}
  {vars : List (Option TypedVar)} {slot : Nat} {typed : Option TypedStmt}
  {recorded : List TypedStmt} {slots : SlotTable}

/-- A variable, known by its slot, is passed to a parameter of a type. -/
structure Pass where
  slot : Nat
  type : DataType

namespace Pass

def applyAll (passes : List Pass) (slot : Nat) (types : List DataType) : List DataType :=
  passes.foldl (fun types pass =>
    if pass.slot = slot then replaceFirst pass.type types else types) types

/-- The type of the parameter that the variable of a slot is passed to last. -/
def last? (passes : List Pass) (slot : Nat) : Option DataType :=
  ((passes.filter (·.slot = slot)).getLast?).map (·.type)

theorem applyAll_append (first second : List Pass) (slot : Nat) (types : List DataType) :
    applyAll (first ++ second) slot types = applyAll second slot (applyAll first slot types) := by
  rw [applyAll, foldl_append]
  rfl

theorem applyAll_of_not_mem (missing : ∀ pass ∈ passes, pass.slot ≠ slot) (types : List DataType) :
    applyAll passes slot types = types := by
  induction passes with
  | nil => rfl
  | cons pass passes ih =>
    rw [forall_mem_cons] at missing
    rw [applyAll, foldl_cons, if_neg missing.1]
    exact ih missing.2

theorem replaceFirst_replaceFirst (type other : DataType) (types : List DataType) :
    replaceFirst type (replaceFirst other types) =
      replaceFirst type types := by
  cases types <;> rfl

/-- The types of a slot after its variable was passed to a parameter, or not at all. -/
def retype : Option DataType → List DataType → List DataType
  | some type, types => replaceFirst type types
  | none, types => types

/-- Of several passes of one variable only the last one counts. -/
theorem applyAll_eq (passes : List Pass) (slot : Nat) (types : List DataType) :
    applyAll passes slot types = retype (last? passes slot) types := by
  induction passes using reverseRecOn with
  | nil => rfl
  | append_singleton passes pass ih =>
    rw [applyAll_append, ih]
    by_cases here : pass.slot = slot
    · have isLast : last? (passes ++ [pass]) slot = some pass.type := by
        simp [last?, here]
      simp only [isLast, applyAll, foldl_cons, if_pos here]
      cases last? passes slot with
      | none => rfl
      | some type => exact replaceFirst_replaceFirst pass.type type types
    · have same : last? (passes ++ [pass]) slot = last? passes slot := by
        simp [last?, here]
      simp only [same, applyAll, foldl_cons, foldl_nil, if_neg here]

theorem head?_retype (nonempty : types ≠ []) (passed : Option DataType) :
    (retype passed types).head? = types.head? ↔
      ∀ type, passed = some type → types.head? = some type := by
  cases types with
  | nil => exact absurd rfl nonempty
  | cons first rest =>
    cases passed with
    | none => simp [retype]
    | some type => simp [retype, replaceFirst, eq_comm]

theorem applyAll_ne_nil (nonempty : types ≠ []) (passes : List Pass) (slot : Nat) :
    applyAll passes slot types ≠ [] := by
  rw [applyAll_eq]
  cases types with
  | nil => exact absurd rfl nonempty
  | cons first rest => cases last? passes slot <;> exact cons_ne_nil _ _

end Pass

namespace TypedExpr

def passedTo : List TypedExpr → List DataType → List Pass
  | .var reference :: args, type :: types => ⟨reference.slot, type⟩ :: passedTo args types
  | _ :: args, _ :: types => passedTo args types
  | _, _ => []

mutual

/-- The variables that calls take directly, in the order of the calls. -/
def passes : TypedExpr → List Pass
  | .const _ _ => []
  | .var _ => []
  | .nodeCall _ recipe args => passesAll args ++ passedTo args recipe.inputTypes
  | .functionCall _ function args =>
    passesAll args ++ passedTo args (function.inputs.map (·.type))
  | .output _ value _ => value.passes

def passesAll : List TypedExpr → List Pass
  | [] => []
  | expr :: exprs => expr.passes ++ passesAll exprs

end

theorem passes_applied (callable : Callable) (args : List TypedExpr) :
    (applied callable args).passes =
      passesAll args ++ passedTo args callable.inputTypes := by
  cases callable with
  | node recipe =>
    rfl
  | function function =>
    rfl

theorem passes_retyped (retyped : Retyped expr other) : other.passes = expr.passes := by
  cases retyped with
  | const info types value converted =>
    rw [passes, passes]
  | var var => rfl
  | nodeCall info types recipe args =>
    rw [passes, passes]
  | functionCall info types function args =>
    rw [passes, passes]
  | output info types value index =>
    rw [passes, passes]

theorem passesAll_retyped (retyped : List.Forall₂ Retyped exprs others) :
    passesAll others = passesAll exprs := by
  induction retyped with
  | nil => rfl
  | cons head tail ih => rw [passesAll, passesAll, passes_retyped head, ih]

theorem passedTo_retyped (retyped : List.Forall₂ Retyped exprs others) (types : List DataType) :
    passedTo others types = passedTo exprs types := by
  induction retyped generalizing types with
  | nil => rfl
  | cons head tail ih =>
    cases types with
    | nil => cases head <;> rfl
    | cons type types => cases head <;> simp only [passedTo, ih]

end TypedExpr

namespace SlotTable

theorem typesAt_modify (slots : SlotTable) (index slot : Nat) (type : DataType) :
    typesAt (slots.modify index (replaceFirst type)) slot =
      if index = slot then replaceFirst type (slots.typesAt slot)
      else slots.typesAt slot := by
  rw [typesAt, typesAt, getD_eq_getElem?_getD, getD_eq_getElem?_getD,
    getElem?_modify]
  split
  · cases slots[slot]? <;> rfl
  · simp

theorem typesAt_append_left (inside : slot < slots.length) (more : SlotTable) :
    typesAt (slots ++ more) slot = slots.typesAt slot := by
  rw [typesAt, typesAt, getD_eq_getElem?_getD, getElem?_append_left inside,
    getD_eq_getElem?_getD]

theorem length_passAll (slots : SlotTable) (args : List TypedExpr) (types : List DataType) :
    (slots.passAll args types).length = slots.length := by
  induction args generalizing slots types with
  | nil => cases types <;> rfl
  | cons arg args ih =>
    cases types with
    | nil => rfl
    | cons type types =>
      rw [passAll, ih]
      cases arg with
      | var var => exact length_modify ..
      | _ => rfl

theorem typesAt_passAll (slots : SlotTable) (args : List TypedExpr) (types : List DataType)
    (slot : Nat) :
    (slots.passAll args types).typesAt slot =
      Pass.applyAll (TypedExpr.passedTo args types) slot (slots.typesAt slot) := by
  induction args generalizing slots types with
  | nil => cases types <;> rfl
  | cons arg args ih =>
    cases types with
    | nil => cases arg <;> rfl
    | cons type types =>
      rw [passAll, ih]
      cases arg with
      | var var =>
        rw [pass, typesAt_modify]
        rfl
      | _ => rfl

end SlotTable

namespace Checker

def Owns (checker : Checker) (slot : Nat) : Prop :=
  ∃ name var, checker.vars.lookup name = some var ∧ var.slot = slot

/-- A slot belongs to a variable of a state, or was made after it. -/
def SlotFrom (before after : Checker) (slot : Nat) : Prop :=
  before.Owns slot ∨ before.slots.length ≤ slot ∧ slot < after.slots.length

/-- Variables are passed, some names are bound anew, and the others keep their slots. -/
structure Moves (before : Checker) (passes : List Pass) (bound : List String) (after : Checker) :
    Prop where
  length : before.slots.length ≤ after.slots.length
  types : ∀ slot, slot < before.slots.length →
    after.slots.typesAt slot = Pass.applyAll passes slot (before.slots.typesAt slot)
  typed : ∀ slot, before.slots.length ≤ slot → slot < after.slots.length →
    after.slots.typesAt slot ≠ []
  passed : ∀ pass ∈ passes, SlotFrom before after pass.slot
  kept : ∀ name var, before.vars.lookup name = some var → name ∉ bound →
    ∃ later, after.vars.lookup name = some later ∧ later.slot = var.slot
  origin : ∀ name var, after.vars.lookup name = some var → SlotFrom before after var.slot

namespace Moves

variable {var : TypedVar}

theorem refl (checker : Checker) : Moves checker [] [] checker := by
  constructor
  · exact Nat.le_refl _
  · intro slot inside
    rfl
  · intro slot outside inside
    exact absurd inside (Nat.not_lt.2 outside)
  · exact nofun
  · intro name var found unbound
    exact ⟨var, found, rfl⟩
  · intro name var found
    exact .inl ⟨name, var, found, rfl⟩

theorem slotFrom_later (moves : Moves second late others third)
    (slotFrom : SlotFrom first second slot) : SlotFrom first third slot := by
  rcases slotFrom with found | ⟨outside, inside⟩
  · exact .inl found
  · exact .inr ⟨outside, Nat.lt_of_lt_of_le inside moves.length⟩

theorem slotFrom_earlier (moves : Moves first early bound second)
    (later : second.slots.length ≤ third.slots.length) (slotFrom : SlotFrom second third slot) :
    SlotFrom first third slot := by
  rcases slotFrom with ⟨name, var, found, rfl⟩ | ⟨outside, inside⟩
  · rcases moves.origin name var found with known | ⟨outside, inside⟩
    · exact .inl known
    · exact .inr ⟨outside, Nat.lt_of_lt_of_le inside later⟩
  · exact .inr ⟨Nat.le_trans moves.length outside, inside⟩

theorem trans (before : Moves first early bound second) (after : Moves second late others third) :
    Moves first (early ++ late) (bound ++ others) third := by
  constructor
  · exact Nat.le_trans before.length after.length
  · intro slot inside
    rw [after.types slot (Nat.lt_of_lt_of_le inside before.length), before.types slot inside,
      Pass.applyAll_append]
  · intro slot outside inside
    by_cases isEarly : slot < second.slots.length
    · rw [after.types slot isEarly]
      exact Pass.applyAll_ne_nil (before.typed slot outside isEarly) late slot
    · exact after.typed slot (Nat.le_of_not_lt isEarly) inside
  · intro pass member
    rcases mem_append.1 member with isEarly | isLate
    · exact after.slotFrom_later (before.passed pass isEarly)
    · exact before.slotFrom_earlier after.length (after.passed pass isLate)
  · intro name var found unbound
    rw [mem_append, not_or] at unbound
    obtain ⟨middle, foundMiddle, sameSlot⟩ := before.kept name var found unbound.1
    obtain ⟨later, foundLater, sameLater⟩ := after.kept name middle foundMiddle unbound.2
    exact ⟨later, foundLater, sameLater.trans sameSlot⟩
  · intro name var found
    exact before.slotFrom_earlier after.length (after.origin name var found)

theorem congr (moves : Moves first early bound second) (beforeVars : before'.vars = first.vars)
    (beforeSlots : before'.slots = first.slots) (afterVars : after'.vars = second.vars)
    (afterSlots : after'.slots = second.slots) : Moves before' early bound after' := by
  obtain ⟨_, _, vars, slots, _, _, _, _⟩ := first
  obtain ⟨_, _, _, _, _, _, _, _⟩ := second
  subst beforeVars beforeSlots afterVars afterSlots
  exact ⟨moves.length, moves.types, moves.typed, moves.passed, moves.kept, moves.origin⟩

theorem bind (moves : Moves first early [] second) (id : String)
    (slotFrom : SlotFrom first second var.slot) :
    Moves first early [id] { second with vars := Table.insert id var second.vars } := by
  refine ⟨moves.length, moves.types, moves.typed, moves.passed, ?_, ?_⟩
  · intro name other found unbound
    rw [Table.lookup_insert, if_neg]
    · exact moves.kept name other found not_mem_nil
    · rintro rfl
      exact unbound mem_cons_self
  · intro name other found
    rw [Table.lookup_insert] at found
    split at found
    · cases found
      exact slotFrom
    · exact moves.origin name other found

theorem bindNew (nonempty : types ≠ []) (id : String) (isNew : var.slot = checker.slots.length) :
    Moves checker [] [id] { checker with
      slots := checker.slots ++ [types]
      vars := Table.insert id var checker.vars } := by
  have grown : Moves checker [] [] { checker with slots := checker.slots ++ [types] } := by
    constructor
    · rw [length_append]
      exact Nat.le_add_right _ _
    · intro slot inside
      exact SlotTable.typesAt_append_left inside _
    · intro slot outside inside
      rw [length_append] at inside
      obtain rfl : slot = checker.slots.length :=
        Nat.le_antisymm (Nat.le_of_lt_succ inside) outside
      rw [SlotTable.typesAt, getD_eq_getElem?_getD, getElem?_concat_length]
      exact nonempty
    · exact nofun
    · intro name other found _
      exact ⟨other, found, rfl⟩
    · intro name other found
      exact .inl ⟨name, other, found, rfl⟩
  refine grown.bind id (.inr ⟨Nat.le_of_eq isNew.symm, ?_⟩)
  rw [isNew, length_append]
  exact Nat.lt_succ_self _

theorem bindOld (id : String) (owned : checker.Owns var.slot) :
    Moves checker [] [id] { checker with vars := Table.insert id var checker.vars } :=
  (refl checker).bind id (.inl owned)

theorem unbind {id : String} (moves : Moves first early [id] second)
    (same : ∀ var, first.vars.lookup id = some var →
      ∃ later, second.vars.lookup id = some later ∧ later.slot = var.slot) :
    Moves first early [] second := by
  refine ⟨moves.length, moves.types, moves.typed, moves.passed, ?_, moves.origin⟩
  intro name var found _
  by_cases isId : name = id
  · subst isId
    exact same var found
  · exact moves.kept name var found (by simpa using isId)

theorem owns (moves : Moves first early [] second) (owned : first.Owns slot) :
    second.Owns slot := by
  obtain ⟨name, var, found, rfl⟩ := owned
  obtain ⟨later, foundLater, sameSlot⟩ := moves.kept name var found not_mem_nil
  exact ⟨name, later, foundLater, sameSlot⟩

end Moves

/-! ## Expressions -/

theorem mem_passedTo {pass} (member : pass ∈ TypedExpr.passedTo args types) :
    ∃ reference, TypedExpr.var reference ∈ args ∧ reference.slot = pass.slot := by
  fun_induction TypedExpr.passedTo args types with
  | case1 reference args type types ih =>
    rcases mem_cons.1 member with rfl | later
    · exact ⟨reference, mem_cons_self, rfl⟩
    · obtain ⟨other, listed, sameSlot⟩ := ih later
      exact ⟨other, mem_cons_of_mem _ listed, sameSlot⟩
  | case2 arg args type types _ ih =>
    obtain ⟨other, listed, sameSlot⟩ := ih member
    exact ⟨other, mem_cons_of_mem _ listed, sameSlot⟩
  | case3 => cases member

theorem moves_passAll (types : List DataType)
    (owned : ∀ reference, .var reference ∈ args → checker.Owns reference.slot) :
    Moves checker (TypedExpr.passedTo args types) []
      { checker with slots := checker.slots.passAll args types } := by
  have sameLength := SlotTable.length_passAll checker.slots args types
  constructor
  · exact Nat.le_of_eq sameLength.symm
  · intro slot inside
    exact SlotTable.typesAt_passAll _ _ _ _
  · intro slot outside inside
    rw [sameLength] at inside
    exact absurd inside (Nat.not_lt.2 outside)
  · intro pass member
    obtain ⟨reference, listed, sameSlot⟩ := mem_passedTo member
    exact .inl (sameSlot ▸ owned reference listed)
  · intro name var found _
    exact ⟨var, found, rfl⟩
  · intro name var found
    exact .inl ⟨name, var, found, rfl⟩

mutual

theorem Derives.moves : ∀ {checker after expr},
    Derives checker expr after → Moves checker expr.passes [] after ∧
      ∀ reference, expr = .var reference → after.Owns reference.slot
  | checker, _, _, .const _ _ => by
    exact ⟨.refl checker, nofun⟩
  | checker, _, _, @Derives.unknown _ id _ unseen isNew => by
    constructor
    · refine (Moves.bindNew (cons_ne_nil _ _) id (by rw [isNew])).unbind ?_
      intro var found
      rw [unseen] at found
      cases found
    · intro reference same
      cases same
      exact ⟨id, _, by rw [Table.lookup_insert, if_pos rfl], rfl⟩
  | checker, _, _, @Derives.known _ id _ found _ => by
    constructor
    · exact .refl checker
    · intro reference same
      cases same
      exact ⟨id, _, found, rfl⟩
  | checker, _, _, @Derives.created _ id var found => by
    have bound : (Table.insert id { var with isFresh := false } checker.vars).lookup id =
        some { var with isFresh := false } := by
      rw [Table.lookup_insert, if_pos rfl]
    constructor
    · have owned : checker.Owns ({ var with isFresh := false } : TypedVar).slot :=
        ⟨id, var, found, rfl⟩
      refine (Moves.bindOld id owned).unbind ?_
      intro other foundOther
      cases found.symm.trans foundOther
      exact ⟨_, bound, rfl⟩
    · intro reference same
      cases same
      exact ⟨id, _, bound, rfl⟩
  | checker, _, _,
      @Derives.call _ middle _ args passed callable _ operands _ _ _ retyped isCall => by
    obtain ⟨moves, owned⟩ := DerivesAll.moves operands
    constructor
    · rw [isCall, TypedExpr.passes_applied, TypedExpr.passesAll_retyped retyped,
        TypedExpr.passedTo_retyped retyped]
      exact moves.trans (moves_passAll _ owned)
    · intro reference same
      rw [isCall] at same
      cases callable <;> cases same
  | checker, _, _, .output operand _ => by
    exact ⟨(Derives.moves operand).1, nofun⟩

theorem DerivesAll.moves : ∀ {checker after exprs},
    DerivesAll checker exprs after → Moves checker (TypedExpr.passesAll exprs) [] after ∧
      ∀ reference, TypedExpr.var reference ∈ exprs → after.Owns reference.slot
  | checker, _, _, .nil => by
    exact ⟨.refl checker, nofun⟩
  | checker, _, _, .cons head tail => by
    obtain ⟨headMoves, headOwned⟩ := Derives.moves head
    obtain ⟨tailMoves, tailOwned⟩ := DerivesAll.moves tail
    constructor
    · exact headMoves.trans tailMoves
    · intro reference member
      rcases mem_cons.1 member with isHead | inTail
      · exact tailMoves.owns (headOwned reference isHead.symm)
      · exact tailOwned reference inTail

end

/-! ## Statements -/

theorem types_resultInfo_ne_nil (hasValue : (resultInfo results).stack ≠ .empty) :
    (resultInfo results).types ≠ [] := by
  match results with
  | [] => exact absurd rfl hasValue
  | [_] | _ :: _ :: _ => exact cons_ne_nil _ _

theorem Derives.types_ne_nil (derived : Derives checker expr after)
    (noVar : ∀ reference, expr ≠ .var reference) (hasValue : expr.info.stack ≠ .empty) :
    expr.info.types ≠ [] := by
  cases derived with
  | const isValue format =>
    obtain ⟨_, types, _⟩ := format _ _ rfl
    simp [TypedExpr.info, types]
  | unknown unseen isNew => exact absurd rfl (noVar _)
  | known found isOld => exact absurd rfl (noVar _)
  | created found => exact absurd rfl (noVar _)
  | @call _ _ _ _ _ callable _ _ _ _ _ _ isCall =>
    subst isCall
    cases callable <;> exact types_resultInfo_ne_nil hasValue
  | output operand found => exact cons_ne_nil _ _

theorem Binds.moves (binds : Binds checker vars types after) :
    Moves checker [] (vars.filterMap (·.map (·.id))) after := by
  induction binds with
  | nil => exact .refl _
  | skip others ih => exact ih
  | @bind checker after vars type types id var isNew others ih =>
    subst isNew
    exact (Moves.bindNew (cons_ne_nil _ _) id rfl).trans ih

theorem Binds.socket (binds : Binds checker vars types after) :
    ∀ var, some var ∈ vars → var.info.stack = .socket := by
  induction binds with
  | nil => exact nofun
  | skip others ih =>
    intro var member
    rcases mem_cons.1 member with same | later
    · cases same
    · exact ih var later
  | bind isNew others ih =>
    intro other member
    rcases mem_cons.1 member with same | later
    · cases same
      rw [isNew]
    · exact ih other later

end Checker

def TypedExpr.slot? : TypedExpr → Option Nat
  | .var reference => some reference.slot
  | _ => none

namespace TypedStmt

def value : TypedStmt → TypedExpr
  | .expr value => value
  | .assign _ value => value
  | .out _ value => value

def assigned : TypedStmt → List String
  | .assign vars _ => vars.filterMap (·.map (·.id))
  | _ => []

/-- The slot that keeps the types of the value, of a variable or a whole struct. -/
def valueSlot? : TypedStmt → Option Nat
  | .assign [some target] value =>
    if target.info.stack = .struct then some target.slot else value.slot?
  | .expr value => value.slot?
  | .assign _ value => value.slot?
  | .out _ value => value.slot?

theorem valueSlot?_assign {value}
    (noStruct : ∀ target, vars = [some target] → target.info.stack ≠ .struct) :
    (assign vars value).valueSlot? = value.slot? := by
  unfold valueSlot?
  split
  · rename_i target _ same
    cases same
    exact if_neg (noStruct target rfl)
  · rename_i same
    cases same
  · rename_i same
    cases same
    rfl
  · rename_i same
    cases same

theorem types_settle (slots : SlotTable) (expr : TypedExpr) :
    (expr.settle slots).info.types =
      match expr.slot? with
      | some slot => slots.typesAt slot
      | none => expr.info.types := by
  cases expr <;> rw [TypedExpr.settle] <;> rfl

theorem types_value_settle (slots : SlotTable) (stmt : TypedStmt) :
    (stmt.settle slots).value.info.types =
      match stmt.valueSlot? with
      | some slot => slots.typesAt slot
      | none => stmt.value.info.types := by
  cases stmt with
  | expr value => exact types_settle slots value
  | out targets value => exact types_settle slots value
  | assign targets value =>
    by_cases single : ∃ target, targets = [some target]
    · obtain ⟨target, rfl⟩ := single
      rw [settle, valueSlot?]
      by_cases isStruct : target.info.stack = .struct
      · rw [if_pos isStruct, if_pos isStruct]
        cases kept : value.settle slots <;> rw [TypedExpr.withTypes] <;> rfl
      · rw [if_neg isStruct, if_neg isStruct]
        exact types_settle slots value
    · rw [settle, valueSlot?_assign]
      · exact types_settle slots value
      · intro target same
        exact absurd ⟨target, same⟩ single
      · intro target same
        exact single ⟨target, same⟩

end TypedStmt

namespace Checker

theorem Derives.slotFrom (derived : Derives checker expr after) (found : expr.slot? = some slot) :
    SlotFrom checker after slot := by
  obtain ⟨moves, owned⟩ := derived.moves
  cases expr with
  | var reference =>
    cases found
    obtain ⟨name, var, foundAfter, sameSlot⟩ := owned reference rfl
    exact sameSlot ▸ moves.origin name var foundAfter
  | _ => cases found

theorem DerivesStmt.moves {checker after stmt}
    (derived : DerivesStmt checker stmt after) :
    Moves checker stmt.value.passes stmt.assigned after ∧
      ∀ slot, stmt.valueSlot? = some slot → SlotFrom checker after slot := by
  cases derived with
  | expr derived =>
    constructor
    · exact derived.moves.1.congr rfl rfl rfl rfl
    · intro slot found
      exact derived.slotFrom found
  | @divided middle _ value vars _ _ _ derived several noStruct typed counted fits binds =>
    have moves := derived.moves.1.trans binds.moves
    rw [append_nil] at moves
    refine ⟨moves, ?_⟩
    intro slot found
    rw [TypedStmt.valueSlot?_assign] at found
    · exact binds.moves.slotFrom_later (derived.slotFrom found)
    · rintro target rfl
      exact absurd several (Nat.lt_irrefl 1)
  | @whole middle after value slot id var derived isStruct slotted isVar =>
    have isSlot : (TypedStmt.assign [some var] value).valueSlot? = some slot := by
      rw [TypedStmt.valueSlot?, isVar, if_pos rfl]
    have sameSlot : var.slot = slot := by rw [isVar]
    have sameId : (TypedStmt.assign [some var] value).assigned = [id] := by
      rw [isVar]
      rfl
    rw [isSlot, sameId]
    by_cases isReference : ∃ reference, value = .var reference
    · obtain ⟨reference, rfl⟩ := isReference
      cases slotted
      have owned : middle.Owns var.slot := sameSlot ▸ derived.moves.2 reference rfl
      have binding := Moves.bindOld id owned
      have moves := derived.moves.1.trans binding
      refine ⟨moves, ?_⟩
      rintro _ ⟨⟩
      exact binding.slotFrom_later (derived.slotFrom rfl)
    · have noVar : ∀ reference, value ≠ .var reference :=
        fun reference same => isReference ⟨reference, same⟩
      obtain ⟨isNew, rfl⟩ : slot = middle.slots.length ∧
          after = { middle with slots := middle.slots ++ [value.info.types] } := by
        cases value with
        | var reference => exact absurd rfl (noVar reference)
        | _ =>
          cases slotted
          exact ⟨rfl, rfl⟩
      have binding := Moves.bindNew (derived.types_ne_nil noVar (by simp [isStruct])) id
        (sameSlot.trans isNew)
      have moves := derived.moves.1.trans binding
      rw [append_nil] at moves
      refine ⟨moves, ?_⟩
      rintro _ ⟨⟩
      refine derived.moves.1.slotFrom_earlier binding.length (.inr ⟨Nat.le_of_eq isNew.symm, ?_⟩)
      rw [isNew, length_append]
      exact Nat.lt_succ_self _
  | @bound middle _ value vars derived simple fits binds =>
    have moves := derived.moves.1.trans binds.moves
    rw [append_nil] at moves
    refine ⟨moves, ?_⟩
    intro slot found
    rw [TypedStmt.valueSlot?_assign] at found
    · exact binds.moves.slotFrom_later (derived.slotFrom found)
    · rintro target rfl isStruct
      rw [binds.socket target mem_cons_self] at isStruct
      cases isStruct
  | out listed derived simple =>
    constructor
    · exact derived.moves.1.congr rfl rfl rfl rfl
    · intro slot found
      exact derived.slotFrom found

/-! ## Definitions and formulas -/

theorem DerivesBody.moves {checker after} (derived : DerivesBody checker stmts after) :
    ∃ passes bound, Moves checker passes bound after := by
  induction derived with
  | nil => exact ⟨[], [], .refl _⟩
  | cons head tail ih =>
    obtain ⟨passes, bound, moves⟩ := ih
    exact ⟨_, _, head.moves.1.trans moves⟩

theorem moves_definition {entered inner outputs}
    (binds : Binds { checker with vars := [] } vars types entered)
    (derived : DerivesBody (entered.entering outputs) stmts inner) (function : TypedFunction) :
    Moves checker [] [] (defining checker inner function) := by
  obtain ⟨_, _, bodyMoves⟩ := derived.moves
  have entering : Moves { checker with vars := [] } [] (vars.filterMap (·.map (·.id)))
      (entered.entering outputs) := binds.moves.congr rfl rfl rfl rfl
  have moves := entering.trans bodyMoves
  constructor
  · exact moves.length
  · intro slot inside
    refine (moves.types slot inside).trans (Pass.applyAll_of_not_mem ?_ _)
    rintro pass member rfl
    rcases moves.passed pass member with ⟨name, var, found, _⟩ | ⟨outside, _⟩
    · cases found
    · exact absurd inside (Nat.not_lt.2 outside)
  · exact moves.typed
  · exact nofun
  · intro name var found _
    exact ⟨var, found, rfl⟩
  · intro name var found
    exact .inl ⟨name, var, found, rfl⟩

theorem DerivesTop.moves {checker after} (derived : DerivesTop checker typed after) :
    Moves checker (typed.toList.flatMap (·.value.passes))
      (typed.toList.flatMap (·.assigned)) after ∧
      ∀ stmt ∈ typed, ∀ slot, stmt.valueSlot? = some slot → SlotFrom checker after slot := by
  cases derived with
  | @stmt after stmt derived =>
    obtain ⟨moves, slotFrom⟩ := derived.moves
    constructor
    · simpa using moves
    · rintro _ ⟨⟩
      exact slotFrom
  | definition binds derived => exact ⟨moves_definition binds derived _, nofun⟩

/-- Every variable and every recorded value has a slot, and every slot has a type. -/
structure Placed (checker : Checker) (recorded : List TypedStmt) : Prop where
  vars : ∀ {name : String} {var : TypedVar}, checker.vars.lookup name = some var →
    var.slot < checker.slots.length
  typed : ∀ {slot : Nat}, slot < checker.slots.length → checker.slots.typesAt slot ≠ []
  recorded : ∀ {stmt : TypedStmt} {slot : Nat}, stmt ∈ recorded →
    stmt.valueSlot? = some slot → slot < checker.slots.length

namespace Placed

theorem lt_of_slotFrom (placed : checker.Placed recorded)
    (longer : checker.slots.length ≤ after.slots.length) (slotFrom : SlotFrom checker after slot) :
    slot < after.slots.length := by
  rcases slotFrom with ⟨_, _, found, rfl⟩ | ⟨_, inside⟩
  · exact Nat.lt_of_lt_of_le (placed.vars found) longer
  · exact inside

theorem moves (placed : checker.Placed recorded) (moves : Moves checker passes bound after)
    (slotFrom : ∀ stmt ∈ more, ∀ slot, stmt.valueSlot? = some slot → SlotFrom checker after slot) :
    after.Placed (recorded ++ more) := by
  constructor
  · intro name var found
    exact placed.lt_of_slotFrom moves.length (moves.origin name var found)
  · intro slot inside
    by_cases isEarly : slot < checker.slots.length
    · rw [moves.types slot isEarly]
      exact Pass.applyAll_ne_nil (placed.typed isEarly) _ _
    · exact moves.typed slot (Nat.le_of_not_lt isEarly) inside
  · intro stmt slot member found
    rcases mem_append.1 member with before | isNew
    · exact Nat.lt_of_lt_of_le (placed.recorded before found) moves.length
    · exact placed.lt_of_slotFrom moves.length (slotFrom stmt isNew slot found)

end Placed

theorem Placed.congr {other : Checker} (placed : checker.Placed recorded)
    (sameVars : other.vars = checker.vars) (sameSlots : other.slots = checker.slots) :
    other.Placed recorded := by
  constructor
  · rw [sameVars, sameSlots]
    exact placed.vars
  · rw [sameSlots]
    exact placed.typed
  · rw [sameSlots]
    exact placed.recorded

theorem DerivesTop.body_eq (derived : DerivesTop checker typed after) :
    after.body = checker.body := by
  cases derived with
  | stmt derived =>
    obtain ⟨_, _, _, rfl⟩ := derived.frame
    rfl
  | definition binds derived =>
    obtain ⟨_, _, rfl⟩ := binds.frame
    obtain ⟨_, _, _, rfl⟩ := derived.frame
    rfl

theorem Reached.placed [Evaluator] (reached : checker.Reached recorded) :
    checker.Placed recorded := by
  induction reached with
  | start kind produced => exact ⟨nofun, nofun, nofun⟩
  | stmt reached checked placed =>
    obtain ⟨moves, slotFrom⟩ := (derives_checkStmt checked).moves
    refine (placed.moves moves ?_).congr rfl rfl
    intro stmt isNew
    exact slotFrom stmt (Option.mem_toList.1 isNew)
  | @enter checker after recorded _ outputs reached bound placed =>
    obtain ⟨vars, binds⟩ := binds_bindParams bound
    have placedOutside : Placed { checker with vars := [] } recorded :=
      ⟨nofun, placed.typed, placed.recorded⟩
    have placedInside : after.Placed (recorded ++ []) := placedOutside.moves binds.moves nofun
    rw [append_nil] at placedInside
    exact placedInside.congr rfl rfl
  | inner reached checked placed =>
    obtain ⟨moves, slotFrom⟩ := (derives_checkInner checked).moves
    refine placed.moves moves ?_
    intro stmt isNew
    cases mem_singleton.1 isNew
    exact slotFrom

theorem Reached.checkStmts [Evaluator] (reached : checker.Reached checker.body)
    (checked : checkStmts stmts checker = .ok () after) : after.Reached after.body := by
  induction stmts generalizing checker with
  | nil =>
    cases checked
    exact reached
  | cons stmt stmts ih =>
    obtain ⟨_, _, stmtChecked, remaining⟩ := checkStmts_cons_eq_ok checked
    have sameBody := (derives_checkStmt stmtChecked).body_eq
    have next := reached.stmt stmtChecked
    rw [← sameBody] at next
    exact ih next remaining

/-- A statement is accepted, of a formula or of the definition that is being checked. -/
def Accepts (checker : Checker) (stmt : Stmt) (typed : Option TypedStmt) (after : Checker) : Prop :=
  checkStmt stmt checker = .ok typed after ∨
    ∃ inner, typed = some inner ∧ checkInner stmt checker = .ok inner after

theorem Accepts.derives (accepted : checker.Accepts stmt typed after) :
    DerivesTop checker typed after := by
  rcases accepted with checked | ⟨inner, rfl, checked⟩
  · exact derives_checkStmt checked
  · exact .stmt (derives_checkInner checked)

def slotOf? (checker : Checker) (name : String) : Option Nat :=
  (checker.vars.lookup name).map (·.slot)

end Checker

/-! ## The types after a statement -/

def Stmt.assigned : Stmt → List String
  | .assign _ targets _ => (targets.map (·.map (·.id))).reduceOption
  | _ => []

namespace TypedStmt

def passesOf (typed : Option TypedStmt) : List Pass := typed.toList.flatMap (·.value.passes)

def valueTypes (slots : SlotTable) (stmt : TypedStmt) : List DataType :=
  (stmt.settle slots).value.info.types

variable (stmt : TypedStmt)

theorem valueTypes_of_none (unplaced : stmt.valueSlot? = none) :
    stmt.valueTypes slots = stmt.value.info.types := by
  rw [valueTypes, types_value_settle, unplaced]

theorem valueTypes_of_some (found : stmt.valueSlot? = some slot) :
    stmt.valueTypes slots = slots.typesAt slot := by
  rw [valueTypes, types_value_settle, found]

end TypedStmt

namespace Checker

theorem assigned_checkInner {typed}
    (checked : checkInner stmt checker = .ok typed after) : typed.assigned ⊆ stmt.assigned := by
  cases stmt with
  | expr value =>
    obtain ⟨expr, _, rfl⟩ := map_eq_ok checked
    exact nil_subset _
  | assign token targets value =>
    obtain ⟨expr, _, _, ⟨_, rfl, sameIds, _⟩ | ⟨_, rfl, _⟩⟩ := (derives_checkAssign checked).2
    · rw [Stmt.assigned, ← sameIds, reduceOption, filterMap_map]
      exact .refl _
    · exact nil_subset _
  | out token targets value =>
    obtain ⟨expr, _, ⟨rfl, _⟩ | rfl⟩ := (derives_checkOut checked).2 <;> exact nil_subset _
  | loop token counter start stop body => exact absurd checked stop_ne_ok
  | definition kind token name args body returns =>
    cases kind <;> exact absurd checked reject_ne_ok
  | missing => exact absurd checked stop_ne_ok

theorem Accepts.assigned (accepted : checker.Accepts stmt typed after) :
    typed.toList.flatMap (·.assigned) ⊆ stmt.assigned := by
  have inner {found : TypedStmt} (checked : checkInner stmt checker = .ok found after) :
      (some found).toList.flatMap (·.assigned) ⊆ stmt.assigned := by
    simpa using assigned_checkInner checked
  rcases accepted with checked | ⟨found, rfl, checked⟩
  · rcases checkStmt_eq_ok checked with ⟨_, _, _, _, _, _, _, rfl, _⟩ | ⟨found, rfl, innerChecked⟩
    · exact nil_subset _
    · exact inner innerChecked
  · exact inner checked

end Checker

/--
After an accepted statement every variable that it does not assign, and every value recorded before,
has the types from before, only with the first one replaced by the type of the parameter if a call
took the variable directly, by the last such call.
-/
theorem types_replaced_by_passing [Evaluator] {checker after : Checker} {recorded : List TypedStmt}
    (reached : checker.Reached recorded) {stmt : Stmt} {typed : Option TypedStmt}
    (accepted : checker.Accepts stmt typed after) :
    (∀ name slot, checker.slotOf? name = some slot → name ∉ stmt.assigned →
      after.slotOf? name = some slot ∧
      after.slots.typesAt slot =
        Pass.retype (Pass.last? (TypedStmt.passesOf typed) slot) (checker.slots.typesAt slot) ∧
      ((after.slots.typesAt slot).head? = (checker.slots.typesAt slot).head? ↔
        ∀ type, Pass.last? (TypedStmt.passesOf typed) slot = some type →
          (checker.slots.typesAt slot).head? = some type)) ∧
    (∀ earlier ∈ recorded,
      (earlier.valueSlot? = none →
        earlier.valueTypes after.slots = earlier.valueTypes checker.slots) ∧
      (∀ slot, earlier.valueSlot? = some slot →
        earlier.valueTypes after.slots =
          Pass.retype (Pass.last? (TypedStmt.passesOf typed) slot)
            (earlier.valueTypes checker.slots) ∧
        ((earlier.valueTypes after.slots).head? = (earlier.valueTypes checker.slots).head? ↔
          ∀ type, Pass.last? (TypedStmt.passesOf typed) slot = some type →
            (earlier.valueTypes checker.slots).head? = some type))) := by
  have placed := reached.placed
  have moves := accepted.derives.moves.1
  have retyped {slot : Nat} (inside : slot < checker.slots.length) :
      after.slots.typesAt slot =
        Pass.retype (Pass.last? (TypedStmt.passesOf typed) slot) (checker.slots.typesAt slot) := by
    rw [moves.types slot inside, Pass.applyAll_eq]
    rfl
  constructor
  · intro name slot found unassigned
    rcases Option.map_eq_some_iff.1 found with ⟨var, foundVar, rfl⟩
    have inside := placed.vars foundVar
    rcases moves.kept name var foundVar (fun member => unassigned (accepted.assigned member)) with
      ⟨later, foundLater, sameSlot⟩
    refine ⟨?_, retyped inside, ?_⟩
    · rw [Checker.slotOf?, foundLater, Option.map_some, sameSlot]
    · rw [retyped inside]
      exact Pass.head?_retype (placed.typed inside) _
  · intro earlier member
    constructor
    · intro unplaced
      rw [earlier.valueTypes_of_none unplaced, earlier.valueTypes_of_none unplaced]
    · intro slot found
      have inside := placed.recorded member found
      rw [earlier.valueTypes_of_some found, earlier.valueTypes_of_some found, retyped inside]
      exact ⟨rfl, Pass.head?_retype (placed.typed inside) _⟩

def Checker.lastStep [Evaluator] (source : String) :
    Option (Checker × Stmt × Option TypedStmt × Checker) :=
  match parse source with
  | .error _ => none
  | .ok parsed =>
    match checkStmts parsed.body.dropLast (.new .geometry []), parsed.body.getLast? with
    | .ok () checker, some stmt =>
      match checkStmt stmt checker with
      | .ok typed after => some (checker, stmt, typed, after)
      | .error _ _ => none
    | _, _ => none

theorem Checker.lastStep_eq_some [Evaluator]
    (found : lastStep source = some (checker, stmt, typed, after)) :
    checker.Reached checker.body ∧ checker.Accepts stmt typed after := by
  unfold lastStep at found
  split at found
  · cases found
  · split at found
    · rename_i started _
      split at found
      · rename_i checked
        cases found
        exact ⟨.checkStmts (.start .geometry .none) started, .inl checked⟩
      · cases found
    · cases found

/-- The call `sqrt(x);` makes the variable a float, and with it the value of `y = x;`. -/
theorem types_replaced_by_passing_root :
    ∃ checker stmt typed after earlier,
      Checker.lastStep "x = 10; y = x; sqrt(x);" = some (checker, stmt, typed, after) ∧
      checker.slotOf? "x" = some 0 ∧ checker.slots.typesAt 0 = [.int] ∧
      after.slots.typesAt 0 = [.float] ∧
      earlier ∈ checker.body ∧ earlier.valueSlot? = some 0 ∧
      earlier.valueTypes checker.slots = [.int] ∧ earlier.valueTypes after.slots = [.float] := by
  obtain ⟨⟨checker, stmt, typed, after⟩, found, slotted, isInt, unassigned, passed, listed⟩ :
      ∃ step, Checker.lastStep "x = 10; y = x; sqrt(x);" = some step ∧
      step.1.slotOf? "x" = some 0 ∧ step.1.slots.typesAt 0 = [.int] ∧ "x" ∉ step.2.1.assigned ∧
      Pass.last? (TypedStmt.passesOf step.2.2.1) 0 = some .float ∧
      some 0 ∈ step.1.body.map (·.valueSlot?) := by decide +kernel
  rcases List.mem_map.1 listed with ⟨earlier, member, ofSlot⟩
  have earlierInt : earlier.valueTypes checker.slots = [.int] := by
    rw [earlier.valueTypes_of_some ofSlot, isInt]
  rcases lastStep_eq_some found with ⟨reached, accepted⟩
  rcases types_replaced_by_passing reached accepted with ⟨ofVariable, ofRecorded⟩
  have isFloat := (ofVariable "x" 0 slotted unassigned).2.1
  have earlierFloat := ((ofRecorded earlier member).2 0 ofSlot).1
  rw [passed, isInt] at isFloat
  rw [passed, earlierInt] at earlierFloat
  exact ⟨checker, stmt, typed, after, earlier, found, slotted, isInt, isFloat, member, ofSlot,
    earlierInt, earlierFloat⟩

/-- In `x = 10; sqrt(x);` the call changes the type of the variable. -/
theorem reading_retypes :
    ∃ checker stmt typed after,
      Checker.lastStep "x = 10; sqrt(x);" = some (checker, stmt, typed, after) ∧
      checker.Reached checker.body ∧ checker.Accepts stmt typed after ∧ "x" ∉ stmt.assigned ∧
      checker.slotOf? "x" = some 0 ∧ after.slotOf? "x" = some 0 ∧
      checker.slots.typesAt 0 = [.int] ∧ after.slots.typesAt 0 = [.float] := by
  obtain ⟨⟨checker, stmt, typed, after⟩, found, types⟩ :
      ∃ step, Checker.lastStep "x = 10; sqrt(x);" = some step ∧ "x" ∉ step.2.1.assigned ∧
      step.1.slotOf? "x" = some 0 ∧ step.2.2.2.slotOf? "x" = some 0 ∧
      step.1.slots.typesAt 0 = [.int] ∧ step.2.2.2.slots.typesAt 0 = [.float] := by decide +kernel
  rcases lastStep_eq_some found with ⟨reached, accepted⟩
  exact ⟨checker, stmt, typed, after, found, reached, accepted, types⟩

end NodeFormula
