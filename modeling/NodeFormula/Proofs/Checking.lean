import NodeFormula.Proofs.Catalog
import NodeFormula.Proofs.Choosing
import NodeFormula.Proofs.Sequencing
import Mathlib.Data.List.Forall2

/-!
# What a successful check has done

Each lemma takes a step of the checker that succeeded and says what it found, answered and
changed.  A call is resolved to a candidate that takes at least as many arguments; the arguments
only get other types, and nothing but the types of variables changes on the way.
-/

namespace NodeFormula

open List TreeKind

variable {answer : α} {expr : TypedExpr}

namespace Checker

section Sequencing

variable {after : Checker}

theorem reject_ne_ok : reject message token checker ≠ .ok answer after := by
  intro done
  cases done

theorem stop_ne_ok : stop fault checker ≠ .ok answer after := by
  intro done
  cases done

/-- A check that is passed has found nothing wrong. -/
theorem unless_eq_ok {next : β → Check α} [Decidable wrong] {step : Check β}
    (fails : ∀ value middle, step checker ≠ .ok value middle)
    (done : (if wrong then step >>= next else other) checker = .ok answer after) :
    ¬wrong ∧ other checker = .ok answer after := by
  by_cases isWrong : wrong
  · rw [if_pos isWrong] at done
    obtain ⟨value, middle, failed, _⟩ := bind_eq_ok done
    exact absurd failed (fails value middle)
  · rw [if_neg isWrong] at done
    exact ⟨isWrong, done⟩

theorem orStop_eq_ok (done : orStop result checker = .ok answer after) :
    result = .ok answer ∧ after = checker := by
  cases result with
  | ok =>
    cases done
    exact ⟨rfl, rfl⟩
  | error => cases done

end Sequencing

end Checker

/-! ## Resolving calls -/

/-- The same expression with other types; a constant may have been converted. -/
inductive Retyped : TypedExpr → TypedExpr → Prop
  | const (info : TypeInfo) (types : List DataType) (value converted : Value) :
      Retyped (.const info value) (.const { info with types } converted)
  | var (var : TypedVar) : Retyped (.var var) (.var var)
  | nodeCall (info : TypeInfo) (types : List DataType) (recipe : NodeRecipe)
      (args : List TypedExpr) :
      Retyped (.nodeCall info recipe args) (.nodeCall { info with types } recipe args)
  | functionCall (info : TypeInfo) (types : List DataType) (function : TypedFunction)
      (args : List TypedExpr) :
      Retyped (.functionCall info function args) (.functionCall { info with types } function args)
  | output (info : TypeInfo) (types : List DataType) (value : TypedExpr) (index : Nat) :
      Retyped (.output info value index) (.output { info with types } value index)

namespace Retyped

theorem refl (expr : TypedExpr) : Retyped expr expr := by
  cases expr <;> constructor

theorem stack_eq {before after} (retyped : Retyped before after) :
    after.info.stack = before.info.stack := by
  cases retyped <;> rfl

theorem exists_of_mem (retyped : List.Forall₂ Retyped args passed) (member : arg ∈ passed) :
    ∃ original ∈ args, Retyped original arg := by
  induction retyped with
  | nil => cases member
  | cons head _ ih =>
    rcases mem_cons.mp member with rfl | later
    · exact ⟨_, mem_cons_self, head⟩
    · obtain ⟨original, listed, found⟩ := ih later
      exact ⟨original, mem_cons_of_mem _ listed, found⟩

end Retyped

/-- A constant has one type, and a constant vector has three components. -/
def TypedExpr.HasFormat (expr : TypedExpr) : Prop :=
  ∀ info value, expr = .const info value → ∃ type, info.types = [type] ∧
    (type = .vec3 → ∃ a b c, value = .vector [a, b, c])

namespace TypedExpr

theorem settle_stack (slots : SlotTable) (expr : TypedExpr) :
    (expr.settle slots).info.stack = expr.info.stack := by
  cases expr <;> rw [settle] <;> rfl

theorem settleAll_eq_map (slots : SlotTable) (exprs : List TypedExpr) :
    settleAll slots exprs = exprs.map (settle slots) := by
  induction exprs with
  | nil => rw [settleAll, map_nil]
  | cons _ _ ih => rw [settleAll, map_cons, ih]

theorem withTypes_stack (types : List DataType) (expr : TypedExpr) :
    (expr.withTypes types).info.stack = expr.info.stack := by
  cases expr <;> rfl

theorem HasFormat.settle (format : expr.HasFormat) (slots : SlotTable) :
    (expr.settle slots).HasFormat := by
  intro info value same
  cases expr with
  | const =>
    exact format info value same
  | _ =>
    cases same

end TypedExpr

theorem TypedStmt.settle_assign (vars : List (Option TypedVar)) (value : TypedExpr)
    (slots : SlotTable) : ∃ expr, (assign vars value).settle slots =
      .assign (vars.map (·.map (·.settle slots))) expr := by
  unfold settle
  split
  · rename_i same
    cases same
  · rename_i same
    cases same
    split <;> exact ⟨_, rfl⟩
  · rename_i same
    cases same
    exact ⟨_, rfl⟩
  · rename_i same
    cases same

theorem map_id_settle (slots : SlotTable) (vars : List (Option TypedVar)) :
    (vars.map (·.map (·.settle slots))).map (·.map (·.id)) = vars.map (·.map (·.id)) := by
  rw [map_map]
  refine map_congr_left fun var _ => ?_
  cases var <;> rfl

namespace SlotTable

/-- The slots after an argument was passed: that of a variable gets a new first type. -/
def pass (slots : SlotTable) (arg : TypedExpr) (type : DataType) : SlotTable :=
  match arg with
  | .var var => slots.modify var.slot (Checker.replaceFirst type)
  | _ => slots

def passAll : SlotTable → List TypedExpr → List DataType → SlotTable
  | slots, arg :: args, type :: types => passAll (slots.pass arg type) args types
  | slots, _, _ => slots

end SlotTable

namespace Checker

variable {name : String}

variable {after : Checker}

theorem typesOf_eq (checker : Checker) (expr : TypedExpr) :
    typesOf expr checker = .ok (checker.currentTypes expr) checker := rfl

theorem firstType_eq_ok (done : firstType expr checker = .ok type after) :
    after = checker ∧ ∃ rest, checker.currentTypes expr = type :: rest := by
  obtain ⟨types, _, read, answered⟩ := bind_eq_ok done
  rw [typesOf_eq] at read
  cases read
  cases types : checker.currentTypes expr with
  | nil =>
    rw [types] at answered
    exact absurd answered stop_ne_ok
  | cons _ rest =>
    rw [types] at answered
    cases answered
    exact ⟨rfl, rest, rfl⟩

theorem firstType_of_typed (typed : checker.currentTypes expr = type :: rest) :
    firstType expr checker = .ok type checker := by
  rw [firstType]
  simp only [Bind.bind, EStateM.bind, typesOf_eq, typed]
  rfl

/-- Each argument of a call that is resolved has a type. -/
theorem firstTypes_eq_ok (done : firstTypes args checker = .ok types after) :
    after = checker ∧ types.length = args.length ∧ ∀ arg ∈ args, checker.currentTypes arg ≠ [] := by
  induction args generalizing types after with
  | nil =>
    cases done
    exact ⟨rfl, rfl, by simp⟩
  | cons _ _ ih =>
    obtain ⟨_, _, head, remaining⟩ := bind_eq_ok done
    obtain ⟨rfl, _, headTypes⟩ := firstType_eq_ok head
    obtain ⟨_, _, tail, answered⟩ := bind_eq_ok remaining
    obtain ⟨rfl, sameLength, tailTypes⟩ := ih tail
    cases answered
    refine ⟨rfl, by rw [length_cons, length_cons, sameLength], ?_⟩
    intro other member
    rcases mem_cons.mp member with rfl | later
    · rw [headTypes]
      exact cons_ne_nil _ _
    · exact tailTypes other later

theorem passArg_eq_ok {arg passed}
    (done : passArg arg type checker = .ok passed after) :
    Retyped arg passed ∧ after = { checker with slots := checker.slots.pass arg type } := by
  cases arg with
  | const =>
    obtain ⟨_, _, first, remaining⟩ := bind_eq_ok done
    obtain ⟨rfl, _⟩ := firstType_eq_ok first
    obtain ⟨_, _, converting, answered⟩ := bind_eq_ok remaining
    obtain ⟨_, rfl⟩ := orStop_eq_ok converting
    cases answered
    exact ⟨.const .., rfl⟩
  | _ =>
    cases done
    exact ⟨by constructor, rfl⟩

theorem passArgs_eq_ok (done : passArgs args types checker = .ok passed after) :
    List.Forall₂ Retyped args passed ∧
      after = { checker with slots := checker.slots.passAll args types } := by
  induction args generalizing types checker passed after with
  | nil =>
    cases types <;> (cases done; exact ⟨.nil, rfl⟩)
  | cons _ _ ih =>
    cases types with
    | nil =>
      cases done
      exact ⟨forall₂_same.mpr fun expr _ => .refl expr, rfl⟩
    | cons =>
      obtain ⟨_, _, passedHead, remaining⟩ := bind_eq_ok done
      obtain ⟨headRetyped, rfl⟩ := passArg_eq_ok passedHead
      obtain ⟨_, _, passedTail, answered⟩ := bind_eq_ok remaining
      obtain ⟨tailRetyped, rfl⟩ := ih passedTail
      cases answered
      exact ⟨.cons headRetyped tailRetyped, rfl⟩

theorem resolve_of_known (known : checker.kind.candidates checker.functions name ≠ [])
    (args : List TypedExpr) :
    resolve name args checker =
      resolveAmong (checker.kind.candidates checker.functions name) name args checker := by
  rw [resolve, bind_get]
  cases listed : checker.kind.candidates checker.functions name with
  | nil => exact absurd listed known
  | cons => rfl

theorem outputAt_eq_ok {value}
    (done : outputAt attr value checker = .ok typed after) :
    after = checker ∧
      ∃ type, (checker.currentTypes value)[value.info.names.idxOf attr]? = some type ∧
      typed = .output ⟨.socket, [type], (componentNames type).getD []⟩ value
        (value.info.names.idxOf attr) := by
  obtain ⟨_, _, found, answered⟩ := bind_eq_ok done
  rw [typesOf_eq] at found
  cases found
  cases isAt : (checker.currentTypes value)[value.info.names.idxOf attr]? with
  | none =>
    simp only [isAt] at answered
    exact absurd answered stop_ne_ok
  | some type =>
    simp only [isAt] at answered
    cases answered
    exact ⟨rfl, type, rfl, rfl⟩

/-- What is read of a value is one of its outputs, or of its separated components. -/
theorem readOutput_eq_ok (done : readOutput expr attr token checker = .ok typed after) :
    outputAt attr expr checker = .ok typed after ∨ ∃ separated middle,
      call "sep_xyz" [expr] token checker = .ok separated middle ∧
        outputAt attr separated middle = .ok typed after := by
  obtain ⟨_, named⟩ := unless_eq_ok (fun _ _ => reject_ne_ok) done
  obtain ⟨_, choosing⟩ := unless_eq_ok (fun _ _ => reject_ne_ok) named
  split at choosing
  · obtain ⟨_, _, first, going⟩ := bind_eq_ok choosing
    obtain ⟨rfl, _, _⟩ := firstType_eq_ok first
    split at going
    · exact .inr (bind_eq_ok going)
    · exact absurd going stop_ne_ok
    · exact .inl going
  · exact .inl choosing

/-- A call is resolved among candidates by the first types of its arguments. -/
theorem resolve_steps (done : resolve name args checker = .ok (.ok (callable, passed)) after) :
    ∃ types, checker.kind.candidates checker.functions name ≠ [] ∧
      firstTypes args checker = .ok types checker ∧
      choose? (checker.kind.candidates checker.functions name) types = some callable ∧
      passArgs args callable.inputTypes checker = .ok passed after := by
  obtain ⟨_, _, read, remaining⟩ := bind_eq_ok done
  cases read
  cases listed : checker.kind.candidates checker.functions name with
  | nil =>
    rw [listed] at remaining
    cases remaining
  | cons first others =>
    rw [listed] at remaining
    obtain ⟨types, _, typed, choosing⟩ := bind_eq_ok remaining
    obtain rfl := (firstTypes_eq_ok typed).1
    cases chosen : choose? (first :: others) types with
    | none =>
      simp only [chosen] at choosing
      cases choosing
    | some =>
      simp only [chosen] at choosing
      obtain ⟨_, passing, ⟨⟩⟩ := map_eq_ok choosing
      exact ⟨types, cons_ne_nil _ _, typed, chosen, passing⟩

/-- A call that is accepted: it fits a candidate, and its arguments are retyped. -/
theorem call_eq_ok (done : call name args token checker = .ok expr after) :
    ∃ callable passed, expr = applied callable passed ∧
      after = { checker with slots := checker.slots.passAll args callable.inputTypes } ∧
      callable ∈ checker.kind.candidates checker.functions name ∧
      args.length ≤ callable.inputTypes.length ∧
      (∀ arg ∈ args, checker.currentTypes arg ≠ []) ∧ List.Forall₂ Retyped args passed := by
  obtain ⟨resolved, _, resolving, answered⟩ := bind_eq_ok done
  cases resolved with
  | error => exact absurd answered reject_ne_ok
  | ok found =>
    obtain ⟨callable, passed⟩ := found
    obtain ⟨_, _, typed, chosen, passing⟩ := resolve_steps resolving
    obtain ⟨_, sameLength, haveTypes⟩ := firstTypes_eq_ok typed
    obtain ⟨retyped, rfl⟩ := passArgs_eq_ok passing
    obtain ⟨member, fits⟩ := Callable.choose?_some chosen
    rw [sameLength] at fits
    cases answered
    exact ⟨callable, passed, rfl, rfl, member, fits, haveTypes, retyped⟩

/-! ## Expressions -/

theorem coerce_eq_ok {kind : TreeKind} (done : kind.coerce value type = .ok (.ok (coerced, kept))) :
    kept = type ∧ coerced = value ∨ kept = .float ∧ convert value type .float = .ok coerced := by
  cases kind with
  | geometry =>
    simp only [coerce] at done
    split_ifs at done
    · cases done
    · cases done
      exact .inl ⟨rfl, rfl⟩
  | shader =>
    simp only [coerce] at done
    split_ifs at done
    · cases done
    · cases converted : convert value type .float with
      | error =>
        rw [converted] at done
        cases done
      | ok =>
        rw [converted] at done
        cases done
        exact .inr ⟨rfl, rfl⟩
    · cases done
      exact .inl ⟨rfl, rfl⟩

theorem constant_eq_ok (done : constant token value type checker = .ok expr after) :
    ∃ coerced kept, checker.kind.coerce value type = .ok (.ok (coerced, kept)) ∧
      expr = .const ⟨.value, [kept], []⟩ coerced ∧ after = checker := by
  obtain ⟨_, _, read, remaining⟩ := bind_eq_ok done
  cases read
  obtain ⟨result, _, coercing, answered⟩ := bind_eq_ok remaining
  obtain ⟨coerced, rfl⟩ := orStop_eq_ok coercing
  cases result with
  | error => exact absurd answered reject_ne_ok
  | ok pair =>
    cases answered
    exact ⟨pair.1, pair.2, coerced, rfl, rfl⟩

theorem component_eq_ok (done : component value type checker = .ok scalar after) :
    after = checker := by
  obtain ⟨converted, _, converting, answered⟩ := bind_eq_ok done
  obtain ⟨_, rfl⟩ := orStop_eq_ok converting
  cases converted <;> (cases answered; rfl)

theorem components_eq_ok {first second third : Literal} (done : (do
      let x ← component first.value first.type
      let y ← component second.value second.type
      let z ← component third.value third.type
      return TypedExpr.const ⟨.value, [.vec3], ["x", "y", "z"]⟩ (.vector [x, y, z]) :
        Check TypedExpr) checker = .ok typed after) :
    ∃ a b c, typed = .const ⟨.value, [.vec3], ["x", "y", "z"]⟩ (.vector [a, b, c]) ∧
      after = checker := by
  obtain ⟨a, _, xDone, remaining⟩ := bind_eq_ok done
  obtain rfl := component_eq_ok xDone
  obtain ⟨b, _, yDone, ending⟩ := bind_eq_ok remaining
  obtain rfl := component_eq_ok yDone
  obtain ⟨c, _, zDone, answered⟩ := bind_eq_ok ending
  obtain rfl := component_eq_ok zDone
  cases answered
  exact ⟨a, b, c, rfl, rfl⟩

def isNumber : TypedExpr → Bool
  | .const info value => (info.types == [.float] || info.types == [.int]) && (negated? value).isSome
  | _ => false

/-- A number is negated in place; anything else is multiplied. -/
theorem negate_cases (expr : TypedExpr) (token : Token) :
    (∃ info value opposite type, expr = .const info value ∧ info.types = [type] ∧
      (type = .float ∨ type = .int) ∧ negated? value = some opposite ∧
      negate expr token = pure (.const info opposite)) ∨
    isNumber expr = false ∧ negate expr token = call "mul" [minusOne, expr] token := by
  cases expr with
  | const info value =>
    unfold negate
    simp only
    split
    · exact .inl ⟨info, value, _, .float, rfl, ‹_›, .inl rfl, ‹_›, rfl⟩
    · exact .inl ⟨info, value, _, .int, rfl, ‹_›, .inr rfl, ‹_›, rfl⟩
    · rename_i noFloat noInt
      refine .inr ⟨?_, rfl⟩
      cases negating : negated? value with
      | none => simp [isNumber, negating]
      | some opposite =>
        have isFloat : info.types ≠ [.float] := fun same => noFloat opposite same negating
        have isInt : info.types ≠ [.int] := fun same => noInt opposite same negating
        simp [isNumber, isFloat, isInt]
  | _ => exact .inr ⟨rfl, rfl⟩

theorem negate_eq_ok (done : negate expr token checker = .ok negated after) :
    (∃ info value opposite type, expr = .const info value ∧ negated = .const info opposite ∧
      info.types = [type] ∧ (type = .float ∨ type = .int) ∧ negated? value = some opposite ∧
      after = checker) ∨ call "mul" [minusOne, expr] token checker = .ok negated after := by
  rcases negate_cases expr token with
    ⟨info, value, opposite, type, rfl, types, number, negating, same⟩ | ⟨_, same⟩
  · rw [same] at done
    cases done
    exact .inl ⟨info, value, opposite, type, rfl, rfl, types, number, negating, rfl⟩
  · exact .inr (same ▸ done)

theorem checkExprs_nil (checker : Checker) : checkExprs [] checker = .ok [] checker := by
  rfl

theorem checkExprs_cons_eq_ok {expr typed}
    (done : checkExprs (expr :: exprs) checker = .ok typed after) :
    ∃ head middle tail, checkExpr expr checker = .ok head middle ∧
      checkExprs exprs middle = .ok tail after ∧ typed = head :: tail := by
  obtain ⟨head, middle, headDone, remaining⟩ := bind_eq_ok done
  obtain ⟨tail, tailDone, rfl⟩ := map_eq_ok remaining
  exact ⟨head, middle, tail, headDone, tailDone, rfl⟩

theorem length_checkExprs (done : checkExprs exprs checker = .ok typed after) :
    typed.length = exprs.length := by
  induction exprs generalizing checker typed with
  | nil =>
    cases (checkExprs_nil checker).symm.trans done
    rfl
  | cons _ _ ih =>
    obtain ⟨_, _, _, _, rest, rfl⟩ := checkExprs_cons_eq_ok done
    rw [length_cons, length_cons, ih rest]

end Checker

/-! ## Operands -/

namespace Expr

/-- The expressions that are checked before an expression is finished. -/
def operands : Expr → List Expr
  | .vec3 _ (.constant _ _) (.constant _ _) (.constant _ _) => []
  | .vec3 _ x y z => [x, y, z]
  | .unary _ _ operand => [operand]
  | .binary _ left _ right => [left, right]
  | .member _ value _ => [value]
  | .call _ _ _ args _ => args
  | .method _ _ receiver _ args _ => receiver :: args
  | _ => []

def hasKeywords : Expr → Bool
  | .call _ _ _ _ keywords | .method _ _ _ _ _ keywords => !keywords.isEmpty
  | _ => false

theorem sizeOf_operand {expr operand : Expr} (member : operand ∈ expr.operands) :
    sizeOf operand < sizeOf expr := by
  unfold operands at member
  split at member
  · cases member
  · simp only [mem_cons, not_mem_nil, or_false] at member
    rcases member with rfl | rfl | rfl <;> simp only [vec3.sizeOf_spec] <;> omega
  · simp only [mem_singleton.mp member, unary.sizeOf_spec]
    omega
  · simp only [mem_cons, not_mem_nil, or_false] at member
    rcases member with rfl | rfl <;> simp only [binary.sizeOf_spec] <;> omega
  · simp only [mem_singleton.mp member, Expr.member.sizeOf_spec]
    omega
  · have := sizeOf_lt_of_mem member
    simp only [call.sizeOf_spec]
    omega
  · simp only [method.sizeOf_spec]
    rcases mem_cons.mp member with rfl | later
    · omega
    · have := sizeOf_lt_of_mem later
      omega
  · cases member

/-- Induction over an expression by way of its operands. -/
theorem induction_operands {motive : Expr → Prop}
    (step : ∀ expr, (∀ operand ∈ expr.operands, motive operand) → motive expr) (expr : Expr) :
    motive expr :=
  step expr fun operand member =>
    have := sizeOf_operand member
    induction_operands step operand
termination_by sizeOf expr

end Expr

namespace Checker

variable {after : Checker}

/-- An expression is checked after its operands, if it has no keywords. -/
theorem checkExpr_eq (expr : Expr) : checkExpr expr =
    if expr.hasKeywords then stop (.notSupported "") else checkExprs expr.operands >>=
      finish expr := by
  unfold checkExpr Expr.operands
  split
  -- Only calls have keywords.
  case h_6 keywords | h_7 keywords =>
    simp only [checkExprs, bind_assoc, pure_bind]
    cases keywords <;> rfl
  all_goals simp [Expr.hasKeywords, checkExprs]

theorem checkExpr_eq_ok {expr} (done : checkExpr expr checker = .ok typed after) :
    ∃ args middle, checkExprs expr.operands checker = .ok args middle ∧
      finish expr args middle = .ok typed after := by
  rw [checkExpr_eq] at done
  split at done
  · exact absurd done stop_ne_ok
  · exact bind_eq_ok done

theorem structSlot_eq_ok (done : structSlot expr checker = .ok slot after) :
    ∃ slots, after = { checker with slots } := by
  cases expr <;> (cases done; exact ⟨_, rfl⟩)

theorem checkStmts_cons_eq_ok (done : checkStmts (stmt :: stmts) checker = .ok () after) :
    ∃ answer middle, checkStmt stmt checker = .ok answer middle ∧
      checkStmts stmts { middle with body := middle.body ++ answer.toList } = .ok () after := by
  obtain ⟨answer, middle, first, remaining⟩ := bind_eq_ok done
  obtain ⟨_, _, modified, rest⟩ := bind_eq_ok remaining
  cases modified
  exact ⟨answer, middle, first, rest⟩

end Checker

end NodeFormula
