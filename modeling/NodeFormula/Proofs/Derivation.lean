import NodeFormula.Proofs.Checking

/-!
# What checking can do

The steps of checking are the rules of relations between a state, the typed expression or
statement that is made in it, and the state afterwards.  Whatever holds of checked formulas
follows by induction on these relations.
-/

namespace NodeFormula

open List

variable {after : Checker}

namespace Checker

mutual

/-- What checking an expression can give. -/
inductive Derives : Checker → TypedExpr → Checker → Prop
  | const {checker info value} (isValue : info.stack = .value)
      (format : TypedExpr.HasFormat (.const info value)) :
      Derives checker (.const info value) checker
  | unknown {checker id var}
      (unseen : checker.vars.lookup id = none)
      (isNew : var = ⟨⟨.socket, [.unknown], []⟩, checker.slots.length, id, true⟩) :
      Derives checker (.var var) { checker with
        slots := checker.slots ++ [[.unknown]]
        vars := Table.insert id var checker.vars }
  | known {checker id var}
      (found : checker.vars.lookup id = some var) (isOld : var.isFresh = false) :
      Derives checker (.var var) checker
  | created {checker id var}
      (found : checker.vars.lookup id = some var) :
      Derives checker (.var { var with isFresh := false }) { checker with
        vars := Table.insert id { var with isFresh := false } checker.vars }
  | call {checker middle name args passed callable expr} (operands : DerivesAll checker args middle)
      (listed : callable ∈ middle.kind.candidates middle.functions name)
      (fits : args.length ≤ callable.inputTypes.length)
      (typed : ∀ arg ∈ args, middle.currentTypes arg ≠ [])
      (retyped : List.Forall₂ Retyped args passed) (isCall : expr = applied callable passed) :
      Derives checker expr { middle with
        slots := middle.slots.passAll args callable.inputTypes }
  | output {checker after value type names index} (operand : Derives checker value after)
      (found : (after.currentTypes value)[index]? = some type) :
      Derives checker (.output ⟨.socket, [type], names⟩ value index) after

inductive DerivesAll : Checker → List TypedExpr → Checker → Prop
  | nil {checker} : DerivesAll checker [] checker
  | cons {checker middle after expr exprs}
      (head : Derives checker expr middle) (tail : DerivesAll middle exprs after) :
      DerivesAll checker (expr :: exprs) after

end

/-- How the named targets of an assignment come into scope. -/
inductive Binds : Checker → List (Option TypedVar) → List DataType → Checker → Prop
  | nil {checker types} : Binds checker [] types checker
  | skip {checker after vars types}
      (others : Binds checker vars (types.drop 1) after) : Binds checker (none :: vars) types after
  | bind {checker after vars type types id var}
      (isNew : var = ⟨⟨.socket, [type], []⟩, checker.slots.length, id, false⟩)
      (others : Binds { checker with
        slots := checker.slots ++ [[type]]
        vars := Table.insert id var checker.vars } vars types after) :
      Binds checker (some var :: vars) (type :: types) after

/-- What checking a statement of a function body can give. -/
inductive DerivesStmt : Checker → TypedStmt → Checker → Prop
  | expr {checker after : Checker} {used : List Bool} {value : TypedExpr}
      (derived : Derives { checker with used } value after) :
        DerivesStmt checker (.expr value) after
  | divided {checker middle after : Checker} {value : TypedExpr} {vars : List (Option TypedVar)}
      {type : DataType} {types : List DataType} {count : Nat}
      (derived : Derives checker value middle) (several : 1 < vars.length)
      (noStruct : value.info.stack ≠ .struct) (typed : middle.currentTypes value = type :: types)
      (counted : componentCount type = some count) (fits : vars.length ≤ count)
      (binds : Binds middle vars (List.replicate count .float) after) :
      DerivesStmt checker (.assign vars value) after
  | whole {checker middle after : Checker} {value : TypedExpr} {slot : Nat} {id : String}
      {var : TypedVar} (derived : Derives checker value middle)
      (isStruct : value.info.stack = .struct) (slotted : structSlot value middle = .ok slot after)
      (isVar : var = ⟨⟨.struct, after.currentTypes value, value.info.names⟩, slot, id, false⟩) :
      DerivesStmt checker (.assign [some var] value) { after with
        vars := Table.insert id var after.vars }
  | bound {checker middle after : Checker} {value : TypedExpr} {vars : List (Option TypedVar)}
      (derived : Derives checker value middle)
      (simple : vars.length ≤ 1 ∨ value.info.stack = .struct)
      (fits : vars.length ≤ (middle.currentTypes value).length)
      (binds : Binds middle vars (middle.currentTypes value) after) :
      DerivesStmt checker (.assign vars value) after
  | out {checker after : Checker} {used : List Bool} {value : TypedExpr}
      {indices : List (Option Nat)}
      (listed : ∀ index, some index ∈ indices → index < checker.outputs.length)
      (derived : Derives { checker with used } value after)
      (simple : indices.length ≤ 1 ∨ value.info.stack = .struct) :
      DerivesStmt checker (.out indices value) after

inductive DerivesBody : Checker → List TypedStmt → Checker → Prop
  | nil {checker} : DerivesBody checker [] checker
  | cons {checker middle after stmt stmts}
      (head : DerivesStmt checker stmt middle) (tail : DerivesBody middle stmts after) :
      DerivesBody checker (stmt :: stmts) after

/-- What checking a statement of a formula can give. -/
inductive DerivesTop : Checker → Option TypedStmt → Checker → Prop
  | stmt {checker after stmt} (derived : DerivesStmt checker stmt after) :
      DerivesTop checker (some stmt) after
  | definition {checker entered inner vars inputs outputs stmts isGroup name}
      (binds : Binds { checker with vars := [] } vars (inputs.map (·.type)) entered)
      (derived : DerivesBody (entered.entering outputs) stmts inner) :
      DerivesTop checker none (defining checker inner
        (.mk inputs outputs (stmts.map (TypedStmt.settle inner.slots)) inner.used isGroup name))

theorem Derives.of_const (derived : Derives checker (.const info value) after) :
    after = checker ∧ info.stack = .value ∧ TypedExpr.HasFormat (.const info value) := by
  cases derived with
  | const isValue format => exact ⟨rfl, isValue, format⟩
  | @call _ _ _ _ _ callable _ _ _ _ _ _ isCall => cases callable <;> cases isCall

theorem Derives.hasFormat (derived : Derives checker expr after) : expr.HasFormat := by
  rintro info value rfl
  exact derived.of_const.2.2 info value rfl

/-! ## Expressions -/

section Expressions

theorem derives_call (operands : DerivesAll checker args middle)
    (done : call name args token middle = .ok expr after) : Derives checker expr after := by
  obtain ⟨_, _, isCall, rfl, listed, fits, typed, retyped⟩ := call_eq_ok done
  exact .call operands listed fits typed retyped isCall

theorem derives_constant (noVector : type ≠ .vec3)
    (done : constant token value type checker = .ok expr after) : Derives checker expr after := by
  obtain ⟨_, kept, coercing, rfl, rfl⟩ := constant_eq_ok done
  refine .const rfl ?_
  intro _ _ same
  cases same
  refine ⟨kept, rfl, ?_⟩
  rintro rfl
  rcases coerce_eq_ok coercing with same | isFloat
  · exact absurd same.1.symm noVector
  · cases isFloat.1

theorem derives_useName {id} (done : useName id checker = .ok expr after) :
    Derives checker expr after ∧ ∃ var, expr = .var var := by
  obtain ⟨_, _, read, remaining⟩ := bind_eq_ok done
  cases read
  cases found : checker.vars.lookup id with
  | none =>
    simp only [found] at remaining
    cases remaining
    exact ⟨.unknown found rfl, _, rfl⟩
  | some var =>
    simp only [found] at remaining
    split at remaining
    · cases remaining
      exact ⟨.created found, _, rfl⟩
    · cases remaining
      exact ⟨.known found (by simpa using ‹¬var.isFresh = true›), _, rfl⟩

theorem derives_negate (operand : Derives checker expr middle)
    (done : negate expr token middle = .ok negated after) : Derives checker negated after := by
  rcases negate_eq_ok done with ⟨_, _, _, type, rfl, rfl, types, number, _, rfl⟩ | times
  · obtain ⟨rfl, isValue, _⟩ := operand.of_const
    refine .const isValue ?_
    rintro _ _ ⟨⟩
    exact ⟨type, types, by rcases number with rfl | rfl <;> nofun⟩
  · have factor : Derives checker minusOne checker := by
      refine .const rfl ?_
      rintro _ _ ⟨⟩
      exact ⟨.int, rfl, nofun⟩
    exact derives_call (.cons factor (.cons operand .nil)) times

theorem derives_readOutput (operand : Derives checker expr middle)
    (done : readOutput expr attr token middle = .ok typed after) : Derives checker typed after := by
  have reading {value : TypedExpr} {state : Checker} (derived : Derives checker value state)
      (read : outputAt attr value state = .ok typed after) : Derives checker typed after := by
    obtain ⟨rfl, _, isAt, rfl⟩ := outputAt_eq_ok read
    exact .output derived isAt
  obtain read | ⟨_, _, called, read⟩ := readOutput_eq_ok done
  · exact reading operand read
  · exact reading (derives_call (.cons operand .nil) called) read

theorem derivesAll_of_each
    (each : ∀ expr ∈ exprs, ∀ {checker after typed},
      checkExpr expr checker = .ok typed after → Derives checker typed after)
    (done : checkExprs exprs checker = .ok typed after) : DerivesAll checker typed after := by
  induction exprs generalizing checker typed with
  | nil =>
    cases (checkExprs_nil checker).symm.trans done
    exact .nil
  | cons expr _ ih =>
    obtain ⟨_, _, _, headDone, tailDone, rfl⟩ := checkExprs_cons_eq_ok done
    exact .cons (each expr mem_cons_self headDone)
      (ih (fun other member => each other (mem_cons_of_mem _ member)) tailDone)

theorem derives_checkExpr {expr} (done : checkExpr expr checker = .ok typed after) :
    Derives checker typed after := by
  induction expr using Expr.induction_operands generalizing checker after typed with
  | step _ ih =>
    obtain ⟨_, _, argsDone, finished⟩ := checkExpr_eq_ok done
    have operands := derivesAll_of_each (fun operand member => ih operand member) argsDone
    unfold finish at finished
    split at finished
    · cases (checkExprs_nil checker).symm.trans argsDone
      refine derives_constant ?_ finished
      cases ‹Literal› <;> exact nofun
    · cases (checkExprs_nil checker).symm.trans argsDone
      exact derives_constant (by decide) finished
    · cases (checkExprs_nil checker).symm.trans argsDone
      obtain ⟨a, b, c, rfl, rfl⟩ := components_eq_ok finished
      refine .const rfl ?_
      rintro _ _ ⟨⟩
      exact ⟨.vec3, rfl, fun _ => ⟨a, b, c, rfl⟩⟩
    · exact derives_call operands (unless_eq_ok (fun _ _ => reject_ne_ok) finished).2
    · cases (checkExprs_nil checker).symm.trans argsDone
      exact (derives_useName finished).1
    · obtain ⟨_, answered⟩ := unless_eq_ok (fun _ _ => reject_ne_ok) finished
      cases operands with
      | cons operand none =>
        cases none
        split at answered
        · exact derives_call (.cons operand .nil) answered
        · exact derives_negate operand answered
    · exact derives_call operands (unless_eq_ok (fun _ _ => reject_ne_ok) finished).2
    · cases operands with
      | cons operand none =>
        cases none
        exact derives_readOutput operand finished
    · exact absurd finished stop_ne_ok
    · exact derives_call operands finished
    · exact derives_call operands finished
    · exact absurd finished stop_ne_ok

end Expressions

/-! ## Statements -/

section Statements

theorem binds_bindTargets {vars}
    (done : bindTargets targets types checker = .ok vars after) :
    Binds checker vars types after ∧ vars.map (·.map (·.id)) = targets.map (·.map (·.id)) ∧
      vars.length = targets.length := by
  suffices Binds checker vars types after ∧
      vars.map (·.map (·.id)) = targets.map (·.map (·.id)) from
    ⟨this.1, this.2, by simpa using congrArg List.length this.2⟩
  induction targets generalizing types checker vars with
  | nil =>
    cases done
    exact ⟨.nil, rfl⟩
  | cons target _ ih =>
    cases target with
    | none =>
      obtain ⟨_, othersDone, rfl⟩ := map_eq_ok done
      obtain ⟨binds, sameIds⟩ := ih othersDone
      exact ⟨.skip binds, by rw [map_cons, sameIds]; rfl⟩
    | some =>
      cases types with
      | nil =>
        exact absurd done stop_ne_ok
      | cons =>
        obtain ⟨_, _, slotted, remaining⟩ := bind_eq_ok done
        cases slotted
        obtain ⟨_, _, bound, ending⟩ := bind_eq_ok remaining
        cases bound
        obtain ⟨_, othersDone, rfl⟩ := map_eq_ok ending
        obtain ⟨binds, sameIds⟩ := ih othersDone
        exact ⟨.bind rfl binds, by rw [map_cons, sameIds]; rfl⟩

theorem componentTypes_eq_ok (done : componentTypes token expr checker = .ok parts after) :
    after = checker ∧ ∃ type types count, checker.currentTypes expr = type :: types ∧
      componentCount type = some count ∧ parts = List.replicate count .float := by
  obtain ⟨type, _, first, counting⟩ := bind_eq_ok done
  obtain ⟨rfl, types, typed⟩ := firstType_eq_ok first
  cases counted : componentCount type with
  | none =>
    simp only [counted] at counting
    exact absurd counting reject_ne_ok
  | some count =>
    simp only [counted] at counting
    cases counting
    exact ⟨rfl, type, types, count, typed, counted, rfl⟩

/-- There are enough types for the targets: those of the value, or of its components. -/
theorem targetTypes_eq_ok (done : targetTypes token targets expr checker = .ok types after) :
    after = checker ∧ targets.length ≤ types.length ∧
      ((1 < targets.length ∧ expr.info.stack ≠ .struct ∧ ∃ type others count,
        checker.currentTypes expr = type :: others ∧ componentCount type = some count ∧
        types = List.replicate count .float) ∨
      (targets.length ≤ 1 ∨ expr.info.stack = .struct) ∧ types = checker.currentTypes expr) := by
  obtain ⟨_, _, typing, fitting⟩ := bind_eq_ok done
  obtain ⟨fits, answered⟩ := unless_eq_ok (fun _ _ => reject_ne_ok) fitting
  cases answered
  split at typing
  · rename_i several
    simp only [isDivided, Bool.and_eq_true, decide_eq_true_eq] at several
    obtain ⟨rfl, parts⟩ := componentTypes_eq_ok typing
    exact ⟨rfl, Nat.le_of_not_lt fits, .inl ⟨several.1, several.2, parts⟩⟩
  · rename_i single
    simp only [isDivided, Bool.and_eq_true, decide_eq_true_eq, not_and_or, Nat.not_lt,
      not_not] at single
    rw [typesOf_eq] at typing
    cases typing
    exact ⟨rfl, Nat.le_of_not_lt fits, .inr ⟨single, rfl⟩⟩

/--
An assignment binds its targets, unless it has one that is not named; a struct is bound as a whole.
-/
theorem derives_checkAssign (done : checkAssign token targets value checker = .ok typed after) :
    DerivesStmt checker typed after ∧ ∃ expr middle, checkExpr value checker = .ok expr middle ∧
      ((∃ vars, typed = .assign vars expr ∧
        vars.map (·.map (·.id)) = targets.map (·.map (·.id)) ∧
        (expr.info.stack = .struct → ∀ var, vars = [some var] → var.info.stack = .struct)) ∨
      targets = [none] ∧ typed = .expr expr ∧ after = middle) := by
  obtain ⟨expr, middle, checked, remaining⟩ := bind_eq_ok done
  have derived := derives_checkExpr checked
  refine (fun found => ⟨found.1, expr, middle, checked, found.2⟩ : _ ∧ _ → _) ?_
  generalize isStack : expr.info.stack = stack at remaining
  split at remaining
  · exact absurd remaining reject_ne_ok
  · cases remaining
    exact ⟨.expr derived, .inr ⟨rfl, rfl, rfl⟩⟩
  · obtain ⟨_, _, slotted, typing⟩ := bind_eq_ok remaining
    obtain ⟨_, _, read, binding⟩ := bind_eq_ok typing
    rw [typesOf_eq] at read
    cases read
    cases binding
    refine ⟨.whole derived isStack slotted rfl, .inl ⟨_, rfl, rfl, ?_⟩⟩
    rintro _ _ ⟨⟩
    rfl
  · rename_i notWhole
    obtain ⟨types, _, typing, binding⟩ := bind_eq_ok remaining
    obtain ⟨rfl, fits, parts⟩ := targetTypes_eq_ok typing
    obtain ⟨vars, bound, rfl⟩ := map_eq_ok binding
    obtain ⟨binds, sameIds, sameLength⟩ := binds_bindTargets bound
    rw [← sameLength] at fits parts
    refine ⟨?_, .inl ⟨vars, rfl, sameIds, ?_⟩⟩
    · rcases parts with ⟨several, noStruct, _, _, _, typed, counted, rfl⟩ | ⟨simple, rfl⟩
      · rw [length_replicate] at fits
        exact .divided derived several noStruct typed counted fits binds
      · exact .bound derived simple fits binds
    · rintro isStruct _ rfl
      obtain ⟨_, rfl, sameId⟩ := map_eq_singleton_iff.1 sameIds.symm
      obtain ⟨target, rfl, _⟩ := Option.map_eq_some_iff.1 sameId
      exact absurd isStruct (notWhole target rfl)

def placesOf (outputs : List Binding) (targets : List (Option Target)) : List (Option Nat) :=
  targets.map (·.bind fun target => outputs.findIdx? (·.name == target.id))

def mark (used : List Bool) (places : List (Option Nat)) : List Bool :=
  places.reduceOption.foldl (·.set · true) used

theorem lt_of_mem_placesOf {outputs : List Binding}
    (named : some index ∈ placesOf outputs targets) : index < outputs.length := by
  obtain ⟨target, _, found⟩ := mem_map.1 named
  obtain ⟨_, rfl, found⟩ := Option.bind_eq_some_iff.1 found
  exact (findIdx?_eq_some_iff_getElem.1 found).1

theorem outIndices_eq_ok (done : outIndices targets checker = .ok indices after) :
    indices = placesOf checker.outputs targets ∧
      after = { checker with used := mark checker.used indices } := by
  induction targets generalizing checker indices with
  | nil =>
    cases done
    exact ⟨rfl, rfl⟩
  | cons target targets ih =>
    cases target with
    | none =>
      obtain ⟨_, othersDone, rfl⟩ := map_eq_ok done
      obtain ⟨rfl, rfl⟩ := ih othersDone
      exact ⟨rfl, rfl⟩
    | some target =>
      obtain ⟨_, _, read, finding⟩ := bind_eq_ok done
      cases read
      cases found : checker.outputs.findIdx? (·.name == target.id) with
      | none =>
        simp only [found] at finding
        exact absurd finding reject_ne_ok
      | some =>
        simp only [found] at finding
        obtain ⟨_, _, set_, remaining⟩ := bind_eq_ok finding
        cases set_
        obtain ⟨_, othersDone, rfl⟩ := map_eq_ok remaining
        obtain ⟨rfl, rfl⟩ := ih othersDone
        exact ⟨congrArg (· :: placesOf checker.outputs targets) found.symm, rfl⟩

theorem checkOutTypes_eq_ok {outputs : List Binding}
    (done : checkOutTypes outputs targets indices types checker = .ok () after) :
    after = checker := by
  fun_induction checkOutTypes outputs targets indices types with
  | case1 _ _ _ _ _ _ _ ih | case3 _ _ _ _ _ _ _ _ _ _ ih | case4 _ _ _ _ _ _ _ ih => exact ih done
  | case2 =>
    obtain ⟨_, _, rejected, _⟩ := bind_eq_ok done
    exact absurd rejected reject_ne_ok
  | case5 =>
    cases done
    rfl

theorem derives_checkOut (done : checkOut token targets value checker = .ok typed after) :
    DerivesStmt checker typed after ∧ ∃ expr, checkExpr value { checker with
        used := mark checker.used (placesOf checker.outputs targets) } = .ok expr after ∧
      ((typed = .expr expr ∧ 1 < targets.length ∧ expr.info.stack ≠ .struct) ∨
        typed = .out (placesOf checker.outputs targets) expr) := by
  obtain ⟨_, _, indicesDone, remaining⟩ := bind_eq_ok done
  obtain ⟨rfl, rfl⟩ := outIndices_eq_ok indicesDone
  obtain ⟨expr, middle, checked, going⟩ := bind_eq_ok remaining
  have derived := derives_checkExpr checked
  obtain ⟨state, last, read, choosing⟩ := bind_eq_ok going
  cases read
  obtain ⟨_, going⟩ := unless_eq_ok (fun _ _ => reject_ne_ok) choosing
  obtain ⟨_, _, typing, converting⟩ := bind_eq_ok going
  obtain ⟨rfl, _, parts⟩ := targetTypes_eq_ok typing
  obtain ⟨_, _, converted, answered⟩ := bind_eq_ok converting
  obtain rfl := checkOutTypes_eq_ok converted
  cases answered
  rcases parts with ⟨several, noStruct, _⟩ | ⟨simple, _⟩
  · rw [if_pos (by simp [isDivided, several, noStruct])]
    exact ⟨.expr derived, expr, checked, .inl ⟨rfl, several, noStruct⟩⟩
  · rw [if_neg (by simpa [isDivided, or_iff_not_imp_left] using simple)]
    have listed : (placesOf checker.outputs targets).length = targets.length := length_map ..
    rw [← listed] at simple
    exact ⟨.out (fun _ => lt_of_mem_placesOf) derived simple, expr, checked, .inr rfl⟩

theorem derives_checkInner (done : checkInner stmt checker = .ok typed after) :
    DerivesStmt checker typed after := by
  cases stmt with
  | expr =>
    obtain ⟨expr, checked, rfl⟩ := map_eq_ok done
    exact .expr (derives_checkExpr checked)
  | assign => exact (derives_checkAssign done).1
  | out => exact (derives_checkOut done).1
  | loop => exact absurd done stop_ne_ok
  | definition kind =>
    cases kind <;> exact absurd done reject_ne_ok
  | missing => exact absurd done stop_ne_ok

theorem derives_checkBody {typed}
    (done : checkBody stmts checker = .ok typed after) : DerivesBody checker typed after := by
  induction stmts generalizing checker typed with
  | nil =>
    cases done
    exact .nil
  | cons _ _ ih =>
    obtain ⟨_, _, headDone, remaining⟩ := bind_eq_ok done
    obtain ⟨_, tailDone, rfl⟩ := map_eq_ok remaining
    exact .cons (derives_checkInner headDone) (ih tailDone)

/-! ## Definitions -/

theorem checkDefault_eq_ok {value}
    (done : checkDefault param checker = .ok value after) : after = checker := by
  unfold checkDefault at done
  cases given : param.default with
  | none =>
    simp only [given] at done
    cases done
    rfl
  | some =>
    simp only [given] at done
    obtain ⟨typed, _, checked, answered⟩ := bind_eq_ok done
    have derived := derives_checkExpr checked
    cases typed with
    | const info held =>
      obtain ⟨rfl, _⟩ := derived.of_const
      cases types : info.types with
      | nil =>
        simp only [types] at answered
        cases answered
      | cons source =>
        simp only [types] at answered
        cases converting : convert held source param.type <;> rw [converting] at answered <;>
          cases answered
        rfl
    | _ => exact absurd answered reject_ne_ok

theorem checkParams_eq_ok (done : checkParams params checker = .ok bindings after) :
    after = checker ∧ bindings.map (·.name) = params.map (·.name) ∧
      bindings.map (·.type) = params.map (·.type) ∧ ∀ binding ∈ bindings, ∃ param ∈ params,
        param.type = binding.type ∧ checkDefault param checker = .ok binding.value checker := by
  induction params generalizing bindings with
  | nil =>
    cases done
    exact ⟨rfl, rfl, rfl, nofun⟩
  | cons param _ ih =>
    obtain ⟨_, _, defaultDone, remaining⟩ := bind_eq_ok done
    obtain rfl := checkDefault_eq_ok defaultDone
    obtain ⟨_, othersDone, rfl⟩ := map_eq_ok remaining
    obtain ⟨rfl, sameNames, sameTypes, defaults⟩ := ih othersDone
    refine ⟨rfl, by rw [map_cons, sameNames, map_cons], by rw [map_cons, sameTypes, map_cons], ?_⟩
    refine forall_mem_cons.2 ⟨⟨param, mem_cons_self, rfl, defaultDone⟩, fun binding member => ?_⟩
    obtain ⟨other, listed, found⟩ := defaults binding member
    exact ⟨other, mem_cons_of_mem _ listed, found⟩

theorem binds_bindParams (done : bindParams params checker = .ok () after) :
    ∃ vars, Binds checker vars (params.map (·.type)) after := by
  induction params generalizing checker with
  | nil =>
    cases done
    exact ⟨[], .nil⟩
  | cons _ _ ih =>
    obtain ⟨_, _, slotted, remaining⟩ := bind_eq_ok done
    cases slotted
    obtain ⟨_, _, bound, ending⟩ := bind_eq_ok remaining
    cases bound
    obtain ⟨vars, binds⟩ := ih ending
    exact ⟨some _ :: vars, .bind rfl binds⟩

theorem checkDefinition_eq_ok {kind body}
    (done : checkDefinition kind name args body returns checker = .ok () after) :
    ∃ inputs outputs entered stmts inner, checkParams args checker = .ok inputs checker ∧
      checkParams returns checker = .ok outputs checker ∧
      bindParams args { checker with vars := [] } = .ok () entered ∧
      checkBody body (entered.entering outputs) = .ok stmts inner ∧
      after = defining checker inner (.mk inputs outputs (stmts.map (TypedStmt.settle inner.slots))
        inner.used (kind == .nodeGroup) name) := by
  obtain ⟨inputs, _, inputsDone, afterInputs⟩ := bind_eq_ok done
  obtain ⟨rfl, _⟩ := checkParams_eq_ok inputsDone
  obtain ⟨outputs, _, outputsDone, afterOutputs⟩ := bind_eq_ok afterInputs
  obtain ⟨rfl, _⟩ := checkParams_eq_ok outputsDone
  obtain ⟨_, _, read, emptying⟩ := bind_eq_ok afterOutputs
  cases read
  obtain ⟨_, _, hidden, binding⟩ := bind_eq_ok emptying
  cases hidden
  obtain ⟨stmts, inner, inside, answered⟩ := bind_eq_ok binding
  cases answered
  obtain ⟨_, entered, bound, marking⟩ := bind_eq_ok inside
  obtain ⟨_, _, reset, bodyDone⟩ := bind_eq_ok marking
  cases reset
  exact ⟨inputs, outputs, entered, stmts, inner, inputsDone, outputsDone, bound, bodyDone, rfl⟩

theorem derives_checkDefinition {kind body}
    (done : checkDefinition kind name args body returns checker = .ok () after) :
    DerivesTop checker none after := by
  obtain ⟨_, _, _, _, _, inputsDone, _, bound, bodyDone, rfl⟩ := checkDefinition_eq_ok done
  obtain ⟨_, binds⟩ := binds_bindParams bound
  rw [← (checkParams_eq_ok inputsDone).2.2.1] at binds
  exact .definition binds (derives_checkBody bodyDone)

theorem checkStmt_eq_ok {typed}
    (done : checkStmt stmt checker = .ok typed after) :
    (∃ kind token name args body returns, stmt = .definition kind token name args body returns ∧
      typed = none ∧ checkDefinition kind name args body returns checker = .ok () after) ∨
    ∃ inner, typed = some inner ∧ checkInner stmt checker = .ok inner after := by
  have inner {stmt : Stmt} (checked : (do return some (← checkInner stmt)) checker =
      .ok typed after) : ∃ inner, typed = some inner ∧
        checkInner stmt checker = .ok inner after := by
    obtain ⟨found, innerDone, rfl⟩ := map_eq_ok checked
    exact ⟨found, rfl, innerDone⟩
  cases stmt with
  | definition kind token name args body returns =>
    obtain ⟨_, defined, rfl⟩ := map_eq_ok done
    exact .inl ⟨kind, token, name, args, body, returns, rfl, rfl, defined⟩
  | out => exact absurd done reject_ne_ok
  | _ => exact .inr (inner done)

theorem derives_checkStmt {typed}
    (done : checkStmt stmt checker = .ok typed after) : DerivesTop checker typed after := by
  rcases checkStmt_eq_ok done with ⟨_, _, _, _, _, _, rfl, rfl, defined⟩ | ⟨_, rfl, checked⟩
  · exact derives_checkDefinition defined
  · exact .stmt (derives_checkInner checked)

theorem checkStmts_keeps {holds : Checker → Prop}
    (step : ∀ {checker typed after}, holds checker → DerivesTop checker typed after →
      holds { after with body := after.body ++ typed.toList }) (start : holds checker)
    (done : checkStmts stmts checker = .ok () after) : holds after := by
  induction stmts generalizing checker with
  | nil =>
    cases done
    exact start
  | cons _ _ ih =>
    obtain ⟨_, _, checked, ending⟩ := checkStmts_cons_eq_ok done
    exact ih (step start (derives_checkStmt checked)) ending

end Statements

/-! ## What stays the same -/

section Frame

mutual

theorem Derives.frame : ∀ {checker after expr},
    Derives checker expr after → ∃ vars slots, after = { checker with vars, slots }
  | _, _, _, .const _ _ | _, _, _, .unknown _ _ | _, _, _, .known _ _ | _, _, _, .created _ =>
    ⟨_, _, rfl⟩
  | _, _, _, .call operands _ _ _ _ _ => by
    have operandsFrame := DerivesAll.frame operands
    obtain ⟨_, _, rfl⟩ := operandsFrame
    exact ⟨_, _, rfl⟩
  | _, _, _, .output operand _ => Derives.frame operand

theorem DerivesAll.frame : ∀ {checker after exprs},
    DerivesAll checker exprs after → ∃ vars slots, after = { checker with vars, slots }
  | _, _, _, .nil => ⟨_, _, rfl⟩
  | _, _, _, .cons head tail => by
    have headFrame := Derives.frame head
    have tailFrame := DerivesAll.frame tail
    obtain ⟨_, _, rfl⟩ := headFrame
    obtain ⟨_, _, rfl⟩ := tailFrame
    exact ⟨_, _, rfl⟩

end

theorem Binds.frame {vars} (binds : Binds checker vars types after) :
    ∃ vars slots, after = { checker with vars, slots } := by
  induction binds with
  | nil => exact ⟨_, _, rfl⟩
  | skip _ ih => exact ih
  | bind _ _ ih =>
    obtain ⟨_, _, rfl⟩ := ih
    exact ⟨_, _, rfl⟩

theorem DerivesStmt.frame (derived : DerivesStmt checker stmt after) :
    ∃ vars slots used, after = { checker with vars, slots, used } := by
  cases derived with
  | expr derived | out _ derived _ =>
    obtain ⟨_, _, rfl⟩ := derived.frame
    exact ⟨_, _, _, rfl⟩
  | divided derived _ _ _ _ _ binds | bound derived _ _ binds =>
    obtain ⟨_, _, rfl⟩ := derived.frame
    obtain ⟨_, _, rfl⟩ := binds.frame
    exact ⟨_, _, _, rfl⟩
  | whole derived _ slotted =>
    obtain ⟨_, _, rfl⟩ := derived.frame
    obtain ⟨_, rfl⟩ := structSlot_eq_ok slotted
    exact ⟨_, _, _, rfl⟩

theorem DerivesBody.frame (derived : DerivesBody checker stmts after) :
    ∃ vars slots used, after = { checker with vars, slots, used } := by
  induction derived with
  | nil => exact ⟨_, _, _, rfl⟩
  | cons head _ ih =>
    obtain ⟨_, _, _, rfl⟩ := head.frame
    obtain ⟨_, _, _, rfl⟩ := ih
    exact ⟨_, _, _, rfl⟩

end Frame

end Checker

end NodeFormula
