import NodeFormula.Calculation.Function
import NodeFormula.Proofs.Traversal

/-!
# How checking ends

A step of the checker passes, rejects the formula or stops with a fault.  Only a definition that
is checked to its end changes the functions, and a formula is rejected with a report, but for one
case: a default that is a constant which its parameter cannot take.
-/

namespace NodeFormula

open List

variable {kind : TreeKind} {params : List Param} {stmt : Stmt}

/-! ## Constants -/

def Literal.component? (literal : Literal) : Option Scalar :=
  match convert literal.value literal.type .float with
  | .ok (.float x) => some (.float x)
  | .ok (.int n) => some (.int n)
  | .ok _ => some (.int 0)
  | .error _ => none

def Expr.vector? : Expr → Expr → Expr → Option Value
  | .constant _ x, .constant _ y, .constant _ z => do
    let a ← x.component?
    let b ← y.component?
    let c ← z.component?
    return .vector [a, b, c]
  | _, _, _ => none

def TreeKind.constant? (kind : TreeKind) (value : Value) (type : DataType) :
    Option (DataType × Value) :=
  match kind.coerce value type with
  | .ok (.ok (value, type)) => some (type, value)
  | _ => none

def Expr.constant? (kind : TreeKind) : Expr → Option (DataType × Value)
  | .constant _ literal => kind.constant? literal.value literal.type
  | .unusable _ _ => kind.constant? .blank .float
  | .vec3 _ x y z => do return (.vec3, ← Expr.vector? x y z)
  | .unary _ .negate operand => do
    let (type, value) ← operand.constant? kind
    if type = .float ∨ type = .int then return (type, ← Checker.negated? value) else none
  | _ => none

/-- A parameter or result as calls see it, unless its default is of no use. -/
def Param.binding? (kind : TreeKind) (param : Param) : Option Binding :=
  match param.default with
  | none => some ⟨param.name, param.type, none⟩
  | some expr => do
    let (source, value) ← expr.constant? kind
    match convert value source param.type with
    | .ok value => some ⟨param.name, param.type, some value⟩
    | .error _ => none

/-- Whether the default of a parameter is a constant that it cannot take. -/
def Param.isMisfit (kind : TreeKind) (param : Param) : Bool :=
  (param.default.bind (·.constant? kind)).isSome && (param.binding? kind).isNone

/-- Whether the first parameter with a default of no use cannot take a constant. -/
def Param.isMute (kind : TreeKind) (params : List Param) : Bool :=
  (params.find? fun param => (param.binding? kind).isNone).any (·.isMisfit kind)

namespace Stmt

def isDefinition : Stmt → Bool
  | .definition .. => true
  | _ => false

def isMute (kind : TreeKind) : Stmt → Bool
  | .definition _ _ _ args _ returns => Param.isMute kind (args ++ returns)
  | _ => false

def Declares (kind : TreeKind) : Stmt → TypedFunction → Prop
  | .definition form _ name args _ returns, function =>
    function.name = name ∧ function.isGroup = (form == .nodeGroup) ∧
      args.mapM (·.binding? kind) = some function.inputs ∧
      returns.mapM (·.binding? kind) = some function.outputs
  | _, _ => False

theorem isMute_eq_false (noDefinition : stmt.isDefinition = false) : stmt.isMute kind = false := by
  cases stmt with
  | definition => cases noDefinition
  | _ => rfl

theorem Declares.isDefinition (declares : stmt.Declares kind function) :
    stmt.isDefinition = true := by
  cases stmt with
  | definition => rfl
  | _ => exact declares.elim

end Stmt

theorem Param.find?_eq_none (bound : params.mapM (·.binding? kind) = some bindings) :
    (params.find? fun param => (param.binding? kind).isNone) = none := by
  induction params generalizing bindings with
  | nil => rfl
  | cons _ _ ih =>
    rw [mapM_cons] at bound
    obtain ⟨_, first, remaining⟩ := Option.bind_eq_some_iff.mp bound
    obtain ⟨_, found, _⟩ := Option.bind_eq_some_iff.mp remaining
    rw [find?_cons, first]
    exact ih found

theorem Param.isSome_find? (unbound : params.mapM (·.binding? kind) = none) :
    (params.find? fun param => (param.binding? kind).isNone).isSome = true := by
  induction params with
  | nil => cases unbound
  | cons param params ih =>
    rw [mapM_cons] at unbound
    rw [find?_cons]
    cases first : param.binding? kind with
    | none => rfl
    | some binding =>
      rw [first] at unbound
      apply ih
      cases rest : params.mapM (·.binding? kind) with
      | none => rfl
      | some =>
        rw [rest] at unbound
        cases unbound

namespace Checker

/-! ## Steps -/

/-- The kind of tree and the functions are the same. -/
structure SameTables (before after : Checker) : Prop where
  kind : after.kind = before.kind
  functions : after.functions = before.functions

namespace SameTables

variable {after : Checker}

theorem refl (checker : Checker) : SameTables checker checker := ⟨rfl, rfl⟩

theorem trans (first : SameTables before middle) (second : SameTables middle after) :
    SameTables before after :=
  ⟨second.kind.trans first.kind, second.functions.trans first.functions⟩

end SameTables

/-- How a step is refused; a mute one is rejected without a report. -/
inductive Refused (stops : Fault → Prop) (mute : Bool) (before : Checker) :
    Refusal → Checker → Prop
  | reported {after : Checker} (report : Report) (loud : mute = false)
      (same : SameTables before after) (reports : after.reports = before.reports ++ [report]) :
      Refused stops mute before .rejected after
  | silenced {after : Checker} (isMute : mute = true) (same : SameTables before after)
      (reports : after.reports = before.reports) : Refused stops mute before .rejected after
  | stopped {after : Checker} {fault : Fault} (cause : Crash fault ∨ stops fault)
      (loud : mute = false) (same : SameTables before after) :
      Refused stops mute before (.fault fault) after

theorem Refused.same {before after : Checker} (refused : Refused stops mute before refusal after) :
    SameTables before after := by
  cases refused <;> assumption

theorem Refused.after {before middle after : Checker} (same : SameTables before middle)
    (reports : middle.reports = before.reports)
    (refused : Refused stops mute middle refusal after) :
    Refused stops mute before refusal after := by
  cases refused with
  | reported report loud others added =>
    exact .reported report loud (same.trans others) (by rw [added, reports])
  | silenced isMute others kept =>
    exact .silenced isMute (same.trans others) (kept.trans reports)
  | stopped cause loud others => exact .stopped cause loud (same.trans others)

/-- How a step ends that defines nothing. -/
def Ended (stops : Fault → Prop) (α : Type) (step : Check α) (before : Checker) : Prop :=
  match step before with
  | .ok _ after => SameTables before after ∧ after.reports = before.reports
  | .error refusal after => Refused stops false before refusal after

theorem Ended.same (stops : Fault → Prop) {step : Check α} {before after : Checker} {answer : α}
    (ended : Ended stops α step before) (done : step before = .ok answer after) :
    SameTables before after := by
  rw [Ended, done] at ended
  exact ended.1

/-- All small steps end in one of these ways. -/
instance Ended.watches (stops : Fault → Prop) : Watches (Ended stops) where
  pure _ checker := ⟨.refl checker, rfl⟩
  bind := by
    intro α β step next checker first rest
    unfold Ended at *
    cases stepped : step checker with
    | error refusal after => simpa only [Bind.bind, EStateM.bind, stepped] using first
    | ok answer middle =>
      have remaining := rest answer middle stepped
      simp only [Bind.bind, EStateM.bind, stepped] at first ⊢
      split at remaining
      · exact ⟨first.1.trans remaining.1, remaining.2.trans first.2⟩
      · exact remaining.after first.1 first.2
  reject message token _ := .reported ⟨message, token⟩ rfl ⟨rfl, rfl⟩ rfl
  stop crash checker := .stopped (.inl crash) rfl (.refl checker)
  read _ rest := rest
  look rest := rest
  modify isLocal checker :=
    ⟨⟨isLocal.kind checker, isLocal.functions checker⟩, isLocal.reports checker⟩
  bindName _ := ⟨⟨rfl, rfl⟩, rfl⟩

instance Ended.assigns (stops : Fault → Prop) : Assigns (Ended stops) where
  rebind _ _ _ := ⟨⟨rfl, rfl⟩, rfl⟩

theorem Ended.admits (within : ∀ fault, parts fault → stops fault) :
    Admits (Ended stops) parts := fun inside checker =>
  .stopped (.inr (within _ inside)) rfl (.refl checker)

theorem ended_checkExpr (within : ∀ fault, expr.Stops fault → stops fault) :
    Always (Ended stops) (checkExpr expr) := fun checker =>
  holds_checkExpr expr checker (.admits within) fun _ token => always_call _ _ token _

theorem ended_checkInner (stmt : Stmt) : Always (Ended stmt.Stops) (checkInner stmt) :=
  fun checker => holds_checkInner stmt checker (.admits fun _ => id)
    fun _ token => always_call _ _ token _

/-! ## Defaults -/

section Constants

variable {expr : TypedExpr} {after : Checker}

theorem constant_of_constant? (written : checker.kind.constant? value type = some (kept, held)) :
    constant token value type checker = .ok (.const ⟨.value, [kept], []⟩ held) checker := by
  rw [TreeKind.constant?] at written
  split at written
  · rename_i coerced coercing
    cases written
    show (orStop (checker.kind.coerce value type) >>= _ : Check TypedExpr) checker = _
    rw [coercing]
    rfl
  · cases written

theorem constant?_of_constant
    (done : constant token value type checker = .ok (.const info held) after) :
    after = checker ∧ ∃ kept, info.types = [kept] ∧
      checker.kind.constant? value type = some (kept, held) := by
  obtain ⟨_, kept, coercing, same, rfl⟩ := constant_eq_ok done
  cases same
  refine ⟨rfl, kept, rfl, ?_⟩
  rw [TreeKind.constant?, coercing]

theorem component_eq_ok_iff {literal : Literal} :
    component literal.value literal.type checker = .ok scalar after ↔
      literal.component? = some scalar ∧ after = checker := by
  rw [component, Literal.component?]
  cases convert literal.value literal.type .float with
  | error =>
    constructor
    · intro done
      obtain ⟨_, _, stopped, _⟩ := bind_eq_ok done
      exact absurd stopped stop_ne_ok
    · rintro ⟨found, _⟩
      cases found
  | ok value =>
    have answered {given : Scalar} : ((pure given : Check Scalar) checker = .ok scalar after) ↔
          some given = some scalar ∧ after = checker := by
      constructor
      · intro done
        cases done
        exact ⟨rfl, rfl⟩
      · rintro ⟨same, rfl⟩
        cases same
        rfl
    cases value <;> exact answered

theorem call_ne_const : call name args token checker ≠ .ok (.const info value) after := by
  intro done
  obtain ⟨callable, _, isCall, _⟩ := call_eq_ok done
  cases callable <;> cases isCall

theorem useName_ne_const {id} : useName id checker ≠ .ok (.const info value) after := by
  intro done
  obtain ⟨_, _, isVar⟩ := derives_useName done
  cases isVar

theorem readOutput_ne_const :
    readOutput expr attr token checker ≠ .ok (.const info value) after := by
  have reading (held : TypedExpr) (state : Checker) :
      outputAt attr held state ≠ .ok (.const info value) after := by
    intro read
    obtain ⟨_, _, _, isOutput⟩ := outputAt_eq_ok read
    cases isOutput
  intro done
  obtain read | ⟨separated, state, _, read⟩ := readOutput_eq_ok done
  · exact reading expr checker read
  · exact reading separated state read

theorem negate_number (types : info.types = [type]) (number : type = .float ∨ type = .int)
    (negating : negated? value = some opposite) :
    negate (.const info value) token checker = .ok (.const info opposite) checker := by
  unfold negate
  rcases number with rfl | rfl <;> simp only [types, negating] <;> rfl

theorem checkExpr_vector (written : Expr.vector? x y z = some value) :
    checkExpr (.vec3 token x y z) checker =
      .ok (.const ⟨.value, [.vec3], ["x", "y", "z"]⟩ value) checker := by
  unfold Expr.vector? at written
  split at written
  · obtain ⟨_, xDone, second⟩ := Option.bind_eq_some_iff.mp written
    obtain ⟨_, yDone, third⟩ := Option.bind_eq_some_iff.mp second
    obtain ⟨_, zDone, same⟩ := Option.bind_eq_some_iff.mp third
    cases same
    rw [checkExpr, finish]
    simp only [Bind.bind, EStateM.bind, component_eq_ok_iff.mpr ⟨xDone, rfl⟩,
      component_eq_ok_iff.mpr ⟨yDone, rfl⟩, component_eq_ok_iff.mpr ⟨zDone, rfl⟩]
    rfl
  · cases written

theorem checkExpr_of_constant? : ∀ {expr type value},
    expr.constant? checker.kind = some (type, value) → ∃ info, info.types = [type] ∧
      info.stack = .value ∧ checkExpr expr checker = .ok (.const info value) checker
  | .constant .., _, _, written | .unusable .., _, _, written => by
    exact ⟨_, rfl, rfl, constant_of_constant? written⟩
  | .vec3 _ _ _ _, _, _, written => by
    obtain ⟨_, found, same⟩ := Option.bind_eq_some_iff.mp written
    cases same
    exact ⟨_, rfl, rfl, checkExpr_vector found⟩
  | .unary _ .not _, _, _, written => nomatch written
  | .unary _ .negate _, _, _, written => by
    obtain ⟨⟨_, _⟩, inner, remaining⟩ := Option.bind_eq_some_iff.mp written
    simp only at remaining
    split at remaining
    · rename_i number
      obtain ⟨_, negating, same⟩ := Option.bind_eq_some_iff.mp remaining
      cases same
      obtain ⟨info, types, isValue, checked⟩ := checkExpr_of_constant? inner
      refine ⟨info, types, isValue, ?_⟩
      rw [checkExpr, bind_of_ok checked, finish]
      rw [if_neg (by simp [isEmpty, TypedExpr.info, isValue])]
      exact negate_number types number negating
    · cases remaining
  | .name .., _, _, written | .binary .., _, _, written | .member .., _, _, written
  | .keyword .., _, _, written | .call .., _, _, written | .method .., _, _, written
  | .missing, _, _, written => nomatch written

theorem constant?_of_checkExpr {expr : Expr}
    (done : checkExpr expr checker = .ok (.const info value) after) : after = checker ∧
      ∃ type, info.types = [type] ∧ expr.constant? checker.kind = some (type, value) := by
  induction expr using Expr.induction_operands generalizing value with
  | step _ ih =>
    obtain ⟨_, _, argsDone, finished⟩ := checkExpr_eq_ok done
    unfold finish at finished
    split at finished
    · cases (checkExprs_nil checker).symm.trans argsDone
      exact constant?_of_constant finished
    · cases (checkExprs_nil checker).symm.trans argsDone
      exact constant?_of_constant finished
    · cases (checkExprs_nil checker).symm.trans argsDone
      obtain ⟨_, _, xDone, second⟩ := bind_eq_ok finished
      obtain ⟨_, _, yDone, third⟩ := bind_eq_ok second
      obtain ⟨_, _, zDone, answered⟩ := bind_eq_ok third
      obtain ⟨xFound, rfl⟩ := component_eq_ok_iff.mp xDone
      obtain ⟨yFound, rfl⟩ := component_eq_ok_iff.mp yDone
      obtain ⟨zFound, rfl⟩ := component_eq_ok_iff.mp zDone
      cases answered
      refine ⟨rfl, .vec3, rfl, ?_⟩
      rw [Expr.constant?, Expr.vector?, xFound, yFound, zFound]
      rfl
    · exact absurd (unless_eq_ok (fun _ _ => reject_ne_ok) finished).2 call_ne_const
    · exact absurd finished useName_ne_const
    · obtain ⟨_, answered⟩ := unless_eq_ok (fun _ _ => reject_ne_ok) finished
      split at answered
      · exact absurd answered call_ne_const
      · rcases negate_eq_ok answered with
          ⟨_, number, _, type, rfl, ⟨⟩, types, isNumber, opposite, rfl⟩ | times
        case inr => exact absurd times call_ne_const
        obtain ⟨_, last, _, headDone, noneDone, same⟩ := checkExprs_cons_eq_ok argsDone
        cases (checkExprs_nil last).symm.trans noneDone
        cases same
        obtain ⟨rfl, _, same, written⟩ := ih _ mem_cons_self headDone
        cases types.symm.trans same
        refine ⟨rfl, type, types, ?_⟩
        rw [Expr.constant?, written]
        show (if type = .float ∨ type = .int then _ else _) = _
        rw [if_pos isNumber, opposite]
        rfl
    · exact absurd (unless_eq_ok (fun _ _ => reject_ne_ok) finished).2 call_ne_const
    · exact absurd finished readOutput_ne_const
    · exact absurd finished stop_ne_ok
    · exact absurd finished call_ne_const
    · exact absurd finished call_ne_const
    · exact absurd finished stop_ne_ok

end Constants

section Parameters

theorem checkDefault_of_binding? (bound : param.binding? checker.kind = some binding) :
    ∃ value, binding = ⟨param.name, param.type, value⟩ ∧
      checkDefault param checker = .ok value checker := by
  unfold Param.binding? at bound
  unfold checkDefault
  cases given : param.default with
  | none =>
    simp only [given] at bound
    cases bound
    exact ⟨none, rfl, rfl⟩
  | some =>
    simp only [given] at bound
    obtain ⟨⟨_, _⟩, written, converted⟩ := Option.bind_eq_some_iff.mp bound
    obtain ⟨_, types, _, checked⟩ := checkExpr_of_constant? written
    split at converted
    · rename_i value converting
      cases converted
      refine ⟨some value, rfl, ?_⟩
      simp only [Bind.bind, EStateM.bind, checked, types, converting]
      rfl
    · cases converted

theorem refused_checkDefault
    (within : ∀ value ∈ param.default, ∀ fault, value.Stops fault → stops fault)
    (unbound : param.binding? checker.kind = none) :
    ∃ refusal after, checkDefault param checker = .error refusal after ∧
      Refused stops (param.isMisfit checker.kind) checker refusal after := by
  rw [Param.isMisfit, unbound]
  unfold Param.binding? at unbound
  unfold checkDefault
  cases given : param.default with
  | none =>
    simp only [given] at unbound
    cases unbound
  | some expr =>
    simp only [given] at unbound
    rw [Option.bind_some]
    cases written : expr.constant? checker.kind with
    | some =>
      obtain ⟨_, types, _, checked⟩ := checkExpr_of_constant? written
      simp only [written, Option.bind_eq_bind, Option.bind_some] at unbound
      split at unbound
      · cases unbound
      · rename_i fault converting
        refine ⟨.rejected, checker, ?_, .silenced rfl (.refl checker) rfl⟩
        simp only [Bind.bind, EStateM.bind, checked, types, converting]
        rfl
    | none =>
      have ended := ended_checkExpr (within expr given) checker
      cases checked : checkExpr expr checker with
      | error refusal after =>
        rw [Ended, checked] at ended
        refine ⟨refusal, after, ?_, ended⟩
        simp only [Bind.bind, EStateM.bind, checked]
      | ok typed middle =>
        rw [Ended, checked] at ended
        have isExpression : ∀ info value, typed ≠ .const info value := by
          rintro _ _ rfl
          obtain ⟨_, _, _, found⟩ := constant?_of_checkExpr checked
          cases written.symm.trans found
        let report : Report :=
          ⟨"Default value should be a value not an expression.", tokenOf expr⟩
        refine ⟨.rejected, { middle with reports := middle.reports ++ [report] }, ?_,
          .after ended.1 ended.2 (.reported report rfl ⟨rfl, rfl⟩ rfl)⟩
        simp only [Bind.bind, EStateM.bind, checked]
        cases typed with
        | const info value => exact absurd rfl (isExpression info value)
        | _ => rfl

theorem checkParams_of_mapM (bound : params.mapM (·.binding? checker.kind) = some bindings) :
    checkParams params checker = .ok bindings checker := by
  induction params generalizing bindings with
  | nil =>
    cases bound
    rfl
  | cons _ _ ih =>
    rw [mapM_cons] at bound
    obtain ⟨_, first, remaining⟩ := Option.bind_eq_some_iff.mp bound
    obtain ⟨_, rest, same⟩ := Option.bind_eq_some_iff.mp remaining
    cases same
    obtain ⟨_, rfl, checked⟩ := checkDefault_of_binding? first
    rw [checkParams]
    simp only [Bind.bind, EStateM.bind, checked, ih rest]
    rfl

theorem refused_checkParams (within : ∀ param ∈ params, ∀ value ∈ param.default, ∀ fault,
      value.Stops fault → stops fault)
    (unbound : params.mapM (·.binding? checker.kind) = none) :
    ∃ refusal after, checkParams params checker = .error refusal after ∧
      Refused stops (Param.isMute checker.kind params) checker refusal after := by
  induction params with
  | nil => cases unbound
  | cons param params ih =>
    rw [mapM_cons] at unbound
    rw [checkParams, Param.isMute, find?_cons]
    cases first : param.binding? checker.kind with
    | none =>
      obtain ⟨refusal, after, checked, refused⟩ :=
        refused_checkDefault (within param mem_cons_self) first
      refine ⟨refusal, after, ?_, refused⟩
      rw [bind_of_error checked]
    | some binding =>
      obtain ⟨_, _, checked⟩ := checkDefault_of_binding? first
      cases rest : params.mapM (·.binding? checker.kind) with
      | some =>
        rw [first, rest] at unbound
        cases unbound
      | none =>
        obtain ⟨refusal, after, others, refused⟩ := ih (forall_mem_cons.1 within).2 rest
        refine ⟨refusal, after, ?_, refused⟩
        rw [bind_of_ok checked, bind_of_error others]

end Parameters

/-! ## Statements -/

/-- How checking a statement of a formula ends. -/
inductive Concluded (stmt : Stmt) (before : Checker) :
    EStateM.Result Refusal Checker (Option TypedStmt) → Prop
  | plain {typed after} (noDefinition : stmt.isDefinition = false)
      (same : SameTables before after) (reports : after.reports = before.reports) :
      Concluded stmt before (.ok typed after)
  | defined {typed after function}
      (declares : stmt.Declares before.kind function) (loud : stmt.isMute before.kind = false)
      (kind : after.kind = before.kind)
      (functions : after.functions = insertFunction before.functions function)
      (reports : after.reports = before.reports) : Concluded stmt before (.ok typed after)
  | refused {refusal after}
      (refused : Refused stmt.Stops (stmt.isMute before.kind) before refusal after) :
      Concluded stmt before (.error refusal after)

theorem concluded_plain (noDefinition : stmt.isDefinition = false) :
    Concluded stmt checker ((do return some (← checkInner stmt)) checker) := by
  have ended := ended_checkInner stmt checker
  have loud : stmt.isMute checker.kind = false := Stmt.isMute_eq_false noDefinition
  simp only [Bind.bind, EStateM.bind]
  cases checked : checkInner stmt checker with
  | ok =>
    rw [Ended, checked] at ended
    exact .plain noDefinition ended.1 ended.2
  | error =>
    rw [Ended, checked, ← loud] at ended
    exact .refused ended

theorem checkStmt_definition {body inputs outputs}
    (inputsDone : checkParams args checker = .ok inputs checker)
    (outputsDone : checkParams returns checker = .ok outputs checker) :
    checkStmt (.definition form token name args body returns) checker =
      match checkInside args outputs body { checker with vars := [] } with
      | .ok typed inner => .ok none (defining checker inner
          (.mk inputs outputs (typed.map (TypedStmt.settle inner.slots)) inner.used
            (form == .nodeGroup) name))
      | .error refusal after => .error refusal after := by
  rw [checkStmt, checkDefinition]
  simp only [bind_assoc]
  rw [bind_of_ok inputsDone, bind_of_ok outputsDone, bind_get]
  show (checkInside args outputs body >>= _) { checker with vars := [] } = _
  cases inside : checkInside args outputs body { checker with vars := [] } with
  | error => rw [bind_of_error inside]
  | ok =>
    rw [bind_of_ok inside]
    rfl

/-- The functions change only where the body of a definition is checked to its end. -/
theorem concluded_checkDefinition (form : DefinitionKind) (token : Token) (name : String)
    (args : List Param) (body : List Stmt) (returns : List Param) (checker : Checker) :
    Concluded (.definition form token name args body returns) checker
      (checkStmt (.definition form token name args body returns) checker) := by
  have within : ∀ param ∈ args ++ returns, ∀ value ∈ param.default, ∀ fault, value.Stops fault →
      (Stmt.definition form token name args body returns).Stops fault :=
    fun param member _ given _ => .value (mem_filterMap.2 ⟨param, member, given⟩)
  obtain ⟨inArgs, inReturns⟩ := forall_mem_append.1 within
  cases inputs : args.mapM (·.binding? checker.kind) with
  | none =>
    obtain ⟨_, _, checked, refused⟩ := refused_checkParams inArgs inputs
    rw [checkStmt, checkDefinition]
    simp only [Bind.bind, EStateM.bind, checked]
    refine .refused ?_
    rw [Stmt.isMute, Param.isMute, find?_append, Option.or_of_isSome (Param.isSome_find? inputs)]
    exact refused
  | some found =>
    have inputsDone := checkParams_of_mapM inputs
    cases outputs : returns.mapM (·.binding? checker.kind) with
    | none =>
      obtain ⟨_, _, checked, refused⟩ := refused_checkParams inReturns outputs
      rw [checkStmt, checkDefinition]
      simp only [Bind.bind, EStateM.bind, inputsDone, checked]
      refine .refused ?_
      rw [Stmt.isMute, Param.isMute, find?_append, Param.find?_eq_none inputs]
      exact refused
    | some results =>
      have loud : (Stmt.definition form token name args body returns).isMute checker.kind =
          false := by
        rw [Stmt.isMute, Param.isMute, find?_append, Param.find?_eq_none inputs,
          Param.find?_eq_none outputs]
        rfl
      have emptied : SameTables checker { checker with vars := [] } := ⟨rfl, rfl⟩
      have ended : Ended (Stmt.definition form token name args body returns).Stops _
          (checkInside args results body) { checker with vars := [] } :=
        holds_checkInside args results body _ (fun _ => ⟨⟨rfl, rfl⟩, rfl⟩)
          (fun _ member => .admits fun _ => .body member)
          fun _ _ _ _ _ _ token => always_call _ _ token _
      rw [checkStmt_definition inputsDone (checkParams_of_mapM outputs)]
      cases inside : checkInside args results body { checker with vars := [] } with
      | error _ after =>
        rw [Ended, inside, ← loud] at ended
        exact .refused (.after emptied rfl ended)
      | ok typed inner =>
        rw [Ended, inside] at ended
        let function := TypedFunction.mk found results
          (typed.map (TypedStmt.settle inner.slots)) inner.used (form == .nodeGroup) name
        have declares : (Stmt.definition form token name args body returns).Declares
            checker.kind function := ⟨rfl, rfl, inputs, outputs⟩
        have functions : (defining checker inner function).functions =
            insertFunction checker.functions function :=
          congrArg (insertFunction · function) ended.1.functions
        exact .defined declares loud ended.1.kind functions ended.2

theorem concluded_checkStmt (stmt : Stmt) (checker : Checker) :
    Concluded stmt checker (checkStmt stmt checker) := by
  cases stmt with
  | definition form token name args body returns =>
    exact concluded_checkDefinition form token name args body returns checker
  | out token =>
    exact .refused (.reported ⟨"Out statements only allowed inside functions", token⟩ rfl
      ⟨rfl, rfl⟩ rfl)
  | _ => exact concluded_plain rfl

/-! ## Formulas -/

theorem lookup_map_insert (functions : FunctionTable) (function : TypedFunction) (name : String) :
    (functions.map fun entry =>
        if entry.1 == function.name then (entry.1, function :: entry.2) else entry).lookup name =
      if function.name = name then (functions.lookup name).map (function :: ·)
      else functions.lookup name := by
  induction functions with
  | nil => simp
  | cons entry _ ih =>
    obtain ⟨key, _⟩ := entry
    rw [map_cons]
    by_cases here : key = function.name
    · subst here
      by_cases same : function.name = name
      · subst same
        simp
      · simpa [lookup_cons, beq_false_of_ne (Ne.symm same)] using ih
    · have stays : (key == function.name) = false := beq_false_of_ne here
      rw [stays]
      by_cases found : name = key
      · subst found
        simp [Ne.symm here]
      · simpa [lookup_cons, beq_false_of_ne found] using ih

theorem lookup_insertFunction (functions : FunctionTable) (function : TypedFunction)
    (name : String) : ((insertFunction functions function).lookup name).getD [] =
      (if function.name = name then [function] else []) ++ (functions.lookup name).getD [] := by
  rw [insertFunction]
  split
  · rename_i known
    rw [lookup_map_insert]
    by_cases same : function.name = name
    · subst same
      cases found : functions.lookup function.name with
      | some => simp
      | none =>
        obtain ⟨entry, listed, matching⟩ := any_eq_true.mp known
        have differs := lookup_eq_none_iff.mp found entry listed
        rw [eq_of_beq matching, bne_self_eq_false] at differs
        cases differs
    · simp [same]
  · rename_i unknown
    rw [lookup_append]
    by_cases same : function.name = name
    · subst same
      have missing : functions.lookup function.name = none := by
        rw [lookup_eq_none_iff]
        intro entry listed
        by_contra matching
        apply unknown
        rw [any_eq_true]
        refine ⟨entry, listed, ?_⟩
        rw [bne_iff_ne, not_not] at matching
        rw [matching, beq_self_eq_true]
      simp [missing]
    · simp [same, lookup_cons, beq_false_of_ne (Ne.symm same)]

theorem lookup_foldl_insertFunction (defined : List TypedFunction) (functions : FunctionTable)
    (name : String) : ((defined.foldl insertFunction functions).lookup name).getD [] =
      (defined.filter (·.name = name)).reverse ++ (functions.lookup name).getD [] := by
  induction defined generalizing functions with
  | nil => rfl
  | cons function _ ih =>
    rw [foldl_cons, ih, lookup_insertFunction]
    by_cases same : function.name = name <;> simp [same]

section Formulas

variable {after : Checker}

theorem concluded_of_eq (done : checkStmt stmt checker = result) : Concluded stmt checker result :=
  done ▸ concluded_checkStmt stmt checker

theorem checkStmts_cons_ok (done : checkStmt stmt checker = .ok typed middle) :
    checkStmts (stmt :: stmts) checker =
      checkStmts stmts { middle with body := middle.body ++ typed.toList } := by
  rw [checkStmts]
  rw [bind_of_ok done]
  rfl

theorem checkStmts_cons_error (failed : checkStmt stmt checker = .error refusal after) :
    checkStmts (stmt :: stmts) checker = .error refusal after := by
  rw [checkStmts]
  rw [bind_of_error failed]

/-- An accepted formula has reported nothing, and added its definitions one by one. -/
structure Accepted (stmts : List Stmt) (before after : Checker) : Prop where
  kind : after.kind = before.kind
  reports : after.reports = before.reports
  loud : ∀ stmt ∈ stmts, stmt.isMute before.kind = false
  functions : ∃ defined, List.Forall₂ (Stmt.Declares before.kind) (stmts.filter (·.isDefinition))
    defined ∧ after.functions = defined.foldl insertFunction before.functions

theorem accepted_of_checkStmts (done : checkStmts stmts checker = .ok () after) :
    Accepted stmts checker after := by
  induction stmts generalizing checker with
  | nil =>
    cases done
    exact ⟨rfl, rfl, by simp, [], .nil, rfl⟩
  | cons _ _ ih =>
    obtain ⟨_, _, checked, rest⟩ := checkStmts_cons_eq_ok done
    obtain ⟨kind, reports, loud, defined, declares, functions⟩ := ih rest
    cases concluded_of_eq checked with
    | plain noDefinition same kept =>
      rw [same.kind] at kind loud declares
      refine ⟨kind, reports.trans kept, forall_mem_cons.2 ⟨Stmt.isMute_eq_false noDefinition, loud⟩,
        defined, ?_, ?_⟩
      · rw [filter_cons_of_neg (by rw [noDefinition]; decide)]
        exact declares
      · rw [functions, same.functions]
    | @defined _ _ function isDeclared isLoud sameKind inserted kept =>
      rw [sameKind] at kind loud declares
      refine ⟨kind, reports.trans kept, forall_mem_cons.2 ⟨isLoud, loud⟩,
        function :: defined, ?_, ?_⟩
      · rw [filter_cons_of_pos isDeclared.isDefinition]
        exact .cons isDeclared declares
      · rw [functions, inserted, foldl_cons]

theorem checkStmts_append (done : checkStmts first checker = .ok () middle) (second : List Stmt) :
    checkStmts (first ++ second) checker = checkStmts second middle := by
  induction first generalizing checker with
  | nil =>
    cases done
    rfl
  | cons _ _ ih =>
    obtain ⟨_, _, checked, rest⟩ := checkStmts_cons_eq_ok done
    rw [cons_append, checkStmts_cons_ok checked]
    exact ih rest

theorem checkStmts_eq_error (failed : checkStmts stmts checker = .error refusal after) :
    ∃ done stmt rest middle, stmts = done ++ stmt :: rest ∧
      checkStmts done checker = .ok () middle ∧ checkStmt stmt middle = .error refusal after := by
  induction stmts generalizing checker with
  | nil => cases failed
  | cons stmt stmts ih =>
    cases checked : checkStmt stmt checker with
    | error =>
      rw [checkStmts_cons_error checked] at failed
      cases failed
      exact ⟨[], stmt, stmts, checker, rfl, rfl, checked⟩
    | ok =>
      rw [checkStmts_cons_ok checked] at failed
      obtain ⟨done, refused, rest, last, rfl, accepted, rejected⟩ := ih failed
      refine ⟨stmt :: done, refused, rest, last, rfl, ?_, rejected⟩
      rw [checkStmts_cons_ok checked]
      exact accepted

/--
Checking a source comes to an answer, or ends with a fault: that of reading it, or one at a
statement after accepted ones.  There a part of the statement stops the check, or a value without a
type or a constant that cannot be converted does.
-/
theorem check_ends [Evaluator] (checker : Checker) (source : String) :
    (∃ accepted, (checker.check source).2 = .ok accepted) ∨
      ∃ fault, (checker.check source).2 = .error fault ∧ (parse source = .error fault ∨
        ∃ done stmt rest middle after, parse source = .ok ⟨done ++ stmt :: rest, []⟩ ∧
          checkStmts done { checker with reports := [] } = .ok () middle ∧
          checkStmt stmt middle = .error (.fault fault) after ∧
          (Crash fault ∨ stmt.Stops fault)) := by
  rw [check]
  cases parse source with
  | error fault => exact .inr ⟨fault, rfl, .inl rfl⟩
  | ok parsed =>
    obtain ⟨body, reports⟩ := parsed
    cases reports with
    | cons report reports => exact .inl ⟨false, rfl⟩
    | nil =>
      simp only [isEmpty_nil, Bool.not_true, Bool.false_eq_true, if_false]
      cases ran : (checkStmts body).run { checker with reports := [] } with
      | ok answer last => exact .inl ⟨true, rfl⟩
      | error refusal last =>
        cases refusal with
        | rejected => exact .inl ⟨false, rfl⟩
        | fault fault =>
          obtain ⟨done, stmt, rest, middle, rfl, passed, stopped⟩ := checkStmts_eq_error ran
          refine .inr ⟨fault, rfl, .inr ⟨done, stmt, rest, middle, last, rfl, passed, stopped, ?_⟩⟩
          cases concluded_of_eq stopped with
          | refused refused =>
            cases refused with
            | stopped cause => exact cause

/-- A literal vector has names for its components but no outputs. -/
theorem check_stops_at_vector :
    (match (check (new .geometry []) "\x7b1,2,3\x7d.y;").2 with
      | .ok _ => none
      | .error fault => some fault) = some Fault.listIndex ∧
    (match (check (new .shader []) "\x7b'a',1,2\x7d;").2 with
      | .ok _ => none
      | .error fault => some fault) = some (Fault.cannotConvert .string .float) := by
  decide +kernel

end Formulas

end Checker

end NodeFormula
