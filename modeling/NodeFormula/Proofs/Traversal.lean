import NodeFormula.Proofs.Derivation

/-!
# Following a check through a formula

A property of steps in a state that all small steps of checking have, and that a sequence has if
its parts have it, is one of checking a whole statement, as long as the calls have it that are
made on the way.  Nothing is assumed about how a step ends, so this also speaks about formulas
that are refused.
-/

namespace NodeFormula

/-- A part of the expression stops its check: a keyword, something read of a value, or a gap. -/
inductive Expr.Stops : Expr → Fault → Prop
  | keywords {expr} (has : expr.hasKeywords = true) : Stops expr (.notSupported "")
  | keyword {token name value} : Stops (.keyword token name value) (.notSupported "")
  | member {token value attr} : Stops (.member token value attr) (.notSupported "")
  | missing : Stops .missing (.broken "Unreachable code")
  | operand {expr operand fault} (member : operand ∈ expr.operands)
      (inside : Stops operand fault) : Stops expr fault

/-- The expressions of a statement, but for those in the body of a definition. -/
def Stmt.values : Stmt → List Expr
  | .expr value | .assign _ _ value | .out _ _ value => [value]
  | .definition _ _ _ args _ returns => (args ++ returns).filterMap (·.default)
  | .loop .. | .missing => []

/-- A part of the statement stops its check: such an expression, a loop, or a gap. -/
inductive Stmt.Stops : Stmt → Fault → Prop
  | value {stmt value fault} (member : value ∈ stmt.values) (inside : value.Stops fault) :
      Stops stmt fault
  | loop {token counter start stop body} :
      Stops (.loop token counter start stop body) (.notSupported "")
  | missing : Stops .missing (.broken "Unreachable code")
  | body {kind token name args body returns stmt fault} (member : stmt ∈ body)
      (inside : Stops stmt fault) : Stops (.definition kind token name args body returns) fault

namespace Checker

/-- Whether the components of an expression are read with a node of their own. -/
def isVector (checker : Checker) (expr : TypedExpr) : Bool :=
  expr.info.stack == .socket && (checker.currentTypes expr).head? == some .vec3

/-- The function that an expression calls once its operands are checked. -/
def callee? (checker : Checker) : Expr → List TypedExpr → Option (String × List TypedExpr)
  | .vec3 _ (.constant _ _) (.constant _ _) (.constant _ _), _ => none
  | .vec3 .., args => some ("vec3", args)
  | .unary _ .not _, args => some ("_not", args)
  | .unary _ .negate _, [arg] => if isNumber arg then none else some ("mul", [minusOne, arg])
  | .binary _ _ op _, args => some (operatorName op, args)
  | .member .., [arg] => if checker.isVector arg then some ("sep_xyz", [arg]) else none
  | .call _ _ id _ _, args => some (id, args)
  | .method _ _ _ attr _ _, args => some (attr, args)
  | _, _ => none

/-! ## The calls of a formula -/

mutual

/--
While the expression is checked, the function is called with those arguments in another state.
-/
inductive Calls : Expr → Checker → String → List TypedExpr → Checker → Prop
  | own {expr checker state typed args name}
      (checked : checkExprs expr.operands checker = .ok typed state)
      (called : state.callee? expr typed = some (name, args)) : Calls expr checker name args state
  | operand {expr checker state args name}
      (inside : CallsAny expr.operands checker name args state) : Calls expr checker name args state

inductive CallsAny : List Expr → Checker → String → List TypedExpr → Checker → Prop
  | head {expr exprs checker state args name} (inside : Calls expr checker name args state) :
      CallsAny (expr :: exprs) checker name args state
  | tail {expr exprs checker middle state typed args name}
      (checked : checkExpr expr checker = .ok typed middle)
      (inside : CallsAny exprs middle name args state) :
      CallsAny (expr :: exprs) checker name args state

end

inductive InnerCalls : Stmt → Checker → String → List TypedExpr → Checker → Prop
  | expr {value checker state name args} (inside : Calls value checker name args state) :
      InnerCalls (.expr value) checker name args state
  | assign {token targets value checker state name args}
      (inside : Calls value checker name args state) :
      InnerCalls (.assign token targets value) checker name args state
  | out {token targets value checker marked state indices name args}
      (listed : outIndices targets checker = .ok indices marked)
      (inside : Calls value marked name args state) :
      InnerCalls (.out token targets value) checker name args state

inductive BodyCalls : List Stmt → Checker → String → List TypedExpr → Checker → Prop
  | head {stmt stmts checker state name args} (inside : InnerCalls stmt checker name args state) :
      BodyCalls (stmt :: stmts) checker name args state
  | tail {stmt stmts checker middle state typed name args}
      (checked : checkInner stmt checker = .ok typed middle)
      (inside : BodyCalls stmts middle name args state) :
      BodyCalls (stmt :: stmts) checker name args state

/-- The calls of a statement, those in the body of a definition among them. -/
inductive StmtCalls : Stmt → Checker → String → List TypedExpr → Checker → Prop
  | inner {stmt checker state name args} (inside : InnerCalls stmt checker name args state) :
      StmtCalls stmt checker name args state
  | body {kind token id params returns body checker bound state outputs name args}
      (results : checkParams returns checker = .ok outputs checker)
      (binding : bindParams params { checker with vars := [] } = .ok () bound)
      (inside : BodyCalls body (bound.entering outputs) name args state) :
      StmtCalls (.definition kind token id params body returns) checker name args state

/-! ## Properties of steps -/

/-- What values stop a check with: one without a type, and a constant that cannot be converted. -/
inductive Crash : Fault → Prop
  | untyped : Crash .listIndex
  | conversion {value source target fault}
      (failed : convert value source target = .error fault) : Crash fault

theorem crash_coerce {kind : TreeKind} (failed : kind.coerce value type = .error fault) :
    Crash fault := by
  cases kind with
  | geometry =>
    rw [TreeKind.coerce] at failed
    split at failed <;> cases failed
  | shader =>
    simp only [TreeKind.coerce] at failed
    split_ifs at failed
    cases converting : convert value type .float with
    | ok converted => cases converting ▸ failed
    | error other =>
      rw [converting] at failed
      cases failed
      exact .conversion converting

/-- A change of types and marks. -/
structure IsLocal (change : Checker → Checker) : Prop where
  kind : ∀ checker, (change checker).kind = checker.kind := by intros; rfl
  functions : ∀ checker, (change checker).functions = checker.functions := by intros; rfl
  reports : ∀ checker, (change checker).reports = checker.reports := by intros; rfl
  outputs : ∀ checker, (change checker).outputs = checker.outputs := by intros; rfl
  body : ∀ checker, (change checker).body = checker.body := by intros; rfl
  vars : ∀ checker, (change checker).vars = checker.vars := by intros; rfl
  commutes : ∀ checker functions,
    change { checker with functions } = { change checker with functions } := by intros; rfl

/-- A property that the small steps have, and a sequence if its parts have it. -/
class Follows (holds : (α : Type) → Check α → Checker → Prop) : Prop where
  pure {α} (answer : α) (checker : Checker) : holds α (pure answer) checker
  bind {α β step next checker}
    (first : holds α step checker)
    (rest : ∀ answer middle, step checker = .ok answer middle → holds β (next answer) middle) :
    holds β (step >>= next) checker
  reject {α} (message : String) (token : Token) (checker : Checker) :
    holds α (reject message token) checker
  stop {α fault} (crash : Crash fault) (checker : Checker) :
    holds α (stop fault) checker
  /-- The state may be read, but not its functions. -/
  read {β next checker}
    (blind : ∀ functions, next { checker with functions } = next checker)
    (rest : holds β (next checker) checker) : holds β (get >>= next) checker
  modify {change} (isLocal : IsLocal change) (checker : Checker) :
    holds Unit (modify change) checker
  /-- A name may be bound that is new, or stands for the same variable. -/
  bindName {name var checker}
    (same : ∀ old, checker.vars.lookup name = some old → ∃ isFresh, var = { old with isFresh }) :
    holds Unit (Checker.bind name var) checker

/-- A property of steps that assign variables as well. -/
class Assigns (holds : (α : Type) → Check α → Checker → Prop) : Prop extends Follows holds where
  rebind (name : String) (var : TypedVar) (checker : Checker) :
    holds Unit (Checker.bind name var) checker

/-- A property of steps that read the functions as well. -/
class Watches (holds : (α : Type) → Check α → Checker → Prop) : Prop extends Follows holds where
  look {β next checker}
    (rest : holds β (next checker) checker) : holds β (get >>= next) checker

def Always (holds : (α : Type) → Check α → Checker → Prop) {α : Type} (step : Check α) : Prop :=
  ∀ checker, holds α step checker

abbrev Admits (holds : (α : Type) → Check α → Checker → Prop) (stops : Fault → Prop) : Prop :=
  ∀ {α fault}, stops fault → Always holds (stop fault : Check α)

abbrev Serves (holds : (α : Type) → Check α → Checker → Prop)
    (calls : String → List TypedExpr → Checker → Prop) : Prop :=
  ∀ {name args state}, calls name args state → ∀ token, holds _ (call name args token) state

section

variable [Follows holds]

theorem Always.bind {next : α → Check β} (first : Always holds step)
    (rest : ∀ answer, Always holds (next answer)) : Always holds (step >>= next) :=
  fun checker => Follows.bind (first checker) fun answer middle _ => rest answer middle

theorem holds_map {give : α → β} (first : holds α step checker) :
    holds β (step >>= fun answer => pure (give answer)) checker :=
  Follows.bind first fun _ middle _ => Follows.pure _ middle

theorem Always.map {give : α → β} (first : Always holds step) :
    Always holds (step >>= fun answer => pure (give answer)) :=
  fun checker => holds_map (first checker)

theorem holds_unless [Decidable wrong] {next : β → Check α} (goesOn : holds α other checker) :
    holds α (if wrong then reject message token >>= next else other) checker := by
  split
  · exact Follows.bind (Follows.reject message token checker) fun _ _ rejected =>
      absurd rejected reject_ne_ok
  · exact goesOn

theorem always_orStop {result : Except Fault α}
    (crash : ∀ fault, result = .error fault → Crash fault) : Always holds (orStop result) := by
  cases result with
  | ok value => exact Follows.pure value
  | error fault => exact Follows.stop (crash fault rfl)

theorem always_typesOf (expr : TypedExpr) : Always holds (typesOf expr) := by
  refine fun checker => Follows.read (fun _ => ?_) (Follows.pure _ checker)
  cases expr <;> rfl

theorem always_firstType (expr : TypedExpr) : Always holds (firstType expr) := by
  refine (always_typesOf expr).bind fun types => ?_
  split
  · exact Follows.pure _
  · exact Follows.stop .untyped

theorem always_firstTypes (args : List TypedExpr) : Always holds (firstTypes args) := by
  induction args with
  | nil => exact Follows.pure _
  | cons arg args ih => exact (always_firstType arg).bind fun _ => ih.map

theorem always_newSlot (types : List DataType) : Always holds (newSlot types) := fun checker =>
  Follows.read (fun _ => rfl) (Always.map (Follows.modify {}) checker)

theorem always_passArg (arg : TypedExpr) (type : DataType) : Always holds (passArg arg type) := by
  cases arg with
  | const info value =>
    exact (always_firstType _).bind fun _ => (always_orStop fun _ => .conversion).map
  | var reference => exact Always.map (Follows.modify {})
  | _ => exact Follows.pure _

theorem always_passArgs (args : List TypedExpr) (types : List DataType) :
    Always holds (passArgs args types) := by
  induction args generalizing types with
  | nil => cases types <;> exact Follows.pure _
  | cons arg args ih =>
    cases types with
    | nil => exact Follows.pure _
    | cons type types => exact (always_passArg arg type).bind fun _ => (ih types).map

theorem always_call {holds} [Watches holds] (name : String)
    (args : List TypedExpr) (token : Token) : Always holds (call name args token) := by
  refine Always.bind (fun checker => Watches.look ?_) fun resolved => ?_
  · split
    · exact Follows.pure _ checker
    · refine (always_firstTypes args).bind (fun types => ?_) checker
      split
      · exact Follows.pure _
      · exact (always_passArgs args _).map
  · split
    · exact Follows.reject _ token
    · exact Follows.pure _

/-! ## Expressions -/

theorem always_constant (token : Token) (value : Value) (type : DataType) :
    Always holds (constant token value type) := by
  intro checker
  refine Follows.read (fun _ => rfl)
    (Always.bind (always_orStop fun _ => crash_coerce) (fun result => ?_) checker)
  split
  · exact Follows.pure _
  · exact Follows.reject _ _

theorem always_useName (id : String) : Always holds (useName id) := by
  intro checker
  refine Follows.read (fun _ => rfl) ?_
  split
  · rename_i unknown
    refine Follows.bind (always_newSlot _ checker) fun _ _ made => ?_
    cases made
    refine holds_map (Follows.bindName fun old found => ?_)
    cases unknown.symm.trans found
  · rename_i known
    split
    · refine holds_map (Follows.bindName fun old found => ?_)
      cases known.symm.trans found
      exact ⟨false, rfl⟩
    · exact Follows.pure _ checker

theorem always_component (value : Value) (type : DataType) :
    Always holds (component value type) := by
  refine .bind (always_orStop fun _ => .conversion) fun converted => ?_
  split <;> exact Follows.pure _

theorem holds_readOutput (attr : String) (token : Token)
    (unsupported : Always holds (stop (.notSupported "") : Check TypedExpr))
    (called : checker.isVector expr = true → holds _ (call "sep_xyz" [expr] token) checker) :
    holds _ (readOutput expr attr token) checker := by
  have reading (value : TypedExpr) : Always holds (outputAt attr value) := by
    refine (always_typesOf value).bind fun types => ?_
    split
    · exact Follows.stop .untyped
    · exact Follows.pure _
  refine holds_unless (holds_unless ?_)
  split
  · rename_i isSocket
    refine Follows.bind (always_firstType expr checker) fun type middle first => ?_
    obtain ⟨rfl, _, types⟩ := firstType_eq_ok first
    split
    · have vector : middle.isVector expr = true := by
        rw [isVector, isSocket, types]
        rfl
      exact Follows.bind (called vector) fun separated last _ => reading separated last
    · exact unsupported middle
    · exact reading expr middle
  · exact reading expr checker

theorem holds_finish (admits : Admits holds value.Stops)
    (sameLength : args.length = value.operands.length)
    (called : ∀ name given, checker.callee? value args = some (name, given) →
      ∀ token, holds _ (call name given token) checker) : holds _ (finish value args) checker := by
  unfold finish
  split
  · exact always_constant _ _ _ checker
  · exact always_constant _ _ _ checker
  · exact (always_component _ _).bind (fun _ => (always_component _ _).bind fun _ =>
      (always_component _ _).map) checker
  · rename_i noLiteral
    refine holds_unless (called _ _ ?_ _)
    rw [callee?]
    exact noLiteral
  · exact always_useName _ checker
  · refine holds_unless ?_
    split
    · exact called _ _ rfl _
    · rcases negate_cases _ _ with ⟨_, _, _, _, _, _, _, _, same⟩ | ⟨noNumber, same⟩ <;> rw [same]
      · exact Follows.pure _ checker
      · refine called _ _ ?_ _
        rw [callee?, noNumber]
        rfl
  · exact holds_unless (called _ _ rfl _)
  · refine holds_readOutput _ _ (admits .member) fun vector => called _ _ ?_ _
    rw [callee?, vector]
    rfl
  · exact admits .keyword checker
  · exact called _ _ rfl _
  · exact called _ _ rfl _
  · refine admits ?_ checker
    cases value with
    | missing => exact .missing
    | unary | member => simp_all [Expr.operands, List.length_eq_one_iff]
    | _ => grind

theorem holds_each (each : ∀ expr ∈ exprs, ∀ state,
      Serves holds (Calls expr state) → holds _ (checkExpr expr) state)
    (called : Serves holds (CallsAny exprs checker)) : holds _ (checkExprs exprs) checker := by
  induction exprs generalizing checker with
  | nil =>
    exact Follows.pure _ checker
  | cons expr exprs ih =>
    refine Follows.bind (each expr List.mem_cons_self checker fun calls => called (.head calls))
      fun head middle done => holds_map ?_
    exact ih (fun other member => each other (List.mem_cons_of_mem _ member))
      fun calls => called (.tail done calls)

theorem holds_checkExpr (expr : Expr) (checker : Checker) (admits : Admits holds expr.Stops)
    (called : Serves holds (Calls expr checker)) : holds _ (checkExpr expr) checker := by
  induction expr using Expr.induction_operands generalizing checker with
  | step expr ih =>
    rw [checkExpr_eq]
    split
    · rename_i keywords
      exact admits (.keywords keywords) checker
    · refine Follows.bind (holds_each (fun operand member state => ih operand member state
        fun inside => admits (.operand member inside)) fun calls => called (.operand calls))
        fun args middle done => ?_
      exact holds_finish admits (length_checkExprs done)
        fun name given callee => called (.own done callee)

theorem holds_checkExprs (exprs : List Expr) (checker : Checker)
    (admits : ∀ expr ∈ exprs, Admits holds expr.Stops)
    (called : Serves holds (CallsAny exprs checker)) : holds _ (checkExprs exprs) checker :=
  holds_each (fun expr member state => holds_checkExpr expr state (admits expr member)) called

end

/-! ## Statements -/

section

variable [Assigns holds]

theorem always_bindTargets (targets : List (Option Target)) (types : List DataType) :
    Always holds (bindTargets targets types) := by
  induction targets generalizing types with
  | nil =>
    exact Follows.pure _
  | cons target targets ih =>
    cases target with
    | none =>
      exact (ih _).map
    | some target =>
      cases types with
      | nil =>
        exact Follows.stop .untyped
      | cons type types =>
        exact (always_newSlot _).bind fun _ =>
          Always.bind (Assigns.rebind _ _) fun _ => (ih _).map

theorem always_structSlot (expr : TypedExpr) : Always holds (structSlot expr) := by
  cases expr with
  | var reference => exact Follows.pure _
  | _ => exact always_newSlot _

theorem always_targetTypes (token : Token) (targets : List (Option Target)) (expr : TypedExpr) :
    Always holds (targetTypes token targets expr) := by
  refine Always.bind ?_ fun types checker => holds_unless (Follows.pure _ checker)
  split
  · refine (always_firstType expr).bind fun type => ?_
    split
    · exact Follows.reject _ _
    · exact Follows.pure _
  · exact always_typesOf expr

theorem holds_checkAssign (token : Token) (targets : List (Option Target))
    (admits : Admits holds value.Stops) (called : Serves holds (Calls value checker)) :
    holds _ (checkAssign token targets value) checker := by
  refine Follows.bind (holds_checkExpr value checker admits called) fun expr middle _ => ?_
  dsimp only
  split
  · exact Follows.reject _ _ middle
  · exact Follows.pure _ middle
  · exact (always_structSlot expr).bind (fun _ => (always_typesOf expr).bind fun _ =>
      Always.map (Assigns.rebind _ _)) middle
  · exact (always_targetTypes _ _ expr).bind (fun types => (always_bindTargets _ types).map) middle

theorem always_outIndices (targets : List (Option Target)) : Always holds (outIndices targets) := by
  induction targets with
  | nil =>
    exact Follows.pure _
  | cons target targets ih =>
    cases target with
    | none =>
      exact ih.map
    | some target =>
      intro checker
      refine Follows.read (fun _ => rfl) ?_
      split
      · exact Follows.reject _ _ checker
      · exact Always.bind (Follows.modify {}) (fun _ => ih.map) checker

theorem always_checkOutTypes (outputs : List Binding) (targets : List (Option Target))
    (indices : List (Option Nat)) (types : List DataType) :
    Always holds (checkOutTypes outputs targets indices types) := by
  intro checker
  fun_induction checkOutTypes outputs targets indices types with
  | case1 _ _ _ _ _ _ _ ih => exact ih
  | case2 =>
    exact Follows.bind (Follows.reject _ _ checker) fun _ _ rejected => absurd rejected reject_ne_ok
  | case3 _ _ _ _ _ _ _ _ _ _ ih => exact ih
  | case4 _ _ _ _ _ _ _ ih => exact ih
  | case5 => exact Follows.pure _ checker

theorem holds_checkOut (token : Token) (targets : List (Option Target))
    (admits : Admits holds value.Stops)
    (called : ∀ indices marked, outIndices targets checker = .ok indices marked →
      Serves holds (Calls value marked)) : holds _ (checkOut token targets value) checker := by
  refine Follows.bind (always_outIndices targets checker) fun indices marked listed => ?_
  refine Follows.bind (holds_checkExpr value marked admits (called indices marked listed))
    fun expr middle _ => Follows.read (fun _ => rfl) ?_
  exact holds_unless ((always_targetTypes _ _ expr).bind
    (fun types => (always_checkOutTypes _ _ _ types).map) middle)

theorem holds_checkInner (stmt : Stmt) (checker : Checker) (admits : Admits holds stmt.Stops)
    (called : Serves holds (InnerCalls stmt checker)) : holds _ (checkInner stmt) checker := by
  have within {value} (member : value ∈ stmt.values) : Admits holds value.Stops :=
    fun inside => admits (.value member inside)
  cases stmt with
  | expr value =>
    exact holds_map (holds_checkExpr value checker (within List.mem_cons_self)
      fun calls => called (.expr calls))
  | assign token targets value =>
    exact holds_checkAssign token targets (within List.mem_cons_self)
      fun calls => called (.assign calls)
  | out token targets value =>
    exact holds_checkOut token targets (within List.mem_cons_self)
      fun _ _ listed _ _ _ calls => called (.out listed calls)
  | loop token counter start stop body => exact admits .loop checker
  | definition kind token name args body returns =>
    cases kind <;> exact Follows.reject _ _ checker
  | missing => exact admits .missing checker

theorem holds_checkBody (stmts : List Stmt) (checker : Checker)
    (admits : ∀ stmt ∈ stmts, Admits holds stmt.Stops)
    (called : Serves holds (BodyCalls stmts checker)) : holds _ (checkBody stmts) checker := by
  induction stmts generalizing checker with
  | nil => exact Follows.pure _ checker
  | cons stmt stmts ih =>
    obtain ⟨first, others⟩ := List.forall_mem_cons.1 admits
    refine Follows.bind (holds_checkInner stmt checker first fun calls => called (.head calls))
      fun head middle done => holds_map ?_
    exact ih middle others fun calls => called (.tail done calls)

theorem always_bindParams (params : List Param) : Always holds (bindParams params) := by
  induction params with
  | nil => exact Follows.pure _
  | cons param params ih =>
    exact (always_newSlot _).bind fun _ => Always.bind (Assigns.rebind _ _) fun _ => ih

theorem holds_checkInside (args : List Param) (outputs : List Binding) (body : List Stmt)
    (checker : Checker) (enters : Always holds (modify (·.entering outputs)))
    (admits : ∀ stmt ∈ body, Admits holds stmt.Stops)
    (called : ∀ bound, bindParams args checker = .ok () bound →
      Serves holds (BodyCalls body (bound.entering outputs))) :
    holds _ (checkInside args outputs body) checker := by
  refine Follows.bind (always_bindParams args checker) fun _ bound done => ?_
  refine Follows.bind (enters bound) fun _ entered same => ?_
  cases same
  exact holds_checkBody body _ admits (called bound done)

end

end Checker

end NodeFormula
