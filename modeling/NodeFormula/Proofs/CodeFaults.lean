import NodeFormula.Proofs.Soundness

/-!
# The faults of compiling accepted formulas

Operations are made only after the whole formula has been checked.  By then a later statement may
have given a variable another type, so that a value cannot be divided among several targets any
more.  And the results that a constant is assigned to are looked up in the function whose body was
entered last, which is another one after a call.  Nothing else goes wrong with an accepted
formula, apart from what is not supported.
-/

namespace NodeFormula

open List Option Checker

variable {value : TypedExpr} {functions : FunctionTable} {kind : TreeKind}

/-! ## What is compiled, and with which results -/

mutual

/-- The functions whose bodies are entered to compile an expression, in this order. -/
def TypedExpr.entered : TypedExpr → List TypedFunction
  | .const _ _ => []
  | .var _ => []
  | .nodeCall _ _ args => TypedExpr.enteredAll args
  | .functionCall _ function args => TypedExpr.enteredAll args ++ function.entered
  | .output _ value _ => value.entered

def TypedExpr.enteredAll : List TypedExpr → List TypedFunction
  | [] => []
  | expr :: exprs => expr.entered ++ TypedExpr.enteredAll exprs

def TypedFunction.entered : TypedFunction → List TypedFunction
  | .mk inputs outputs body used isGroup name =>
    .mk inputs outputs body used isGroup name :: TypedStmt.enteredAll body

def TypedStmt.entered : TypedStmt → List TypedFunction
  | .expr value => value.entered
  | .assign _ value => value.entered
  | .out _ value => value.entered

def TypedStmt.enteredAll : List TypedStmt → List TypedFunction
  | [] => []
  | stmt :: stmts => stmt.entered ++ TypedStmt.enteredAll stmts

end

namespace TypedFunction

def lastResults (functions : List TypedFunction) (results : Option (List Binding)) :
    Option (List Binding) :=
  (functions.getLast?.map (·.outputs)).or results

theorem lastResults_append (first second : List TypedFunction) (results : Option (List Binding)) :
    lastResults (first ++ second) results = lastResults second (lastResults first results) := by
  rw [lastResults, lastResults, getLast?_append]
  cases second.getLast? with
  | none => rfl
  | some => rfl

theorem lastResults_cons (function : TypedFunction) (functions : List TypedFunction)
    (results : Option (List Binding)) :
    lastResults (function :: functions) results = lastResults functions (some function.outputs) :=
  lastResults_append [function] functions results

theorem isSome_lastResults (functions : List TypedFunction) (isSome : results.isSome = true) :
    (lastResults functions results).isSome = true := by
  rw [lastResults, isSome_or, isSome, Bool.or_true]

end TypedFunction

namespace TypedStmt

/-- The value of an assignment to several targets can be divided. -/
def Divisible : TypedStmt → Prop
  | .assign targets value =>
    1 < targets.length → value.info.stack ≠ .struct → (∀ info held, value ≠ .const info held) →
      value.info.firstType = .vec3 ∨ value.info.firstType = .rgba
  | _ => True

/-- The result that a constant is assigned to is one of the given results. -/
def InRange (results : Option (List Binding)) : TypedStmt → Prop
  | .out (some index :: _) (.const _ _) => index < (results.getD []).length
  | _ => True

def AllInRange : Option (List Binding) → List TypedStmt → Prop
  | _, [] => True
  | results, stmt :: stmts =>
    stmt.InRange results ∧ AllInRange (TypedFunction.lastResults stmt.entered results) stmts

end TypedStmt

namespace TypedFunction

def AllDivide (functions : List TypedFunction) : Prop :=
  ∀ function ∈ functions, ∀ stmt ∈ function.body, stmt.Divisible

def AllInRange (functions : List TypedFunction) : Prop :=
  ∀ function ∈ functions, TypedStmt.AllInRange (some function.outputs) function.body

end TypedFunction

namespace Compiler

/-! ## How compiling ends -/

/--
Compiling ends well, with the results of the function entered last; or something is not supported, a
value is not divisible, or a result does not exist.
-/
def Ends {α : Type} (last : Option (List Binding)) (divisible inRange : Prop) :
    Except Fault (α × Option (List Binding)) → Prop
  | .ok (_, after) => after = last ∧ divisible ∧ inRange
  | .error fault =>
    (∃ message, fault = .notSupported message) ∨
      (fault = .broken "Unreachable, bug in type checker" ∧ ¬divisible) ∨
      (fault = .listIndex ∧ ¬inRange)

section Ending

theorem ends_pure (answer : α) : Ends state True True ((pure answer : Compile α) state) :=
  ⟨rfl, trivial, trivial⟩

theorem Ends.congr {result : Except Fault (α × Option (List Binding))}
    (ends : Ends last divisible inRange result) (sameDivisible : divisible ↔ divisibleToo)
    (sameInRange : inRange ↔ inRangeToo) : Ends last divisibleToo inRangeToo result := by
  rwa [propext sameDivisible, propext sameInRange] at ends

theorem Ends.of_true {result : Except Fault (α × Option (List Binding))}
    (ends : Ends last True True result) (divides : divisible) (inside : inRange) :
    Ends last divisible inRange result :=
  ends.congr (iff_of_true trivial divides) (iff_of_true trivial inside)

theorem Ends.bind {next : α → Compile β} (first : Ends middle divisible inRange (step state))
    (second : ∀ value, Ends last divisibleToo inRangeToo (next value middle)) :
    Ends last (divisible ∧ divisibleToo) (inRange ∧ inRangeToo) ((step >>= next) state) := by
  cases stepped : step state with
  | error fault =>
    have failed : (step >>= next) state = .error fault := by
      simp only [Bind.bind, StateT.bind, stepped, Except.bind]
    rw [stepped] at first
    rw [failed]
    rcases first with unsupported | ⟨isBroken, indivisible⟩ | ⟨isIndex, outOfRange⟩
    · exact .inl unsupported
    · exact .inr (.inl ⟨isBroken, fun both => indivisible both.1⟩)
    · exact .inr (.inr ⟨isIndex, fun both => outOfRange both.1⟩)
  | ok result =>
    obtain ⟨value, after⟩ := result
    rw [stepped] at first
    obtain ⟨rfl, divides, inside⟩ := first
    have continued : (step >>= next) state = next value after := by
      simp only [Bind.bind, StateT.bind, stepped, Except.bind]
    rw [continued]
    exact (second value).congr (by simp [divides]) (by simp [inside])

theorem Ends.andThen {next : α → Compile β} (first : Ends last divisible inRange (step state))
    (second : ∀ value, Ends last True True (next value last)) :
    Ends last divisible inRange ((step >>= next) state) :=
  (first.bind second).congr (and_iff_left trivial) (and_iff_left trivial)

theorem ends_liftM {step : Except Fault α}
    (supported : ∀ fault, step = .error fault → ∃ message, fault = .notSupported message) :
    Ends state True True ((liftM step : Compile α) state) := by
  cases step with
  | ok value => exact ends_pure value
  | error fault => exact .inl (supported fault rfl)

end Ending

section Values

theorem ends_constType (typed : info.types ≠ []) {next : DataType → Compile α}
    (ends : Ends last divisible inRange (next info.firstType state)) :
    Ends last divisible inRange (((liftM (constType info) : Compile DataType) >>= next) state) := by
  rw [constType]
  cases types : info.types with
  | nil => exact absurd types typed
  | cons =>
    rw [TypeInfo.firstType, types] at ends
    exact ends

theorem createInput_supported {value : Option Value}
    (format : ∀ held, value = some held → type = .vec3 → ∃ a b c, held = .vector [a, b, c])
    (fault : Fault) (failed : kind.createInput name value type = .error fault) :
    ∃ message, fault = .notSupported message := by
  cases type with
  | float | unknown | bool | int | rgba | string => cases failed
  | vec3 =>
    cases kind with
    | geometry => cases failed
    | shader =>
      cases value with
      | none => cases failed
      | some held =>
        obtain ⟨_, _, _, rfl⟩ := format held rfl rfl
        cases failed
  | _ => exact ⟨_, (Except.error.inj failed).symm⟩

theorem ends_splitFor {count : Nat}
    (typed : 1 < count → value.info.stack ≠ .struct → value.info.types ≠ []) :
    Ends state
      (1 < count → value.info.stack ≠ .struct →
        value.info.firstType = .vec3 ∨ value.info.firstType = .rgba) True
      ((liftM (splitFor count value single) : Compile (List Operation)) state) := by
  rw [splitFor]
  by_cases isSeveral : 1 < count
  · rw [if_pos isSeveral, splitValue]
    by_cases isStruct : value.info.stack = .struct
    · rw [if_pos isStruct]
      exact ⟨rfl, fun _ noStruct => absurd isStruct noStruct, trivial⟩
    · rw [if_neg isStruct, TypeInfo.firstType]
      cases types : value.info.types with
      | nil => exact absurd types (typed isSeveral isStruct)
      | cons first =>
        cases first with
        | vec3 => exact ⟨rfl, fun _ _ => .inl rfl, trivial⟩
        | rgba => exact .inl ⟨_, rfl⟩
        | _ =>
          refine .inr (.inl ⟨rfl, fun divides => ?_⟩)
          rcases divides isSeveral isStruct with isVector | isColour
          · cases isVector
          · cases isColour
  · rw [if_neg isSeveral]
    exact ⟨rfl, fun isSeveralToo => absurd isSeveralToo isSeveral, trivial⟩

end Values

/-! ## Statements -/

section Statements

theorem ends_createInput {value : Option Value} (name : String)
    (format : ∀ held, value = some held → type = .vec3 → ∃ a b c, held = .vector [a, b, c]) :
    Ends state True True
      ((liftM (kind.createInput name value type) : Compile (List Operation)) state) :=
  ends_liftM (createInput_supported format)

theorem ends_assign_const (format : TypedExpr.HasFormat (.const info held)) :
    Ends state True True (compileStmt kind (.assign targets (.const info held)) state) := by
  obtain ⟨_, isType, _⟩ := format info held rfl
  rcases targets with _ | ⟨_ | target, others⟩
  case cons.some =>
    refine ends_constType (by rw [isType]; exact cons_ne_nil _ _) ?_
    exact (ends_createInput target.id (Builder.format_of_hasFormat format)).andThen
      fun _ => ends_pure _
  all_goals
    rw [compileStmt]
    · exact ends_pure _
    · rintro _ _ ⟨⟩

theorem ends_out_const (format : TypedExpr.HasFormat (.const info held))
    (grounded : state.isSome = true ∨ targets.reduceOption = []) :
    Ends state True (TypedStmt.InRange state (.out targets (.const info held)))
      (compileStmt kind (.out targets (.const info held)) state) := by
  obtain ⟨_, isType, _⟩ := format info held rfl
  rcases targets with _ | ⟨_ | index, others⟩
  case cons.some =>
    rcases grounded with isSome | noResult
    · obtain ⟨outputs, rfl⟩ := isSome_iff_exists.1 isSome
      rw [compileStmt, bind_get]
      cases found : outputs[index]? with
      | none =>
        simp only [found]
        exact .inr (.inr ⟨rfl, Nat.not_lt.2 (getElem?_eq_none_iff.1 found)⟩)
      | some output =>
        simp only [found]
        have inside := (List.getElem?_eq_some_iff.1 found).1
        refine .of_true ?_ trivial inside
        refine ends_constType (by rw [isType]; exact cons_ne_nil _ _) ?_
        exact (ends_createInput output.name (Builder.format_of_hasFormat format)).andThen
          fun _ => ends_pure _
    · simp at noResult
  all_goals
    rw [compileStmt]
    · exact ends_pure _
    · rintro _ _ ⟨⟩

end Statements

end Compiler

namespace TypedFunction

theorem allDivide_append (first second : List TypedFunction) :
    AllDivide (first ++ second) ↔ AllDivide first ∧ AllDivide second := forall_mem_append

theorem allInRange_append (first second : List TypedFunction) :
    AllInRange (first ++ second) ↔ AllInRange first ∧ AllInRange second := forall_mem_append

end TypedFunction

namespace Compiler

open TypedFunction (lastResults AllDivide AllInRange)

mutual

theorem ends_expr (kind : TreeKind) : ∀ (expr : TypedExpr) (state : Option (List Binding)),
    expr.WellMade True →
    Ends (lastResults expr.entered state) (AllDivide expr.entered) (AllInRange expr.entered)
      (compileExpr kind expr state)
  | .const _ _, _, _ => by
    exact (ends_pure _).of_true nofun nofun
  | .var reference, _, made => by
    rw [compileExpr]
    refine Ends.of_true ?_ nofun nofun
    by_cases isFresh : reference.isFresh = true
    · rw [if_pos isFresh]
      have noValue : ∀ held, (none : Option Value) = some held →
          reference.info.firstType = .vec3 → ∃ a b c, held = .vector [a, b, c] := nofun
      refine ends_constType (made trivial) ?_
      exact (ends_createInput reference.id noValue).andThen fun _ => ends_pure _
    · rw [if_neg isFresh]
      exact ends_pure _
  | .nodeCall _ _ args, state, made => by
    obtain ⟨_, _, argsMade⟩ := made
    exact (ends_args kind args state argsMade).andThen fun _ => ends_pure _
  | .functionCall _ function args, state, made => by
    obtain ⟨functionMade, _, argsMade⟩ := made
    rw [TypedExpr.entered, compileExpr, TypedFunction.lastResults_append,
      TypedFunction.allDivide_append, TypedFunction.allInRange_append]
    refine (ends_args kind args state argsMade).bind fun _ => ?_
    exact (ends_function kind function _ functionMade).andThen fun _ => ends_pure _
  | .output _ value _, state, made => by
    exact (ends_expr kind value state made).andThen fun _ => ends_pure _

theorem ends_args (kind : TreeKind) : ∀ (args : List TypedExpr) (state : Option (List Binding)),
    TypedExpr.AllWellMade True args →
    Ends (lastResults (TypedExpr.enteredAll args) state) (AllDivide (TypedExpr.enteredAll args))
      (AllInRange (TypedExpr.enteredAll args)) (compileArgs kind args state)
  | [], _, _ => by
    exact (ends_pure _).of_true nofun nofun
  | arg :: args, state, made => by
    obtain ⟨argMade, argsMade⟩ := made
    rw [TypedExpr.enteredAll, compileArgs, TypedFunction.lastResults_append,
      TypedFunction.allDivide_append, TypedFunction.allInRange_append]
    refine (ends_expr kind arg state argMade).bind fun _ => ?_
    exact (ends_args kind args _ argsMade).andThen fun _ => ends_pure _

theorem ends_function (kind : TreeKind) : ∀ (function : TypedFunction)
    (state : Option (List Binding)), function.WellMade →
    Ends (lastResults function.entered state) (AllDivide function.entered)
      (AllInRange function.entered) (compileFunction kind function state)
  | .mk inputs outputs body _ isGroup name, _, made => by
    rw [TypedFunction.entered, TypedFunction.lastResults_cons, AllDivide, AllInRange,
      forall_mem_cons, forall_mem_cons, compileFunction]
    have calling (operations : List Operation) (last : Option (List Binding)) :
        Ends last True True ((if isGroup then pure (.callNodeGroup name inputs outputs operations)
          else pure (.callFunction (inputs.map (·.name)) operations outputs.length) :
            Compile Operation) last) := by
      cases isGroup <;> exact ends_pure _
    have bodyEnds := ends_stmts kind body (some outputs) made (.inl rfl)
    exact bodyEnds.andThen fun operations => calling operations _

theorem ends_stmt (kind : TreeKind) : ∀ (stmt : TypedStmt) (state : Option (List Binding)),
    stmt.WellMade True → state.isSome = true ∨ stmt.results = [] →
    Ends (lastResults stmt.entered state) (stmt.Divisible ∧ AllDivide stmt.entered)
      (stmt.InRange state ∧ AllInRange stmt.entered) (compileStmt kind stmt state)
  | .expr value, state, made, _ => by
    have ends := (ends_expr kind value state made).andThen fun code =>
      ends_pure (code ++ [Operation.endOfStatement])
    exact ends.congr (and_iff_right trivial).symm (and_iff_right trivial).symm
  | .assign _ value, state, made, _ => by
    obtain ⟨valueMade, format, typed⟩ := made
    rw [TypedStmt.entered]
    by_cases isConstant : ∃ info held, value = .const info held
    · obtain ⟨info, held, rfl⟩ := isConstant
      refine (ends_assign_const format).of_true ⟨?_, nofun⟩ ⟨trivial, nofun⟩
      intro _ _ noConstant
      exact absurd rfl (noConstant info held)
    · have noConstant := Builder.ne_const_of_not_exists isConstant
      rw [compileStmt]
      · refine Ends.congr ((ends_expr kind value state valueMade).bind fun _ =>
          (ends_splitFor fun several _ => typed trivial several).andThen fun _ => ends_pure _) ?_ ?_
        · rw [and_comm, TypedStmt.Divisible]
          refine and_congr_left fun _ => ?_
          simp only [noConstant, ne_eq, not_false_eq_true, forall_const]
        · exact and_comm.trans (and_congr_left fun _ => iff_of_true trivial trivial)
      · exact noConstant
  | .out targets value, state, made, grounded => by
    obtain ⟨valueMade, format, isStruct⟩ := made
    rw [TypedStmt.entered]
    by_cases isConstant : ∃ info held, value = .const info held
    · obtain ⟨_, _, rfl⟩ := isConstant
      exact (ends_out_const format grounded).congr (iff_of_true trivial ⟨trivial, nofun⟩)
        (and_iff_left nofun).symm
    · have noConstant := Builder.ne_const_of_not_exists isConstant
      have inRange : (TypedStmt.out targets value).InRange state := by
        rw [TypedStmt.InRange]
        · trivial
        · rintro _ _ info held ⟨⟩
          exact noConstant info held rfl
      rw [compileStmt]
      · refine Ends.congr ((ends_expr kind value state valueMade).bind fun _ =>
          (ends_splitFor fun several noStruct => absurd (isStruct several) noStruct).andThen
            fun _ => ends_pure _) ?_ ?_
        · rw [and_comm]
          refine and_congr_left fun _ => iff_of_true ?_ trivial
          intro several noStruct
          exact absurd (isStruct several) noStruct
        · exact and_comm.trans (and_congr_left fun _ => iff_of_true trivial inRange)
      · exact noConstant

theorem ends_stmts (kind : TreeKind) : ∀ (stmts : List TypedStmt) (state : Option (List Binding)),
    TypedStmt.AllWellMade True stmts →
    state.isSome = true ∨ (∀ stmt ∈ stmts, stmt.results = []) →
    Ends (lastResults (TypedStmt.enteredAll stmts) state)
      ((∀ stmt ∈ stmts, stmt.Divisible) ∧ AllDivide (TypedStmt.enteredAll stmts))
      (TypedStmt.AllInRange state stmts ∧ AllInRange (TypedStmt.enteredAll stmts))
      (compileStmts kind stmts state)
  | [], _, _, _ => by
    exact (ends_pure _).of_true ⟨nofun, nofun⟩ ⟨trivial, nofun⟩
  | stmt :: stmts, state, made, grounded => by
    obtain ⟨stmtMade, stmtsMade⟩ := made
    have headGrounded : state.isSome = true ∨ stmt.results = [] :=
      grounded.imp_right fun noResults => noResults stmt mem_cons_self
    have tailGrounded : (lastResults stmt.entered state).isSome = true ∨
        ∀ other ∈ stmts, other.results = [] :=
      grounded.imp (TypedFunction.isSome_lastResults _)
        fun noResults other member => noResults other (mem_cons_of_mem _ member)
    rw [TypedStmt.enteredAll, compileStmts, TypedFunction.lastResults_append,
      TypedFunction.allDivide_append, TypedFunction.allInRange_append, forall_mem_cons,
      TypedStmt.AllInRange]
    have ends := (ends_stmt kind stmt state stmtMade headGrounded).bind fun code =>
      (ends_stmts kind stmts _ stmtsMade tailGrounded).andThen fun others =>
        ends_pure (code ++ others)
    exact ends.congr (by tauto) (by tauto)

end

end Compiler

namespace TypedStmt

def AllDivisible (stmts : List TypedStmt) : Prop :=
  (∀ stmt ∈ stmts, stmt.Divisible) ∧ TypedFunction.AllDivide (enteredAll stmts)

/-- In the functions that some statements enter, constants go to existing results. -/
def ResultsExist (stmts : List TypedStmt) : Prop := TypedFunction.AllInRange (enteredAll stmts)

theorem allInRange_of_results (noResults : ∀ stmt ∈ stmts, stmt.results = [])
    (results : Option (List Binding)) : AllInRange results stmts := by
  induction stmts generalizing results with
  | nil => trivial
  | cons _ _ ih =>
    rw [forall_mem_cons] at noResults
    refine ⟨?_, ih noResults.2 _⟩
    rw [InRange.eq_def]
    split
    · cases noResults.1
    · trivial

theorem results_settle (slots : SlotTable) (stmt : TypedStmt) :
    (stmt.settle slots).results = stmt.results := by
  cases stmt with
  | expr => rfl
  | out => rfl
  | assign targets value =>
    obtain ⟨_, same⟩ := settle_assign targets value slots
    rw [same]
    rfl

end TypedStmt

namespace Compiler

theorem ends_settledBody [Evaluator] (produced : Produced functions)
    (checked : (new kind functions).check source = (checker, .ok true)) :
    Ends (TypedFunction.lastResults (TypedStmt.enteredAll checker.settledBody) none)
      (TypedStmt.AllDivisible checker.settledBody) (TypedStmt.ResultsExist checker.settledBody)
      (compileStmts kind checker.settledBody none) := by
  have finished := finished_check produced.wellMade checked
  have noResults : ∀ stmt ∈ checker.settledBody, stmt.results = [] := by
    intro _ member
    obtain ⟨unsettled, listed, rfl⟩ := mem_map.1 member
    exact (TypedStmt.results_settle _ _).trans (finished.body unsettled listed).2
  have ends := ends_stmts kind checker.settledBody none finished.settledBody (.inr noResults)
  exact ends.congr Iff.rfl (and_iff_right (TypedStmt.allInRange_of_results noResults none))

theorem compile_of_check [Evaluator]
    (checked : (new kind functions).check source = (checker, .ok true)) :
    (compile kind functions source).2 = (compileStmts kind checker.settledBody none).map
      fun result => ⟨true, checker.reports, result.1, checker.functions⟩ := by
  rw [compile, checked]
  dsimp only [StateT.run]
  cases compileStmts kind checker.settledBody none <;> rfl

end Compiler

/--
Compiling an accepted formula.  If it ends well, every value that is divided is divisible, and every
constant that is assigned to a result is assigned to one of the function entered last.  Otherwise
something is not supported, or the fault is exactly the one for such a value or result.
-/
theorem faults_of_accepted [Evaluator] (kind : TreeKind) {functions : FunctionTable}
    {source : String} (produced : Compiler.Produced functions)
    (accepted : ((new kind functions).check source).2 = .ok true) :
    (∀ outcome, (Compiler.compile kind functions source).2 = .ok outcome →
      outcome.accepted = true ∧
      TypedStmt.AllDivisible (Compiler.typedBody kind functions source) ∧
      TypedStmt.ResultsExist (Compiler.typedBody kind functions source)) ∧
    (∀ fault, (Compiler.compile kind functions source).2 = .error fault →
      (∃ message, fault = .notSupported message) ∨
      (fault = .broken "Unreachable, bug in type checker" ∧
        ¬TypedStmt.AllDivisible (Compiler.typedBody kind functions source)) ∨
      (fault = .listIndex ∧
        ¬TypedStmt.ResultsExist (Compiler.typedBody kind functions source))) := by
  have checked : (new kind functions).check source =
      (((new kind functions).check source).1, .ok true) := Prod.ext rfl accepted
  have ends := Compiler.ends_settledBody produced checked
  rw [Compiler.compile_of_check checked, Compiler.typedBody]
  constructor
  · intro outcome compiled
    cases done : Compiler.compileStmts kind
        ((new kind functions).check source).1.settledBody none with
    | error fault =>
      rw [done] at compiled
      cases compiled
    | ok result =>
      rw [done] at compiled ends
      cases compiled
      exact ⟨rfl, ends.2⟩
  · intro fault compiled
    cases done : Compiler.compileStmts kind
        ((new kind functions).check source).1.settledBody none with
    | error fault =>
      rw [done] at compiled ends
      cases compiled
      exact ends
    | ok result =>
      rw [done] at compiled
      cases compiled

def constantAfterCall : String :=
  "fn f(a: float) -> r: float { out r = a + 1; } " ++
    "fn g(a: float) -> p: float, q: float { out p = f(a); out q = 2.0; } g(1.0);"

/-- The second result is looked up in the function called before, which has one. -/
theorem faults_of_accepted_call :
    ((new .geometry []).check constantAfterCall).2 = .ok true ∧
      (Compiler.compile .geometry [] constantAfterCall).2 = .error .listIndex ∧
      ¬TypedStmt.ResultsExist (Compiler.typedBody .geometry [] constantAfterCall) := by
  obtain ⟨accepted, failed⟩ : ((new .geometry []).check constantAfterCall).2 = .ok true ∧
      (Compiler.compile .geometry [] constantAfterCall).2 = .error .listIndex := by decide +kernel
  refine ⟨accepted, failed, ?_⟩
  rcases (faults_of_accepted .geometry .none accepted).2 _ failed with
    ⟨message, isUnsupported⟩ | ⟨isBroken, _⟩ | ⟨_, missing⟩
  · cases isUnsupported
  · cases isBroken
  · exact missing

/-- The last statement makes `p` a float, but it was divided before. -/
theorem divided_variable_retyped :
    ((new .geometry []).check "p = position(); a, b = p; sqrt(p);").2 = .ok true ∧
      (Compiler.compile .geometry [] "p = position(); a, b = p; sqrt(p);").2 =
        .error (.broken "Unreachable, bug in type checker") := by
  decide +kernel

/-! ## The labels of constants -/

def FunctionTable.SetsOwn (functions : FunctionTable) : Prop :=
  ∀ entry ∈ functions, ∀ function ∈ entry.2, ∀ stmt ∈ function.body, ∀ index ∈ stmt.results,
    index < function.outputs.length

theorem Checker.DerivesBody.results_lt {after}
    (derived : DerivesBody checker stmts after) :
    ∀ stmt ∈ stmts, ∀ index ∈ stmt.results, index < checker.outputs.length := by
  induction derived with
  | nil => exact nofun
  | cons head _ ih =>
    refine forall_mem_cons.2 ⟨head.results_lt, ?_⟩
    obtain ⟨_, _, _, rfl⟩ := head.frame
    exact ih

theorem Checker.DerivesTop.setsOwn {after : Checker} (owned : checker.functions.SetsOwn)
    (derived : DerivesTop checker typed after) : after.functions.SetsOwn := by
  cases derived with
  | stmt derived =>
    obtain ⟨_, _, _, rfl⟩ := derived.frame
    exact owned
  | definition binds derived =>
    have inside := derived.results_lt
    obtain ⟨_, _, rfl⟩ := binds.frame
    obtain ⟨_, _, _, rfl⟩ := derived.frame
    intro entry listed function inEntry
    rcases mem_insertFunction listed inEntry with rfl | ⟨entry, listed, inEntry⟩
    · intro _ member index set_
      obtain ⟨unsettled, listed, rfl⟩ := mem_map.1 member
      rw [TypedStmt.results_settle] at set_
      exact inside unsettled listed index set_
    · exact owned entry listed function inEntry

theorem Compiler.Produced.setsOwn [Evaluator] (produced : Produced functions) :
    functions.SetsOwn := by
  induction produced with
  | none => exact nofun
  | next _ compiled accepted ih =>
    obtain ⟨_, _, checked, rfl, _⟩ := compile_eq_accepted compiled accepted
    obtain ⟨_, _, done⟩ := check_eq_true checked
    exact checkStmts_keeps Checker.DerivesTop.setsOwn ih done

/--
The label of a constant that the body of a function assigns to a result.  An expression leaves
behind the results of the function that it entered last, so the label is the name of one of these,
and there is a fault if they are too few.
-/
theorem label_of_result_constant [Evaluator] (kind : TreeKind) {functions : FunctionTable}
    {entry : String × List TypedFunction} {function : TypedFunction} {before later : List TypedStmt}
    {index : Nat} {others : List (Option Nat)} {info : TypeInfo} {value : Value}
    {code : List Operation} {results : Option (List Binding)}
    (produced : Compiler.Produced functions) (listed : entry ∈ functions)
    (inEntry : function ∈ entry.2)
    (body : function.body = before ++ .out (some index :: others) (.const info value) :: later)
    (compiled : Compiler.compileStmts kind before (some function.outputs) = .ok (code, results)) :
    (∀ (expr : TypedExpr) state code after, expr.WellMade True →
      Compiler.compileExpr kind expr state = .ok (code, after) →
        after = TypedFunction.lastResults expr.entered state) ∧
    results = TypedFunction.lastResults (TypedStmt.enteredAll before) (some function.outputs) ∧
    (TypedStmt.enteredAll before = [] →
      results = some function.outputs ∧ index < function.outputs.length) ∧
    (∀ operations after, Compiler.compileStmt kind (.out (some index :: others)
        (.const info value)) results = .ok (operations, after) →
      ∃ (output : Binding) (node : InputNode), (results.getD [])[index]? = some output ∧
        kind.inputNode? (some value) info.firstType = some node ∧ after = results ∧
        operations = node.operations output.name ++ [Operation.setFunctionOut index] ++
          [Operation.endOfStatement]) ∧
    ∀ fault, Compiler.compileStmt kind (.out (some index :: others) (.const info value)) results =
        .error fault →
      (∃ message, fault = .notSupported message) ∨
        fault = .listIndex ∧ (results.getD []).length ≤ index := by
  have made : TypedStmt.AllWellMade True function.body := by
    have made := produced.wellMade entry listed function inEntry
    cases function
    rwa [TypedFunction.WellMade] at made
  rw [TypedStmt.allWellMade_iff, body] at made
  have beforeMade := (TypedStmt.allWellMade_iff before).2 fun stmt member =>
    made stmt (mem_append_left _ member)
  have ends := Compiler.ends_stmts kind before (some function.outputs) beforeMade (.inl rfl)
  rw [compiled] at ends
  obtain ⟨rfl, _⟩ := ends
  refine ⟨?_, rfl, fun noCalls => ⟨?_, ?_⟩, fun _ _ => Compiler.compileStmt_out_const_eq_ok, ?_⟩
  · intro expr state code after exprMade done
    have ends := Compiler.ends_expr kind expr state exprMade
    rw [done] at ends
    exact ends.1
  · rw [noCalls]
    rfl
  · refine produced.setsOwn entry listed function inEntry
      (.out (some index :: others) (.const info value)) ?_ index mem_cons_self
    rw [body]
    exact mem_append_right _ mem_cons_self
  · intro fault failed
    obtain ⟨_, format, _⟩ := made _ (mem_append_right _ mem_cons_self)
    have inside : (TypedFunction.lastResults (TypedStmt.enteredAll before)
        (some function.outputs)).isSome = true := TypedFunction.isSome_lastResults _ rfl
    have ends : Compiler.Ends _ _ _ (Compiler.compileStmt kind (.out (some index :: others) _) _) :=
      Compiler.ends_out_const format (.inl inside)
    rw [failed] at ends
    rcases ends with unsupported | ⟨_, noDivision⟩ | ⟨isIndex, missing⟩
    · exact .inl unsupported
    · exact absurd trivial noDivision
    · exact .inr ⟨isIndex, Nat.not_lt.1 missing⟩

def labelAfterCall : String :=
  "fn g() -> q: float { out q = 1.0; } fn f(x: float) -> r: float { y = g(); out r = 2.0; } f(1.0);"

def thenConstant : List TypedStmt → Bool
  | [_, .out [some 0] (.const _ _)] => true
  | _ => false

theorem label_of_constant_after_call :
    ∃ functions entry function first info value code results, Compiler.Produced functions ∧
      entry ∈ functions ∧ function ∈ entry.2 ∧
      function.body = [first] ++ [.out [some 0] (.const info value)] ∧
      Compiler.compileStmts .geometry [first] (some function.outputs) = .ok (code, results) ∧
      results = TypedFunction.lastResults (TypedStmt.enteredAll [first])
        (some function.outputs) := by
  obtain ⟨functions, outcome, compiled, accepted, entry, listed, function, inEntry, result, done,
      late⟩ : ∃ functions outcome,
        Compiler.compile .geometry [] labelAfterCall = (functions, .ok outcome) ∧
        outcome.accepted = true ∧ ∃ entry ∈ functions, ∃ function ∈ entry.2, ∃ result,
          Compiler.compileStmts .geometry (function.body.take 1) (some function.outputs) =
            .ok result ∧
          thenConstant function.body = true := by decide +kernel
  have produced := Compiler.Produced.next .none compiled accepted
  unfold thenConstant at late
  split at late
  · rename_i first info value body
    rw [body] at done
    exact ⟨functions, entry, function, first, info, value, _, _, produced, listed, inEntry, body,
      done, (label_of_result_constant .geometry produced listed inEntry body done).2.1⟩
  · cases late

def Compiler.calledLabels [Evaluator] (kind : TreeKind) (source : String) : Option (List String) :=
  match (compile kind [] source).2 with
  | .ok ⟨true, _, [_, .callFunction _ body _, .endOfStatement], _⟩ =>
    some (body.filterMap fun
      | .renameNode name => some name
      | _ => none)
  | _ => none

/-- The constant for `r` is labelled with the result of the other function. -/
theorem label_after_call : Compiler.calledLabels .geometry labelAfterCall = some ["q"] := by
  decide +kernel

end NodeFormula
