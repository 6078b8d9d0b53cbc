import NodeFormula.Proofs.Loading
import NodeFormula.Session

/-!
# Compiling a formula again

The definitions of a formula stay in the library, so that a second compilation knows more
functions than the first one: at each statement also those that this and the later statements
define.  Both give the same operations as long as none of these takes a call away from what was
chosen first.
-/

namespace NodeFormula

open List Library

variable {functions : FunctionTable}

variable {library after : Library}

/-! ## Choosing among more candidates -/

namespace Callable

variable {library : List Callable}

/-- A candidate is not chosen if one of its own is no dearer, or one of a library is cheaper. -/
def Outranked (types : List DataType) (own library : List Callable) (callable : Callable) : Prop :=
  ∀ price, callable.price? types = some price →
    (∃ other ∈ own, ∃ best ≤ price, other.price? types = some best) ∨
      ∃ other ∈ library, ∃ best < price, other.price? types = some best

theorem Outranked.not_first (outranked : Outranked types own library callable) :
    ¬FirstCheapest types own callable library price := by
  intro first
  rcases outranked price first.priced with ⟨other, member, best, low, priced⟩ |
    ⟨other, member, best, low, priced⟩
  · exact Nat.not_lt.mpr low (first.dearer other member best priced)
  · exact Nat.not_lt.mpr (first.least other member best priced) low

theorem choose?_insert (outranked : Outranked types own library callable) :
    TreeKind.choose? (own ++ callable :: library) types =
      TreeKind.choose? (own ++ library) types := by
  rcases choose?_cases types (own ++ callable :: library) with
    ⟨nothing, dear⟩ | ⟨before, chosen, after, price, split, first, found⟩
  · rw [nothing]
    rcases choose?_cases types (own ++ library) with ⟨none, _⟩ | ⟨_, chosen, _, _, split, first, _⟩
    · exact none.symm
    · have listed : chosen ∈ own ++ library := split ▸ by simp
      have unpriced := dear chosen (by simp only [mem_append] at listed ⊢; tauto)
      cases unpriced.symm.trans first.priced
  · -- What is chosen stands before or behind the new candidate, and is the first without it.
    rw [found]
    rcases append_eq_append_iff.mp split with
      ⟨_ | ⟨_, between⟩, rfl, rest⟩ | ⟨_ | ⟨_, between⟩, rfl, rest⟩ <;> cases rest
    · rw [append_nil] at first
      exact absurd first outranked.not_first
    · have without : FirstCheapest types (own ++ between) chosen after price :=
        first.mono (by simp) (.refl _)
      exact (append_assoc own between _ ▸ without.choose?).symm
    · exact absurd first (append_nil before ▸ outranked.not_first)
    · have without : FirstCheapest types before chosen (between ++ library) price :=
        first.mono (.refl _) (by simp)
      rw [append_assoc]
      exact without.choose?.symm

theorem choose?_insertAll (outranked : ∀ callable ∈ extra, Outranked types own library callable) :
    TreeKind.choose? (own ++ (extra ++ library)) types =
      TreeKind.choose? (own ++ library) types := by
  induction extra with
  | nil => rfl
  | cons callable _ ih =>
    rw [cons_append, choose?_insert, ih fun other member => outranked other (.tail _ member)]
    intro price priced
    rcases outranked callable (.head _) price priced with known | ⟨other, member, cheaper⟩
    · exact .inl known
    · exact .inr ⟨other, mem_append_right _ member, cheaper⟩

end Callable

/-! ## Calls that stand -/

namespace TreeKind

def ownFunctions (name : String) (defined : List TypedFunction) : List TypedFunction :=
  (defined.filter (·.name = name)).reverse

/-- A call keeps its meaning when functions are added between those of the formula and a library. -/
def Stands (kind : TreeKind) (library : FunctionTable) (earlier later : List TypedFunction)
    (name : String) (types : List DataType) : Prop :=
  ∀ function ∈ later, function.name = name →
    let own := kind.nodesOf name ++ (ownFunctions name earlier).map Callable.function
    let known := ((library.lookup name).getD []).map Callable.function
    own ++ known ≠ [] ∧ Callable.Outranked types own known (.function function)

theorem mem_ownFunctions :
    function ∈ ownFunctions name defined ↔ function ∈ defined ∧ function.name = name := by
  simp [ownFunctions]

theorem ownFunctions_append (name : String) (first second : List TypedFunction) :
    ownFunctions name (first ++ second) = ownFunctions name second ++ ownFunctions name first := by
  simp [ownFunctions]

/-- The tables of the first and of the second compilation at the same statement. -/
def InStep (library : FunctionTable) (earlier later : List TypedFunction)
    (functions again : FunctionTable) : Prop :=
  ∀ name, (functions.lookup name).getD [] =
      ownFunctions name earlier ++ (library.lookup name).getD [] ∧
    (again.lookup name).getD [] = ownFunctions name earlier ++
      (ownFunctions name (earlier ++ later) ++ (library.lookup name).getD [])

theorem candidates_eq {kind : TreeKind} : kind.candidates functions name =
    if (kind.nodesOf name ++ ((functions.lookup name).getD []).map Callable.function).isEmpty
    then ((kind.ownAliases.lookup name).toList ++
      (Catalog.sharedAliases.lookup name).toList).map .node
    else kind.nodesOf name ++ ((functions.lookup name).getD []).map Callable.function := rfl

theorem choose?_of_stands {library : FunctionTable}
    (stands : Stands kind library earlier later name types)
    (inStep : InStep library earlier later functions again) :
    choose? (kind.candidates again name) types = choose? (kind.candidates functions name) types ∧
      (kind.candidates functions name ≠ [] → kind.candidates again name ≠ []) := by
  let own := kind.nodesOf name ++ (ownFunctions name earlier).map Callable.function
  let known : List Callable := ((library.lookup name).getD []).map Callable.function
  let extra : List Callable := (ownFunctions name (earlier ++ later)).map Callable.function
  have first : kind.nodesOf name ++ ((functions.lookup name).getD []).map Callable.function =
      own ++ known := by
    rw [(inStep name).1, map_append, ← append_assoc]
  have second : kind.nodesOf name ++ ((again.lookup name).getD []).map Callable.function =
      own ++ (extra ++ known) := by
    rw [(inStep name).2, map_append, map_append, ← append_assoc]
  rw [candidates_eq, candidates_eq, first, second]
  by_cases unknown : own ++ known = []
  · -- Nothing was known by this name, so nothing that is added goes by it.
    have noLater : ownFunctions name later = [] := by
      rw [eq_nil_iff_forall_not_mem]
      intro function member
      rw [mem_ownFunctions] at member
      exact (stands function member.1 member.2).1 unknown
    have noEarlier : ownFunctions name earlier = [] := by
      simp only [own, append_eq_nil_iff, map_eq_nil_iff] at unknown
      exact unknown.1.2
    have noExtra : extra = [] := by
      simp [extra, ownFunctions_append, noLater, noEarlier]
    rw [noExtra]
    exact ⟨rfl, id⟩
  · have isKnown : (own ++ known).isEmpty = false := by simpa using unknown
    have isKnownAgain : (own ++ (extra ++ known)).isEmpty = false := by
      simp only [isEmpty_eq_false_iff, ne_eq, append_eq_nil_iff] at unknown ⊢
      tauto
    rw [isKnown, isKnownAgain]
    refine ⟨Callable.choose?_insertAll ?_, fun _ => isEmpty_eq_false_iff.mp isKnownAgain⟩
    intro _ member
    obtain ⟨function, listed, rfl⟩ := mem_map.mp member
    rw [mem_ownFunctions, mem_append] at listed
    rcases listed with ⟨before | after, named⟩
    · intro price priced
      refine .inl ⟨_, mem_append_right _ (mem_map_of_mem ?_), price, Nat.le_refl _, priced⟩
      exact mem_ownFunctions.mpr ⟨before, named⟩
    · exact (stands function after named).2

end TreeKind

namespace Checker

/-! ## The second run -/

/-- A step that succeeds does the same with other functions. -/
def Mirrors (functions : FunctionTable) (α : Type) (step : Check α) (checker : Checker) : Prop :=
  ∀ answer after, step checker = .ok answer after →
    step { checker with functions } = .ok answer { after with functions }

instance (functions : FunctionTable) : Follows (Mirrors functions) where
  pure answer checker := by
    intro given after done
    cases done
    rfl
  bind := by
    intro α β step next checker first rest answer after done
    obtain ⟨value, middle, stepped, remaining⟩ := bind_eq_ok done
    simp only [Bind.bind, EStateM.bind, first value middle stepped]
    exact rest value middle stepped answer after remaining
  reject message token checker := fun _ _ done => absurd done reject_ne_ok
  stop fault checker := fun _ _ done => absurd done stop_ne_ok
  read := by
    intro β next checker blind rest answer after done
    have again := rest answer after done
    rw [← blind functions] at again
    exact again
  modify isLocal checker := by
    intro answer after done
    cases done
    exact congrArg (EStateM.Result.ok ()) (isLocal.commutes checker functions)
  bindName _ _ _ done := by
    cases done
    rfl

instance Mirrors.assigns (functions : FunctionTable) : Assigns (Mirrors functions) where
  rebind _ _ _ _ _ done := by
    cases done
    rfl

theorem Mirrors.admits : Admits (Mirrors functions) stops :=
  fun _ _ _ _ done => absurd done stop_ne_ok

theorem mirrors_call (stands : ∀ types, firstTypes args state = .ok types state →
      TreeKind.choose? (state.kind.candidates functions name) types =
          TreeKind.choose? (state.kind.candidates state.functions name) types ∧
        (state.kind.candidates state.functions name ≠ [] →
          state.kind.candidates functions name ≠ [])) (token : Token) :
    Mirrors functions _ (call name args token) state := by
  intro _ _ done
  obtain ⟨resolved, middle, resolving, answered⟩ := bind_eq_ok done
  cases resolved with
  | error => exact absurd answered reject_ne_ok
  | ok found =>
    obtain ⟨callable, passed⟩ := found
    obtain ⟨types, listed, typed, chosen, passing⟩ := resolve_steps resolving
    obtain ⟨same, listedAgain⟩ := stands types typed
    have mirrored {α : Type} {step : Check α} (always : Always (Mirrors functions) step) :=
      always state
    have typedAgain := mirrored (always_firstTypes args) types state typed
    have passingAgain := mirrored (always_passArgs args callable.inputTypes) passed middle passing
    have again : resolve name args { state with functions } =
        .ok (.ok (callable, passed)) { middle with functions } := by
      rw [← same] at chosen
      rw [resolve_of_known (listedAgain listed), resolveAmong]
      simp only [Bind.bind, EStateM.bind, typedAgain, chosen, passingAgain]
      rfl
    rw [call]
    rw [bind_of_ok again]
    cases callable <;> (cases answered; rfl)

/-! ## Calls and the functions they see -/

mutual

theorem Calls.same : ∀ {expr checker state name args}, Calls expr checker name args state →
    SameTables checker state
  | _, _, _, _, _, .own checked _ =>
    Ended.same (fun _ => True) (holds_checkExprs _ _ (fun _ _ => .admits fun _ _ => trivial)
      fun _ token => always_call _ _ token _) checked
  | _, _, _, _, _, .operand inside => inside.same

theorem CallsAny.same : ∀ {exprs checker state name args}, CallsAny exprs checker name args state →
    SameTables checker state
  | _, _, _, _, _, .head inside => inside.same
  | _, _, _, _, _, .tail checked inside =>
      (Ended.same _ (ended_checkExpr (fun _ => id) _) checked).trans inside.same

end

theorem InnerCalls.same (calls : InnerCalls stmt checker name args state) :
    SameTables checker state := by
  cases calls with
  | expr inside => exact inside.same
  | assign inside => exact inside.same
  | out listed inside =>
    exact (Ended.same (fun _ => True) (always_outIndices _ _) listed).trans inside.same

theorem BodyCalls.same (calls : BodyCalls stmts checker name args state) :
    SameTables checker state := by
  induction calls with
  | head inside => exact inside.same
  | tail checked _ ih => exact (Ended.same _ (ended_checkInner _ _) checked).trans ih

theorem StmtCalls.same (calls : StmtCalls stmt checker name args state) :
    SameTables checker state := by
  cases calls with
  | inner inside => exact inside.same
  | body _ binding inside =>
    have bound := Ended.same (fun _ => True) (always_bindParams _ _) binding
    exact ⟨inside.same.kind.trans bound.kind, inside.same.functions.trans bound.functions⟩

/-! ## Statement by statement -/

def definedBy (after : Checker) : Stmt → List TypedFunction
  | .definition _ _ name _ _ _ => ((after.functions.lookup name).getD []).head?.toList
  | _ => []

def defined : List Stmt → Checker → List TypedFunction
  | [], _ => []
  | stmt :: stmts, checker =>
    match checkStmt stmt checker with
    | .ok typed after =>
      after.definedBy stmt ++ defined stmts { after with body := after.body ++ typed.toList }
    | .error _ _ => []

/-- All calls of a formula stand although its definitions are known from the start. -/
def Undisturbed (library : FunctionTable) (earlier : List TypedFunction) :
    List Stmt → Checker → Prop
  | [], _ => True
  | stmt :: stmts, checker =>
    (∀ name args state types, StmtCalls stmt checker name args state →
      firstTypes args state = .ok types state →
        checker.kind.Stands library earlier (defined (stmt :: stmts) checker) name types) ∧
    ∀ typed after, checkStmt stmt checker = .ok typed after →
      Undisturbed library (earlier ++ after.definedBy stmt) stmts
        { after with body := after.body ++ typed.toList }

section Statements

variable {after : Checker}

theorem definedBy_defining {inner args returns body}
    (named : function.name = name) : (defining checker inner function).definedBy
      (.definition form token name args body returns) = [function] := by
  rw [definedBy, defining, lookup_insertFunction, if_pos named]
  rfl

theorem definedBy_cases (done : checkStmt stmt checker = .ok typed after) :
    (stmt.isDefinition = false ∧ after.definedBy stmt = [] ∧ after.functions = checker.functions) ∨
    ∃ function, stmt.Declares checker.kind function ∧ after.definedBy stmt = [function] ∧
      after.functions = insertFunction checker.functions function := by
  cases concluded_of_eq done with
  | plain noDefinition same =>
    refine .inl ⟨noDefinition, ?_, same.functions⟩
    cases stmt with
    | definition => cases noDefinition
    | _ => rfl
  | @defined _ _ function declares _ _ functions _ =>
    refine .inr ⟨function, declares, ?_, functions⟩
    cases stmt with
    | definition =>
      rw [definedBy, functions, lookup_insertFunction, if_pos declares.1]
      rfl
    | _ => exact declares.elim

theorem defined_cons (done : checkStmt stmt checker = .ok typed after) (stmts : List Stmt) :
    defined (stmt :: stmts) checker =
      after.definedBy stmt ++ defined stmts { after with body := after.body ++ typed.toList } := by
  rw [defined, done]

theorem lookup_checkStmt (done : checkStmt stmt checker = .ok typed after) (name : String) :
    (after.functions.lookup name).getD [] = TreeKind.ownFunctions name (after.definedBy stmt) ++
      (checker.functions.lookup name).getD [] := by
  rcases definedBy_cases done with ⟨_, nothing, same⟩ | ⟨function, _, one, inserted⟩
  · rw [nothing, same]
    rfl
  · rw [one, inserted, lookup_insertFunction]
    by_cases named : function.name = name <;> simp [TreeKind.ownFunctions, named]

theorem lookup_checkStmts (done : checkStmts stmts checker = .ok () after) (name : String) :
    (after.functions.lookup name).getD [] = TreeKind.ownFunctions name (defined stmts checker) ++
        (checker.functions.lookup name).getD [] := by
  induction stmts generalizing checker with
  | nil =>
    cases done
    rfl
  | cons _ _ ih =>
    obtain ⟨_, _, checked, rest⟩ := checkStmts_cons_eq_ok done
    rw [ih rest, lookup_checkStmt checked, defined_cons checked, TreeKind.ownFunctions_append,
      append_assoc]

theorem mirrors_checkStmt (stands : ∀ name args state types,
      StmtCalls stmt checker name args state → firstTypes args state = .ok types state →
        TreeKind.choose? (checker.kind.candidates again name) types =
            TreeKind.choose? (checker.kind.candidates checker.functions name) types ∧
          (checker.kind.candidates checker.functions name ≠ [] →
            checker.kind.candidates again name ≠ []))
    (done : checkStmt stmt checker = .ok typed after) :
    checkStmt stmt { checker with functions := again } = .ok typed { after with
      functions := (after.definedBy stmt).foldl insertFunction again } := by
  have called {name : String} {args : List TypedExpr} {state : Checker}
      (calls : StmtCalls stmt checker name args state) (token : Token) :
      Mirrors again _ (call name args token) state := by
    refine mirrors_call (fun types typed => ?_) token
    have same := calls.same
    rw [same.kind, same.functions]
    exact stands name args state types calls typed
  rcases definedBy_cases done with ⟨noDefinition, nothing, _⟩ | ⟨function, declares, _⟩
  · rw [nothing]
    have plain : Mirrors again _ (checkStmt stmt) checker := by
      cases stmt with
      | definition => cases noDefinition
      | out token => exact Follows.reject _ token checker
      | _ =>
        exact holds_map (holds_checkInner _ checker .admits fun calls => called (.inner calls))
    exact plain typed after done
  · cases stmt with
    | definition _ _ _ args body returns =>
      obtain ⟨_, _, inputs, outputs⟩ := declares
      have outputsDone : checkParams returns checker = .ok function.outputs checker :=
        checkParams_of_mapM outputs
      rw [checkStmt_definition (checkParams_of_mapM inputs) outputsDone] at done
      cases inside : checkInside args function.outputs body { checker with vars := [] } with
      | error =>
        rw [inside] at done
        cases done
      | ok stmts inner =>
        rw [inside] at done
        have mirrored : Mirrors again _ (checkInside args function.outputs body)
            { checker with vars := [] } :=
          holds_checkInside _ _ _ _ (fun _ _ _ done => by cases done; rfl) (fun _ _ => .admits)
            fun _ binding _ _ _ calls => called (.body outputsDone binding calls)
        have insideAgain := mirrored stmts inner inside
        let other : Checker := { checker with functions := again }
        have inputsAgain : checkParams args other = .ok function.inputs other :=
          checkParams_of_mapM inputs
        have outputsAgain : checkParams returns other = .ok function.outputs other :=
          checkParams_of_mapM outputs
        rw [checkStmt_definition inputsAgain outputsAgain, insideAgain]
        cases done
        rw [definedBy_defining]
        · rfl
        · rfl
    | _ => exact declares.elim

theorem mirrors_checkStmts {library : FunctionTable}
    (undisturbed : Undisturbed library earlier stmts checker)
    (inStep : TreeKind.InStep library earlier (defined stmts checker) checker.functions again)
    (done : checkStmts stmts checker = .ok () after) :
    ∃ last, checkStmts stmts { checker with functions := again } =
      .ok () { after with functions := last } := by
  induction stmts generalizing checker earlier again with
  | nil =>
    cases done
    exact ⟨again, rfl⟩
  | cons stmt _ ih =>
    obtain ⟨typed, middle, checked, rest⟩ := checkStmts_cons_eq_ok done
    have mirrored := mirrors_checkStmt (fun name args state types calls typed =>
      TreeKind.choose?_of_stands (undisturbed.1 name args state types calls typed) inStep) checked
    rw [checkStmts_cons_ok mirrored]
    refine ih (undisturbed.2 typed middle checked) ?_ rest
    rw [defined_cons checked] at inStep
    intro name
    obtain ⟨first, second⟩ := inStep name
    rw [TreeKind.ownFunctions_append name earlier (middle.definedBy stmt), append_assoc,
      append_assoc]
    constructor
    · rw [lookup_checkStmt checked, first]
    · rw [lookup_foldl_insertFunction, second, append_assoc]
      rfl

end Statements

end Checker

/-! ## Definitions before calls -/

def Stmt.defines (name : String) : Stmt → Bool
  | .definition _ _ id _ _ _ => id == name
  | _ => false

namespace Checker

def Ordered : List Stmt → Prop
  | [] => True
  | stmt :: stmts => (∀ {checker name args state}, StmtCalls stmt checker name args state →
      (stmt :: stmts).any (·.defines name) = false) ∧ Ordered stmts

theorem any_defines (member : function ∈ defined stmts checker) :
    stmts.any (·.defines function.name) = true := by
  induction stmts generalizing checker with
  | nil => cases member
  | cons stmt _ ih =>
    rw [any_cons, Bool.or_eq_true]
    cases checked : checkStmt stmt checker with
    | error =>
      rw [defined, checked] at member
      cases member
    | ok =>
      rw [defined_cons checked, mem_append] at member
      rcases member with here | later
      · left
        rcases definedBy_cases checked with ⟨_, nothing, _⟩ | ⟨_, declares, isOne, _⟩
        · rw [nothing] at here
          cases here
        · rw [isOne, mem_singleton] at here
          subst here
          cases stmt with
          | definition => exact beq_iff_eq.mpr declares.1.symm
          | _ => exact declares.elim
      · exact .inr (ih later)

/-- Definitions that stand before all calls of their names take none of them away. -/
theorem undisturbed_of_ordered (ordered : Ordered stmts) (library : FunctionTable)
    (earlier : List TypedFunction) (checker : Checker) :
    Undisturbed library earlier stmts checker := by
  induction stmts generalizing earlier checker with
  | nil => trivial
  | cons _ _ ih =>
    refine ⟨?_, fun _ _ _ => ih ordered.2 _ _⟩
    intro name _ _ _ calls _ _ member named
    have undefined := ordered.1 calls
    rw [← named, any_defines member] at undefined
    cases undefined

end Checker

/-! ## Formulas -/

theorem Checker.check_of_checkStmts [Evaluator] {checker after : Checker}
    (reading : parse source = .ok parsed) (clean : parsed.reports = [])
    (done : checkStmts parsed.body { checker with reports := [] } = .ok () after) :
    checker.check source = (after, .ok true) := by
  rw [check, reading]
  simp only [clean]
  rw [if_neg (by decide)]
  simp only [EStateM.run, done]

theorem Compiler.compile_again [Evaluator] {after : FunctionTable}
    (compiled : compile kind functions source = (after, .ok outcome))
    (accepted : outcome.accepted = true) (undisturbed : ∀ parsed, parse source = .ok parsed →
      Checker.Undisturbed functions [] parsed.body (.new kind functions)) :
    ∃ last again, compile kind after source = (last, .ok again) ∧ again.accepted = true ∧
      again.operations = outcome.operations := by
  obtain ⟨checker, last, checking, rfl, coded⟩ := compile_eq_accepted compiled accepted
  obtain ⟨parsed, reading, answered⟩ := Checker.answered_of_check checking
  cases answered with
  | accepted clean done =>
    have inStep : TreeKind.InStep functions [] (Checker.defined parsed.body (.new kind functions))
        functions checker.functions := by
      intro name
      exact ⟨rfl, Checker.lookup_checkStmts done name⟩
    obtain ⟨table, again⟩ := Checker.mirrors_checkStmts (undisturbed parsed reading) inStep done
    have checkingAgain : (Checker.new kind checker.functions).check source =
        ({ checker with functions := table }, .ok true) :=
      Checker.check_of_checkStmts reading clean again
    have codedAgain :
        (compileStmts kind ({ checker with functions := table } : Checker).settledBody).run
        none = .ok (outcome.operations, last) := coded
    rw [compile, checkingAgain]
    simp only [codedAgain]
    exact ⟨_, _, rfl, rfl, rfl⟩

/-- Whether the calls of a formula stand when its own definitions are known from the start. -/
def Library.Undisturbed [Evaluator] (library : Library) (label source : String) : Prop :=
  ∀ kind parsed, TreeKind.ofLabel label = .ok kind → parse source = .ok parsed →
    Checker.Undisturbed (library.functions kind) [] parsed.body (.new kind (library.functions kind))

theorem Library.compile_again [Evaluator]
    (compiled : library.compile label source = (after, .ok outcome))
    (accepted : outcome.accepted = true) (undisturbed : library.Undisturbed label source) :
    ∃ last again, after.compile label source = (last, .ok again) ∧ again.accepted = true ∧
      again.operations = outcome.operations := by
  rw [compile] at compiled ⊢
  cases labelled : TreeKind.ofLabel label with
  | error =>
    rw [labelled] at compiled
    cases compiled
  | ok kind =>
    rw [labelled] at compiled
    cases first : Compiler.compile kind (library.functions kind) source with
    | mk =>
      simp only [first] at compiled
      cases compiled
      obtain ⟨_, again, second, isAccepted, operations⟩ :=
        Compiler.compile_again first accepted (undisturbed kind · labelled)
      simp only [functions_withFunctions, second]
      exact ⟨_, again, rfl, isAccepted, operations⟩

theorem Desk.compile_of_ok [Evaluator]
    (compiled : desk.library.compile desk.kind source = (last, .ok outcome)) :
    compile source desk = .ok outcome { desk with library := last } := by
  have read : (get : Desk.Act Desk) desk = .ok desk desk := rfl
  simp only [compile, Bind.bind, EStateM.bind, read, compiled]
  rfl

/--
A formula that was accepted is accepted again with the functions that it has added to the library,
and compiled to the same operations, as long as none of its calls is taken away by one of its own
definitions.
-/
theorem recompiled_same [Evaluator] {library after : Library} {label source : String}
    {outcome : Compiler.Outcome} (compiled : library.compile label source = (after, .ok outcome))
    (accepted : outcome.accepted = true) (undisturbed : library.Undisturbed label source) :
    (∃ last again, after.compile label source = (last, .ok again) ∧ again.accepted = true ∧
      again.operations = outcome.operations) ∧
    ∀ (desk : Desk) (withFrame : Bool), desk.kind = label → desk.library = after →
      ∃ last, Desk.addNodes source withFrame desk =
        Desk.place outcome.operations withFrame source { desk with library := last } := by
  rcases compile_again compiled accepted undisturbed with
    ⟨last, again, same, isAccepted, operations⟩
  refine ⟨⟨last, again, same, isAccepted, operations⟩, ?_⟩
  rintro desk withFrame rfl rfl
  refine ⟨last, ?_⟩
  have compiling := Desk.compile_of_ok same
  rw [Desk.addNodes, ← operations]
  rw [bind_of_ok compiling, isAccepted]
  rfl

def definesFirst : String := "fn f(a: float) -> r: float { out r = a + 1; } f(2.0);"

def callsFirst : String := "sin(1); fn sin(a: int) -> r: int { out r = a; }"

/-- A function whose result is a sum, and an expression after it. -/
def definesSum : List Stmt → Bool
  | [.definition _ _ "f" _ [.out _ _ (.binary _ (.name _ _) .add (.constant _ _))] _, .expr _] =>
    true
  | _ => false

theorem recompiled_same_defined : ∃ after last first second,
      empty.compile TreeKind.geometry.label definesFirst = (after, .ok first) ∧
      first.accepted = true ∧ after.count = 1 ∧
      after.compile TreeKind.geometry.label definesFirst = (last, .ok second) ∧
      second.accepted = true ∧ second.operations = first.operations := by
  obtain ⟨after, first, compiled, accepted, counted⟩ : ∃ after first,
      empty.compile TreeKind.geometry.label definesFirst = (after, .ok first) ∧
      first.accepted = true ∧ after.count = 1 := by decide +kernel
  obtain ⟨parsed, read, shape⟩ : ∃ parsed, parse definesFirst = .ok parsed ∧
      definesSum parsed.body = true := by decide +kernel
  have undisturbed : empty.Undisturbed TreeKind.geometry.label definesFirst := by
    intro kind again _ reading
    cases read.symm.trans reading
    refine Checker.undisturbed_of_ordered ?_ _ _ _
    unfold definesSum at shape
    split at shape
    · rename_i body
      rw [body]
      refine ⟨?_, fun _ => rfl, trivial⟩
      -- The only call in the definition is that of the sum.
      intro _ _ _ _ calls
      cases calls with
      | inner inside => cases inside
      | body _ _ inside =>
        cases inside with
        | tail _ none => cases none
        | head inside =>
          cases inside with
          | out _ inside =>
            rcases inside with ⟨_, called⟩ | inside
            · cases called
              rfl
            · rcases inside with ⟨⟨_, ⟨⟩⟩ | ⟨⟨⟩⟩⟩ | ⟨_, ⟨⟨_, ⟨⟩⟩ | ⟨⟨⟩⟩⟩ | ⟨_, ⟨⟩⟩⟩
    · cases shape
  rcases (recompiled_same compiled accepted undisturbed).1 with ⟨last, second, again⟩
  exact ⟨after, last, first, second, compiled, accepted, counted, again⟩

theorem recompiled_differs : ∃ after last first second,
      empty.compile TreeKind.geometry.label callsFirst = (after, .ok first) ∧
      first.accepted = true ∧
      after.compile TreeKind.geometry.label callsFirst = (last, .ok second) ∧
      second.accepted = true ∧ second.operations ≠ first.operations := by
  obtain ⟨after, first, compiled, accepted, last, second, again, isAccepted, differ⟩ :
      ∃ after first, empty.compile TreeKind.geometry.label callsFirst = (after, .ok first) ∧
      first.accepted = true ∧ ∃ last second,
      after.compile TreeKind.geometry.label callsFirst = (last, .ok second) ∧
      second.accepted = true ∧
      second.operations.map (·.label) ≠ first.operations.map (·.label) := by decide +kernel
  exact ⟨after, last, first, second, compiled, accepted, again, isAccepted,
    fun same => differ (congrArg _ same)⟩

end NodeFormula
