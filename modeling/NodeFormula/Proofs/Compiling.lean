import NodeFormula.Proofs.Building

/-!
# What compiled code looks like

Each lemma takes a part of a formula that was compiled and gives its operations.  Compiling fails
only where an input node would be needed for a type that has none.
-/

namespace NodeFormula

open Operation

variable {kind : TreeKind} {after : Option (List Binding)}

def TypeInfo.firstType (info : TypeInfo) : DataType := info.types.headD .unknown

namespace Compiler

section Sequencing

theorem bind_eq_ok {next : α → Compile β} (done : (step >>= next) state = .ok (answer, after)) :
    ∃ value middle, step state = .ok (value, middle) ∧ next value middle = .ok (answer, after) := by
  cases first : step state with
  | ok result =>
    simp only [bind, StateT.bind, first] at done
    exact ⟨result.1, result.2, rfl, done⟩
  | error =>
    simp only [bind, StateT.bind, first] at done
    cases done

theorem map_eq_ok {step : Compile α} {give : α → β}
    (done : (step >>= fun value => pure (give value)) state = .ok (answer, after)) :
    ∃ value, step state = .ok (value, after) ∧ answer = give value := by
  obtain ⟨value, _, first, answered⟩ := bind_eq_ok done
  cases answered
  exact ⟨value, first, rfl⟩

theorem map₂_eq_ok {next : α → Compile β} {give : α → β → γ} {answer : γ}
    (done : (step >>= fun value => next value >>= fun other =>
      pure (give value other)) state = .ok (answer, after)) :
    ∃ value middle other, step state = .ok (value, middle) ∧
      next value middle = .ok (other, after) ∧ answer = give value other := by
  obtain ⟨value, middle, first, rest⟩ := bind_eq_ok done
  exact ⟨value, middle, (map_eq_ok rest).imp fun _ last => ⟨first, last⟩⟩

theorem bind_get (next : Option (List Binding) → Compile α) :
    ((get : Compile (Option (List Binding))) >>= next) state = next state state := rfl

theorem liftM_eq_ok {step : Except Fault α}
    (done : (liftM step : Compile α) state = .ok (answer, after)) :
    step = .ok answer ∧ after = state := by
  cases step with
  | ok =>
    cases done
    exact ⟨rfl, rfl⟩
  | error => cases done

end Sequencing

theorem constType_eq_ok (done : constType info = .ok type) : info.firstType = type := by
  rw [constType] at done
  rw [TypeInfo.firstType]
  cases types : info.types with
  | nil =>
    rw [types] at done
    cases done
  | cons =>
    rw [types] at done
    cases done
    rfl

section Expressions

/-- A constant is compiled to the operations of its input node. -/
theorem createInput_eq_ok {value : Option Value} (done : (do
      let type ← constType info
      let create ← kind.createInput name value type
      return create ++ rest : Compile (List Operation)) state = .ok (operations, after)) :
    after = state ∧ ∃ node, kind.inputNode? value info.firstType = some node ∧
      operations = node.operations name ++ rest := by
  obtain ⟨_, _, typed, creating⟩ := bind_eq_ok done
  obtain ⟨isType, rfl⟩ := liftM_eq_ok typed
  obtain ⟨_, _, created, answered⟩ := bind_eq_ok creating
  obtain ⟨isCreated, rfl⟩ := liftM_eq_ok created
  cases answered
  obtain ⟨node, found, rfl⟩ := TreeKind.inputNode?_of_createInput isCreated
  rw [← constType_eq_ok isType] at found
  exact ⟨rfl, node, found, rfl⟩

/-- A variable that was just created gets an input node; any other one is fetched. -/
theorem compileExpr_var_eq_ok
    (done : compileExpr kind (.var reference) state = .ok (operations, after)) :
    (reference.isFresh = true ∧ after = state ∧
      ∃ node, kind.inputNode? none reference.info.firstType = some node ∧
        operations = node.operations reference.id ++
          [createVar reference.id, .getVar reference.id]) ∨
    (reference.isFresh = false ∧ after = state ∧ operations = [.getVar reference.id]) := by
  rw [compileExpr] at done
  by_cases fresh : reference.isFresh = true
  · rw [if_pos fresh] at done
    exact .inl ⟨fresh, createInput_eq_ok done⟩
  · rw [if_neg fresh] at done
    cases done
    exact .inr ⟨eq_false_of_ne_true fresh, rfl, rfl⟩

theorem compileExpr_nodeCall_eq_ok
    (done : compileExpr kind (.nodeCall info recipe args) state = .ok (operations, after)) :
    ∃ pushes, compileArgs kind args state = .ok (pushes, after) ∧ operations = pushes ++
        (List.replicate (recipe.inputs.length - args.length) none).map .pushValue ++
        [callBuiltin recipe] := by
  rw [List.map_replicate]
  exact map_eq_ok done

/-- A function is compiled to one call that holds the code of its body. -/
theorem compileFunction_eq_ok
    (done : compileFunction kind (.mk inputs outputs body used isGroup name) state =
      .ok (call, after)) : ∃ code, compileStmts kind body (some outputs) = .ok (code, after) ∧
      call = if isGroup then .callNodeGroup name inputs outputs code
        else .callFunction (inputs.map (·.name)) code outputs.length := by
  obtain ⟨_, _, set, running⟩ := bind_eq_ok done
  cases set
  obtain ⟨code, _, compiled, answered⟩ := bind_eq_ok running
  refine ⟨code, ?_⟩
  cases isGroup with
  | true =>
    cases answered
    exact ⟨compiled, rfl⟩
  | false =>
    cases answered
    exact ⟨compiled, rfl⟩

theorem compileArgs_cons_eq_ok
    (done : compileArgs kind (arg :: args) state = .ok (operations, after)) :
    ∃ head middle tail, compileExpr kind arg state = .ok (head, middle) ∧
      compileArgs kind args middle = .ok (tail, after) ∧
      operations = head ++ firstSocket arg ++ tail :=
  map₂_eq_ok done

theorem compileStmts_cons_eq_ok
    (done : compileStmts kind (stmt :: stmts) state = .ok (operations, after)) :
    ∃ head middle tail, compileStmt kind stmt state = .ok (head, middle) ∧
      compileStmts kind stmts middle = .ok (tail, after) ∧ operations = head ++ tail :=
  map₂_eq_ok done

theorem compileStmts_cons_of_ok (headDone : compileStmt kind stmt state = .ok (head, middle))
    (tailDone : compileStmts kind stmts middle = .ok (tail, after)) :
    compileStmts kind (stmt :: stmts) state = .ok (head ++ tail, after) := by
  rw [compileStmts]
  simp only [bind, StateT.bind, Except.bind, headDone, tailDone]
  rfl

theorem compileStmt_assign_const_eq_ok {value}
    (done : compileStmt kind (.assign (some target :: others) (.const info value)) state =
      .ok (operations, after)) :
    ∃ node, kind.inputNode? (some value) info.firstType = some node ∧
      operations = node.operations target.id ++ [createVar target.id] ++ [endOfStatement] := by
  obtain ⟨_, node, found, rfl⟩ := createInput_eq_ok done
  exact ⟨node, found, List.append_cons _ _ _⟩

theorem compileStmt_expr_eq_ok
    (done : compileStmt kind (.expr value) state = .ok (operations, after)) :
    ∃ code, compileExpr kind value state = .ok (code, after) ∧
      operations = code ++ [endOfStatement] :=
  map_eq_ok done

/-- An assignment runs its value, splits it and only then serves its targets. -/
theorem compiled_split_eq_ok {splitting : Except Fault (List Operation)}
    {around : List Operation → List Operation → List Operation} (done : (do
      let code ← compileExpr kind value
      let split ← splitting
      return around code split : Compile (List Operation)) state = .ok (operations, after)) :
    ∃ code split, compileExpr kind value state = .ok (code, after) ∧ splitting = .ok split ∧
      operations = around code split := by
  obtain ⟨code, _, split, compiled, lifted, rfl⟩ := map₂_eq_ok done
  obtain ⟨found, rfl⟩ := liftM_eq_ok lifted
  exact ⟨code, split, compiled, found, rfl⟩

theorem compileStmt_assign_eq_ok (noConstant : ∀ info held, value ≠ .const info held)
    (done : compileStmt kind (.assign targets value) state = .ok (operations, after)) :
    ∃ code split, compileExpr kind value state = .ok (code, after) ∧
      splitFor targets.length value [] = .ok split ∧
      operations = code ++ split ++ bindVars targets ++ [endOfStatement] := by
  rw [compileStmt] at done
  · exact compiled_split_eq_ok done
  · exact noConstant

theorem compileStmt_assign_single_eq_ok (noConstant : ∀ info held, value ≠ .const info held)
    (done : compileStmt kind (.assign [some target] value) state = .ok (operations, after)) :
    ∃ code, compileExpr kind value state = .ok (code, after) ∧
      operations = code ++ [createVar target.id] ++ [endOfStatement] := by
  obtain ⟨code, _, compiled, isSplit, rfl⟩ := compileStmt_assign_eq_ok noConstant done
  cases isSplit
  refine ⟨code, compiled, ?_⟩
  rw [List.append_nil]
  rfl

theorem compileStmt_out_eq_ok (noConstant : ∀ info held, value ≠ .const info held)
    (done : compileStmt kind (.out targets value) state = .ok (operations, after)) :
    ∃ code split, compileExpr kind value state = .ok (code, after) ∧
      splitFor targets.length value (firstSocket value) = .ok split ∧
      operations = code ++ split ++ bindOutputs targets ++ [endOfStatement] := by
  rw [compileStmt] at done
  · exact compiled_split_eq_ok done
  · exact noConstant

theorem compileStmt_out_const_eq_ok {value}
    (done : compileStmt kind (.out (some index :: others) (.const info value)) state =
      .ok (operations, after)) :
    ∃ (output : Binding) (node : InputNode), (state.getD [])[index]? = some output ∧
      kind.inputNode? (some value) info.firstType = some node ∧ after = state ∧
      operations = node.operations output.name ++ [setFunctionOut index] ++ [endOfStatement] := by
  obtain ⟨outputs, _, got, naming⟩ := bind_eq_ok done
  cases got
  cases state with
  | none => cases naming
  | some outputs =>
    cases found : outputs[index]? with
    | none =>
      simp only [found] at naming
      cases naming
    | some output =>
      simp only [found] at naming
      obtain ⟨rfl, node, isNode, rfl⟩ := createInput_eq_ok naming
      exact ⟨output, node, found, isNode, rfl, List.append_cons _ _ _⟩

theorem splitValue_eq_ok (done : splitValue value = .ok split) :
    split = if value.info.stack = .struct then [.splitStruct]
      else [.callBuiltin ⟨"ShaderNodeSeparateXYZ", [0], [0, 1, 2], []⟩, .splitStruct] := by
  rw [splitValue] at done
  by_cases isStruct : value.info.stack = .struct
  · rw [if_pos isStruct] at done ⊢
    cases done
    rfl
  · rw [if_neg isStruct] at done ⊢
    split at done <;> cases done
    rfl

end Expressions

/-! ## Formulas -/

def typedBody [Evaluator] (kind : TreeKind) (functions : FunctionTable) (source : String) :
    List TypedStmt :=
  ((Checker.new kind functions).check source).1.settledBody

theorem check_eq_true [Evaluator] {checker after : Checker}
    (checked : checker.check source = (after, .ok true)) : ∃ body, parse source = .ok ⟨body, []⟩ ∧
      Checker.checkStmts body { checker with reports := [] } = .ok () after := by
  rw [Checker.check] at checked
  cases reading : parse source with
  | error =>
    rw [reading] at checked
    cases checked
  | ok parsed =>
    rw [reading] at checked
    obtain ⟨body, _ | ⟨_, reports⟩⟩ := parsed
    · refine ⟨body, rfl, ?_⟩
      simp only [EStateM.run]
        at checked
      cases done : Checker.checkStmts body { checker with reports := [] } with
      | ok =>
        rw [done] at checked
        cases checked
        rfl
      | error refusal =>
        rw [done] at checked
        cases refusal <;> cases checked
    · cases checked

theorem compile_eq_accepted [Evaluator] {after}
    (compiled : compile kind functions source = (after, .ok outcome))
    (accepted : outcome.accepted = true) :
    ∃ checker last, (Checker.new kind functions).check source = (checker, .ok true) ∧
      after = checker.functions ∧
      compileStmts kind checker.settledBody none = .ok (outcome.operations, last) := by
  rw [compile] at compiled
  cases checking : (Checker.new kind functions).check source with
  | mk checker answer =>
    simp only [checking] at compiled
    rcases answer with fault | ⟨_ | _⟩
    · cases compiled
    · cases compiled
      cases accepted
    · refine ⟨checker, ?_⟩
      cases building : (compileStmts kind checker.settledBody).run none with
      | error =>
        simp only [building] at compiled
        cases compiled
      | ok result =>
        simp only [building] at compiled
        cases compiled
        exact ⟨result.2, rfl, rfl, building⟩

end Compiler

end NodeFormula
