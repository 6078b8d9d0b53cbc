import NodeFormula.Proofs.Following
import NodeFormula.Proofs.WellMade

/-!
# When accepted formulas can be built

An accepted formula is built from any start to the end exactly if its sketch comes to an end, and
otherwise building stops with the fault of the sketch.  So whether a formula can be built is
settled by its typed statements alone.  It is not settled by being accepted, because reading an
output needs a struct, a function its results and a variable something to hold.
-/

namespace NodeFormula

variable {value : TypedExpr} {kind : TreeKind}

namespace Builder

open Compiler

/-! ## Parts of statements -/

theorem Follows.congr (follows : Follows operations change)
    (same : ∀ profile, change profile = other profile) : Follows operations other := by
  intro builder sound
  rw [← same]
  exact follows builder sound

theorem follows_createInput {value : Option Value} (name : String)
    (found : kind.inputNode? value type = some node)
    (format : ∀ held, value = some held → type = .vec3 → ∃ a b c, held = .vector [a, b, c]) :
    Follows (node.operations name) (fun profile => .ok (profile.pushed [.socket])) := by
  obtain ⟨wellFormed, outputs⟩ := InputNode.wellFormed found
  exact follows_inputNode name wellFormed outputs (InputNode.complete found format)

theorem follows_firstSocket (value : TypedExpr) :
    Follows (firstSocket value) (fun profile => profile.firstOf value) := by
  by_cases isStruct : value.info.stack = .struct
  · simp only [firstSocket, Profile.firstOf, if_pos isStruct]
    exact (follows_getOutput 0)
  · simp only [firstSocket, Profile.firstOf, if_neg isStruct]
    exact follows_nil

theorem follows_splitValue (done : splitValue value = .ok split) :
    Follows split (fun profile => profile.splitValue value) := by
  have isSplit := splitValue_eq_ok done
  by_cases isStruct : value.info.stack = .struct
  · simp only [isSplit, Profile.splitValue, if_pos isStruct]
    exact follows_splitStruct
  · simp only [isSplit, Profile.splitValue, if_neg isStruct]
    have listed : ("separate", ⟨"ShaderNodeSeparateXYZ", [0], [0, 1, 2], []⟩) ∈
        Catalog.builtRecipes := by
      simp [Catalog.builtRecipes]
    have separating := follows_callBuiltin (Catalog.wellFormed_built listed)
    exact separating.append follows_splitStruct

theorem follows_splitFor (done : splitFor count value single = .ok split)
    (singleFollows : Follows single change) :
    Follows split (fun profile => profile.splitFor count value change) := by
  by_cases several : 1 < count
  · rw [splitFor, if_pos several] at done
    simp only [Profile.splitFor, if_pos several]
    exact follows_splitValue done
  · rw [splitFor, if_neg several] at done
    cases done
    simp only [Profile.splitFor, if_neg several]
    exact singleFollows

theorem follows_targets {α : Type} {take : α → Operation}
    {change : Profile → α → Except Fault Profile}
    (each : ∀ target, Follows [take target] (fun profile => change profile target))
    (targets : List (Option α)) :
    Follows (targets.filterMap fun target => target.map take)
      (fun profile => (targets.filterMap id).foldlM change profile) := by
  induction targets with
  | nil => exact follows_nil
  | cons target targets ih =>
    cases target with
    | none => exact ih
    | some target =>
      apply Follows.congr ((each target).append ih)
      intro profile
      show _ = (target :: targets.filterMap id).foldlM change profile
      rw [List.foldlM_cons]

theorem follows_bindVars (targets : List (Option TypedVar)) :
    Follows (bindVars targets) (fun profile => profile.bindAll targets) :=
  follows_targets (fun target : TypedVar => follows_createVar target.id) targets

theorem follows_bindOutputs (targets : List (Option Nat)) :
    Follows (bindOutputs targets) (fun profile => profile.setResults targets) :=
  follows_targets follows_setFunctionOut targets

theorem format_of_hasFormat {value : Value} (format : TypedExpr.HasFormat (.const info value))
    (held : Value) (same : some value = some held) (isVector : info.firstType = .vec3) :
    ∃ a b c, held = .vector [a, b, c] := by
  obtain ⟨_, types, vector⟩ := format info value rfl
  obtain rfl := Option.some.inj same
  rw [TypeInfo.firstType, types] at isVector
  exact vector isVector

/-! ### Assignments -/

section Assignments

variable {after : Option (List Binding)}

theorem follows_assigned (running : Follows code change) (splitting : Follows split dividing)
    (bound : Follows binds binding) :
    Follows (code ++ split ++ binds ++ [.endOfStatement]) (fun profile => do
      let profile ← change profile
      let profile ← dividing profile
      return (← binding profile).cleared) := by
  apply Follows.congr (((running.append splitting).append bound).append
    follows_endOfStatement)
  intro profile
  simp only [bind_assoc]
  rfl

theorem follows_assign_const (format : TypedExpr.HasFormat (.const info held))
    (done : compileStmt kind (.assign targets (.const info held)) state = .ok (operations, after)) :
    Follows operations (TypedStmt.assign targets (.const info held)).sketch := by
  rcases targets with _ | ⟨_ | target, others⟩
  case cons.some =>
    obtain ⟨_, found, rfl⟩ := compileStmt_assign_const_eq_ok done
    have making := follows_createInput target.id found (format_of_hasFormat format)
    apply Follows.congr ((making.append (follows_createVar target.id)).append
      follows_endOfStatement)
    intro profile
    rfl
  all_goals
    rw [compileStmt] at done
    · cases done
      apply Follows.congr follows_endOfStatement
      intro profile
      rw [TypedStmt.sketch]
      simp
    · simp

theorem follows_out_const (format : TypedExpr.HasFormat (.const info held))
    (done : compileStmt kind (.out targets (.const info held)) state = .ok (operations, after)) :
    Follows operations (TypedStmt.out targets (.const info held)).sketch := by
  rcases targets with _ | ⟨_ | index, others⟩
  case cons.some =>
    obtain ⟨output, _, _, found, _, rfl⟩ := compileStmt_out_const_eq_ok done
    have making := follows_createInput output.name found (format_of_hasFormat format)
    apply Follows.congr ((making.append (follows_setFunctionOut index)).append
      follows_endOfStatement)
    intro profile
    rfl
  all_goals
    rw [compileStmt] at done
    · cases done
      apply Follows.congr follows_endOfStatement
      intro profile
      rw [TypedStmt.sketch]
      simp
    · simp

end Assignments

/-! ## Formulas -/

theorem ne_const_of_not_exists (isOther : ¬∃ info held, value = .const info held) :
    ∀ info held, value ≠ .const info held := by
  intro info held same
  exact isOther ⟨info, held, same⟩

mutual

theorem follows_expr (kind : TreeKind) : ∀ (expr : TypedExpr) {ready : Prop}
    {state after : Option (List Binding)} {operations : List Operation}, expr.WellMade ready →
    compileExpr kind expr state = .ok (operations, after) →
    Follows operations expr.sketch
  | .const info value, _, _, _, _, _, done => by
    cases done
    apply Follows.congr (follows_pushValues [some value])
    intro profile
    rfl
  | .var reference, _, _, _, _, _, done => by
    rcases compileExpr_var_eq_ok done with ⟨fresh, _, _, found, rfl⟩ | ⟨known, _, rfl⟩
    · have making := follows_createInput reference.id found nofun
      have reading := (follows_createVar reference.id).append
        (follows_getVar reference.id)
      apply Follows.congr (making.append reading)
      intro profile
      rw [TypedExpr.sketch, if_pos fresh]
      show Profile.fetch (profile.bound reference.id .socket) reference.id = _
      rw [Profile.fetch, Profile.bound, Table.lookup_insert, if_pos rfl]
    · apply Follows.congr (follows_getVar reference.id)
      intro profile
      rw [TypedExpr.sketch, if_neg (by simp [known])]
  | .nodeCall info recipe args, _, _, _, _, made, done => by
    obtain ⟨wellFormed, _, argsMade⟩ := made
    obtain ⟨pushes, pushed, rfl⟩ := compileExpr_nodeCall_eq_ok done
    have passing := (follows_args kind args argsMade pushed).append (follows_pushValues
      (List.replicate (recipe.inputs.length - args.length) none))
    apply Follows.congr (passing.append (follows_callBuiltin wellFormed))
    intro profile
    rw [List.map_replicate, bind_assoc]
    rfl
  | .functionCall info function args, _, _, _, _, made, done => by
    obtain ⟨functionMade, _, argsMade⟩ := made
    obtain ⟨pushes, _, _, pushed, called, rfl⟩ := map₂_eq_ok done
    have omitting := follows_pushValues ((function.inputs.drop args.length).map (·.value))
    rw [List.map_map] at omitting
    have passing := (follows_args kind args argsMade pushed).append omitting
    have calling := follows_function kind function functionMade called
    apply Follows.congr (passing.append calling)
    intro profile
    rw [List.map_map, bind_assoc]
    rfl
  | .output info value index, _, _, _, _, made, done => by
    obtain ⟨_, compiled, rfl⟩ := Compiler.map_eq_ok done
    have reading := (follows_expr kind value made compiled).append
      (follows_getOutput index)
    apply Follows.congr reading
    intro profile
    rw [TypedExpr.sketch]

theorem follows_args (kind : TreeKind) : ∀ (args : List TypedExpr) {ready state after operations},
    TypedExpr.AllWellMade ready args → compileArgs kind args state = .ok (operations, after) →
    Follows operations (TypedExpr.sketchArgs args)
  | [], _, _, _, _, _, done => by
    cases done
    apply Follows.congr follows_nil
    intro profile
    rw [TypedExpr.sketchArgs]
  | arg :: args, _, _, _, _, made, done => by
    obtain ⟨_, _, _, headDone, tailDone, rfl⟩ := compileArgs_cons_eq_ok done
    have first := (follows_expr kind arg made.1 headDone).append (follows_firstSocket arg)
    apply Follows.congr (first.append (follows_args kind args made.2 tailDone))
    intro profile
    rw [TypedExpr.sketchArgs, bind_assoc]

theorem follows_function (kind : TreeKind) : ∀ (function : TypedFunction)
    {state after call}, function.WellMade →
    compileFunction kind function state = .ok (call, after) →
    Follows [call] function.sketch
  | .mk inputs outputs body used isGroup name, _, _, _, made, done => by
    obtain ⟨_, compiled, rfl⟩ := compileFunction_eq_ok done
    have running := follows_stmts kind body made compiled
    cases isGroup with
    | true =>
      apply Follows.congr (follows_callNodeGroup running)
      intro profile
      rw [TypedFunction.sketch, if_pos rfl]
    | false =>
      apply Follows.congr (follows_callFunction running)
      intro profile
      rw [TypedFunction.sketch, if_neg Bool.false_ne_true]

theorem follows_stmt (kind : TreeKind) : ∀ (stmt : TypedStmt) {ready state after operations},
    stmt.WellMade ready → compileStmt kind stmt state = .ok (operations, after) →
    Follows operations stmt.sketch
  | .expr value, _, _, _, _, made, done => by
    obtain ⟨code, compiled, rfl⟩ := compileStmt_expr_eq_ok done
    have running := follows_expr kind value made compiled
    apply Follows.congr (running.append follows_endOfStatement)
    intro profile
    rfl
  | .assign targets value, _, _, _, _, made, done => by
    by_cases isConstant : ∃ info held, value = .const info held
    · obtain ⟨info, held, rfl⟩ := isConstant
      exact follows_assign_const made.2.1 done
    · have noConstant := ne_const_of_not_exists isConstant
      obtain ⟨code, split, compiled, isSplit, rfl⟩ := compileStmt_assign_eq_ok noConstant done
      have running := follows_expr kind value made.1 compiled
      have splitting := follows_splitFor isSplit follows_nil
      apply Follows.congr (follows_assigned running splitting (follows_bindVars targets))
      intro profile
      rw [TypedStmt.sketch]
      exact noConstant
  | .out targets value, _, _, _, _, made, done => by
    by_cases isConstant : ∃ info held, value = .const info held
    · obtain ⟨info, held, rfl⟩ := isConstant
      exact follows_out_const made.2.1 done
    · have noConstant := ne_const_of_not_exists isConstant
      obtain ⟨code, split, compiled, isSplit, rfl⟩ := compileStmt_out_eq_ok noConstant done
      have running := follows_expr kind value made.1 compiled
      have splitting := follows_splitFor isSplit (follows_firstSocket value)
      apply Follows.congr (follows_assigned running splitting (follows_bindOutputs targets))
      intro profile
      rw [TypedStmt.sketch]
      exact noConstant

theorem follows_stmts (kind : TreeKind) : ∀ (stmts : List TypedStmt) {ready state after operations},
    TypedStmt.AllWellMade ready stmts → compileStmts kind stmts state = .ok (operations, after) →
    Follows operations (TypedStmt.sketchAll stmts)
  | [], _, _, _, _, _, done => by
    cases done
    apply Follows.congr follows_nil
    intro profile
    rw [TypedStmt.sketchAll]
  | stmt :: stmts, _, _, _, _, made, done => by
    obtain ⟨_, _, _, headDone, tailDone, rfl⟩ := compileStmts_cons_eq_ok done
    have first := follows_stmt kind stmt made.1 headDone
    apply Follows.congr (first.append (follows_stmts kind stmts made.2 tailDone))
    intro profile
    rw [TypedStmt.sketchAll]

end

theorem sound_new (name label : String) : (Builder.new [.empty name label]).Sound :=
  ⟨Nat.zero_lt_one, nofun⟩

theorem Agrees.iff {change} (agrees : Agrees result change) :
    (∀ profile, change = .ok profile ↔ ∃ final, result = .ok () final ∧ final.profile = profile) ∧
      ∀ fault, change = .error fault ↔ ∃ final, result = .error fault final := by
  cases agrees with
  | done sound same =>
    constructor
    · intro profile
      constructor
      · rintro ⟨⟩
        exact ⟨_, rfl, same⟩
      · rintro ⟨final, ⟨⟩, sameProfile⟩
        rw [← same, sameProfile]
    · intro fault
      constructor
      · nofun
      · nofun
  | stopped =>
    constructor
    · intro profile
      constructor
      · nofun
      · nofun
    · intro fault
      constructor
      · rintro ⟨⟩
        exact ⟨_, rfl⟩
      · rintro ⟨final, ⟨⟩⟩
        rfl

end Builder

namespace Compiler

def sketch [Evaluator] (kind : TreeKind) (functions : FunctionTable) (source : String) :
    Except Fault Profile :=
  TypedStmt.sketchAll (typedBody kind functions source) .start

theorem agrees_sketch [Evaluator] (produced : Produced functions)
    (compiled : compile kind functions source = (after, .ok outcome))
    (accepted : outcome.accepted = true) (name : String) :
    Builder.Agrees (Builder.runAll outcome.operations (.new [.empty name kind.label]))
      (sketch kind functions source) := by
  obtain ⟨checker, _, checked, _, building⟩ := compile_eq_accepted compiled accepted
  have made := (finished_check produced.wellMade checked).settledBody
  have body : typedBody kind functions source = checker.settledBody := by
    rw [typedBody, checked]
  rw [sketch, body]
  exact Builder.follows_stmts kind _ made building _ (Builder.sound_new name kind.label)

end Compiler

/--
An accepted formula is built on an empty tree to the end exactly if its sketch comes to an end, with
the same shapes; it stops with a fault exactly if the sketch stops with it.
-/
theorem builds_iff_sketch [Evaluator] (kind : TreeKind) (functions after : FunctionTable)
    (name source : String) (outcome : Compiler.Outcome)
    (produced : Compiler.Produced functions)
    (compiled : Compiler.compile kind functions source = (after, .ok outcome))
    (accepted : outcome.accepted = true) :
    (∀ profile, Compiler.sketch kind functions source = .ok profile ↔
      ∃ final, Builder.runAll outcome.operations (.new [.empty name kind.label]) = .ok () final ∧
        final.profile = profile) ∧
    ∀ fault, Compiler.sketch kind functions source = .error fault ↔
      ∃ final, Builder.runAll outcome.operations (.new [.empty name kind.label]) =
        .error fault final :=
  (Compiler.agrees_sketch produced compiled accepted name).iff

theorem builds_iff_sketch_call :
    ∃ functions defined after outcome,
      Compiler.Produced functions ∧
      Compiler.compile .geometry [] "fn f(a: float) -> r: float { out r = -a; }" =
        (functions, .ok defined) ∧
      Compiler.compile .geometry functions "x = f(2.0);" = (after, .ok outcome) ∧
      outcome.accepted = true ∧
      ∃ final, Builder.runAll outcome.operations (.new [.empty "T" TreeKind.geometry.label]) =
        .ok () final ∧ final.profile = ⟨[], [("x", .socket)], [], []⟩ := by
  obtain ⟨functions, defined, defining, definedAccepted, after, outcome, compiled, accepted,
      sketched⟩ : ∃ functions defined,
      Compiler.compile .geometry [] "fn f(a: float) -> r: float { out r = -a; }" =
        (functions, .ok defined) ∧ defined.accepted = true ∧ ∃ after outcome,
      Compiler.compile .geometry functions "x = f(2.0);" = (after, .ok outcome) ∧
      outcome.accepted = true ∧ Compiler.sketch .geometry functions "x = f(2.0);" =
        .ok ⟨[], [("x", .socket)], [], []⟩ := by decide +kernel
  have produced := Compiler.Produced.next .none defining definedAccepted
  refine ⟨functions, defined, after, outcome, produced, defining, compiled, accepted, ?_⟩
  exact ((builds_iff_sketch .geometry functions after "T" _ outcome produced compiled
    accepted).1 _).mp sketched

/-- An output is read of a node with only one, which is not left as a struct. -/
theorem accepted_reading_stops :
    ∃ after outcome, Compiler.compile .geometry [] "sin(1.0).value;" = (after, .ok outcome) ∧
      outcome.accepted = true ∧
      ∃ final, Builder.runAll outcome.operations (.new [.empty "T" TreeKind.geometry.label]) =
        .error (.broken "Bug in type checker, GET_OUTPUT only works on structs.") final := by
  decide +kernel

end NodeFormula
