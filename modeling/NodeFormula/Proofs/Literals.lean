import NodeFormula.Proofs.Preservation
import NodeFormula.Proofs.Refusals

/-!
# The nodes of literals

A literal that is assigned gets a node of its own, which holds its value: its output gives it, a
property has it, or three inputs have its components.  Only a float that is zero is not held,
because the output is left as it is then.
-/

namespace NodeFormula

open List Option Checker Builder

variable {kind : TreeKind} {held : Value}

def DataType.literals : List DataType := [.float, .int, .bool, .string, .vec3]

/-- How a node holds a value: in its output, in its property or in its inputs. -/
inductive Node.Carries (node : Node) : Value → Prop
  | output {value} (given : node.outputs.head?.map (·.default) = some (.value value)) :
      node.Carries value
  | property {value prop} (kept : node.props = [(prop, value)]) :
      node.Carries value
  | inputs {a b c} (fed : (node.inputs.take 3).map (·.default) =
      [.value a.toValue, .value b.toValue, .value c.toValue]) : node.Carries (.vector [a, b, c])

namespace InputNode

def made (node : InputNode) (name : String) (tree : NodeTree) : Node :=
  node.finish name (fedAll (Builder.bare node.recipe tree)
    (node.recipe.inputs.zip (node.args.map .ofOption)))

theorem carries_combining (name : String) (tree : NodeTree) (a b c : Scalar)
    (wellFormed : (combining [some a.toValue, some b.toValue, some c.toValue]).recipe.WellFormed) :
    ((combining [some a.toValue, some b.toValue, some c.toValue]).made name tree).Carries
      (.vector [a, b, c]) := by
  have enough := wellFormed.inputs_lt 2 (by simp [combining])
  rw [← (length_sockets_bare wellFormed tree).1] at enough
  have fed (scalar : Scalar) (node : Node) (index : Nat) :
      node.fed index (.ofOption (some scalar.toValue)) =
        node.setInput index (.value scalar.toValue) := by
    cases scalar <;> rfl
  refine .inputs ?_
  simp only [made, combining, zip_cons_cons, map_cons, fedAll, fed] at enough ⊢
  generalize Builder.bare _ tree = bare at enough ⊢
  obtain ⟨first, second, third, rest, inputs⟩ : ∃ first second third rest,
      bare.inputs = first :: second :: third :: rest := by
    rcases isInputs : bare.inputs with _ | ⟨first, _ | ⟨second, _ | ⟨third, rest⟩⟩⟩
    case cons.cons.cons => exact ⟨first, second, third, rest, rfl⟩
    all_goals simp [isInputs] at enough
  simp [finish, Node.setInput, fedAll, inputs]

theorem carries_iff (name : String) (tree : NodeTree)
    (found : kind.inputNode? (some held) type = some node) (literal : type ∈ DataType.literals)
    (format : type = .vec3 → ∃ a b c, held = .vector [a, b, c]) :
    (node.made name tree).Carries held ↔ ¬(type = .float ∧ held.isNonzero = false) := by
  obtain ⟨wellFormed, outputs⟩ := wellFormed found
  simp only [DataType.literals, mem_cons, not_mem_nil, or_false] at literal
  have always (carried : (node.made name tree).Carries held) (noFloat : type ≠ .float) :
      (node.made name tree).Carries held ↔ ¬(type = .float ∧ held.isNonzero = false) :=
    iff_of_true carried fun zero => noFloat zero.1
  rcases literal with rfl | rfl | rfl | rfl | rfl
  · cases found
    have isOutputs : (Builder.bare ⟨"ShaderNodeValue", [], [0], []⟩ tree).outputs ≠ [] := by
      rw [← length_pos_iff]
      exact wellFormed.outputs_lt 0 mem_cons_self
    obtain ⟨socket, _, isSocket⟩ := exists_cons_of_ne_nil isOutputs
    have absent : socket.default = .absent :=
      default_freshNode tree "ShaderNodeValue" .output socket
        (show socket ∈ Node.outputs _ from isSocket ▸ mem_cons_self)
    cases nonzero : held.isNonzero with
    | true =>
      refine iff_of_true (.output ?_) (by simp)
      simp [made, finish, Option.filter, nonzero, fedAll, Node.setOutput, isSocket]
    | false =>
      refine iff_of_false ?_ (by simp)
      rintro (given | kept | _)
      · simp [made, finish, Option.filter, nonzero, fedAll, isSocket, absent] at given
      · simp [made, finish, Option.filter, nonzero, fedAll, Builder.bare,
          NodeTree.freshNode] at kept
      · simp [Value.isNonzero] at nonzero
  iterate 3
    cases found
    exact always (.property rfl) (by decide)
  · obtain ⟨a, b, c, rfl⟩ := format rfl
    cases kind with
    | geometry =>
      cases found
      exact always (.property rfl) (by decide)
    | shader =>
      cases found
      exact always (carries_combining name tree a b c wellFormed) (by decide)

end InputNode

namespace Builder

theorem runAll_literal (name : String) (found : kind.inputNode? (some held) type = some node)
    (format : type = .vec3 → ∃ a b c, held = .vector [a, b, c]) (anchored : builder.Anchored) :
    ∃ after, runAll (node.operations name) builder = .ok () after ∧
      after.stack = .socket ⟨builder.tree, builder.nextNode.index, .output, 0⟩ :: builder.stack ∧
      after.forest.node? builder.nextNode = some (node.made name builder.current) ∧
      after.outputs = builder.outputs := by
  obtain ⟨wellFormed, outputs⟩ := InputNode.wellFormed found
  have complete := InputNode.complete found fun _ same isVector => by
    cases same
    exact format isVector
  have anchoredPushed : (builder.pushed (node.args.map .ofOption)).Anchored := anchored
  have given : (builder.pushed (node.args.map .ofOption)).arguments node.recipe =
      node.recipe.inputs.zip (node.args.map .ofOption) := by
    rw [arguments, ← complete]
    simp [pushed]
  refine ⟨_, runAll_inputNode name wellFormed outputs anchored (complete ▸ Nat.le_add_right _ _),
    ?_, ?_, rfl⟩
  · rw [installed, outputs, ← complete]
    simp [pushed]
    rfl
  · have isNode := node?_nextNode_installed anchoredPushed node.recipe (node.finish name)
    rw [given] at isNode
    exact isNode

end Builder

namespace Compiler

theorem createInput_of_literal (kind : TreeKind) (name : String) (rest : List Operation)
    (state : Option (List Binding)) (types : info.types = [type])
    (literal : type ∈ DataType.literals)
    (format : type = .vec3 → ∃ a b c, held = .vector [a, b, c]) :
    ∃ node, kind.inputNode? (some held) type = some node ∧
      (do
        let type ← constType info
        let create ← kind.createInput name (some held) type
        return create ++ rest : Compile (List Operation)) state =
          .ok (node.operations name ++ rest, state) := by
  cases creating : kind.createInput name (some held) type with
  | ok =>
    obtain ⟨node, found, rfl⟩ := TreeKind.inputNode?_of_createInput creating
    refine ⟨node, found, ?_⟩
    rw [constType, types]
    exact congrArg (fun created : Except Fault (List Operation) =>
      (liftM created >>= fun create => pure (create ++ rest) : Compile (List Operation)) state)
      creating
  | error =>
    simp only [DataType.literals, mem_cons, not_mem_nil, or_false] at literal
    rcases literal with rfl | rfl | rfl | rfl | rfl
    iterate 4 cases creating
    obtain ⟨_, _, _, rfl⟩ := format rfl
    cases kind <;> cases creating

end Compiler

/-- A node was made that holds a value, unless this is a float that is zero. -/
def Builder.Houses (builder final : Builder) (type : DataType) (held : Value) : Prop :=
  ∃ made, final.forest.node? builder.nextNode = some made ∧
    (made.Carries held ↔ ¬(type = .float ∧ held.isNonzero = false))

/--
The node of a literal that is assigned.  Compiling and building always succeed, the variable or the
result is bound to the output of a node that was made for it, and this node holds the value, as the
kind of tree converts it, exactly if it is not a float that is zero.
-/
theorem node_of_literal {checker : Checker} {token : Token} {target : Target} {value : Expr}
    {type : DataType} {held : Value} (literal : value.constant? checker.kind = some (type, held))
    (isLiteral : type ∈ DataType.literals) :
    (∀ typed after slots state,
      checkAssign token [some target] value checker = .ok typed after →
      ∃ operations, Compiler.compileStmt checker.kind (TypedStmt.settle slots typed) state =
          .ok (operations, state) ∧
        ∀ builder : Builder, builder.Anchored → ∃ final,
          Builder.runAll operations builder = .ok () final ∧
          final.vars.lookup target.id =
            some (.socket ⟨builder.tree, builder.nextNode.index, .output, 0⟩) ∧
          builder.Houses final type held) ∧
    ∀ typed after slots, checkOut token [some target] value checker = .ok typed after →
      ∃ index, checker.outputs.findIdx? (·.name == target.id) = some index ∧
        ∀ results output, results[index]? = some output →
          ∃ operations, Compiler.compileStmt checker.kind (TypedStmt.settle slots typed)
              (some results) = .ok (operations, some results) ∧
            ∀ builder : Builder, builder.Anchored → index < builder.outputs.length → ∃ final,
              Builder.runAll operations builder = .ok () final ∧
              final.outputs[index]? =
                some (some ⟨builder.tree, builder.nextNode.index, .output, 0⟩) ∧
              builder.Houses final type held := by
  have formatOf {checker middle : Checker} {info : TypeInfo} (types : info.types = [type])
      (checked : checkExpr value checker = .ok (.const info held) middle)
      (isVector : type = .vec3) : ∃ a b c, held = .vector [a, b, c] := by
    obtain ⟨_, isTypes, vector⟩ := (derives_checkExpr checked).hasFormat info held rfl
    cases types.symm.trans isTypes
    exact vector isVector
  have constantIn (used : List Bool) : ∃ info, info.types = [type] ∧ info.stack = .value ∧
      checkExpr value { checker with used } =
        .ok (.const info held) { checker with used } :=
    checkExpr_of_constant? literal
  constructor
  · intro typed after slots state accepted
    obtain ⟨derived, _, _, checked, ⟨vars, rfl, sameIds, _⟩ | ⟨noTarget, _⟩⟩ :=
      derives_checkAssign accepted
    case inr => cases noTarget
    obtain ⟨info, types, isValue, again⟩ := constantIn checker.used
    cases checked.symm.trans again
    obtain ⟨var, rfl, isVar⟩ : ∃ var, vars = [some var] ∧ var.id = target.id := by
      obtain ⟨found, rfl, named⟩ := map_eq_singleton_iff.1 sameIds
      obtain ⟨var, rfl, same⟩ := Option.map_eq_some_iff.1 named
      exact ⟨var, rfl, same⟩
    have noStruct : var.info.stack ≠ .struct := by
      cases derived with
      | divided _ several => exact absurd several (by simp)
      | whole _ isStruct => exact absurd (isValue.symm.trans isStruct) nofun
      | bound _ _ _ binds =>
        generalize currentTypes _ _ = given at binds
        cases binds with
        | bind isNew => exact isNew ▸ nofun
    obtain ⟨node, found, compiled⟩ := Compiler.createInput_of_literal checker.kind target.id
      [.createVar target.id, .endOfStatement] state types isLiteral (formatOf types checked)
    refine ⟨_, .trans ?_ compiled, fun builder anchored => ?_⟩
    · rw [TypedStmt.settle, if_neg noStruct, TypedExpr.settle, Compiler.compileStmt]
      rw [show (var.settle slots).id = target.id from isVar]
    · obtain ⟨middle, ran, stack, isNode, _⟩ :=
        Builder.runAll_literal target.id found (formatOf types checked) anchored
      have created : run (.createVar target.id) middle = _ :=
        run_createVar stack (.inl ⟨_, rfl⟩)
      refine ⟨{ middle with stack := [], vars := Table.insert target.id _ middle.vars }, ?_,
        by rw [Table.lookup_insert, if_pos rfl], _, isNode,
        InputNode.carries_iff _ _ found isLiteral (formatOf types checked)⟩
      rw [runAll_append_of_ok ran, runAll_cons, bind_of_ok created,
        runAll_singleton, run]
      rfl
  · intro typed after slots accepted
    obtain ⟨_, _, checked, ⟨_, several, _⟩ | rfl⟩ := derives_checkOut accepted
    · exact absurd several (by simp)
    obtain ⟨info, types, _, again⟩ := constantIn _
    cases checked.symm.trans again
    cases place : checker.outputs.findIdx? (·.name == target.id) with
    | none =>
      obtain ⟨_, _, listed, _⟩ := bind_eq_ok accepted
      obtain ⟨_, _, read, finding⟩ := bind_eq_ok listed
      cases read
      simp only [place] at finding
      exact absurd finding reject_ne_ok
    | some index =>
      refine ⟨index, rfl, fun results output named => ?_⟩
      obtain ⟨node, found, compiled⟩ := Compiler.createInput_of_literal checker.kind output.name
        [.setFunctionOut index, .endOfStatement] (some results) types isLiteral
        (formatOf types checked)
      refine ⟨_, .trans ?_ compiled, fun builder anchored inRange => ?_⟩
      · rw [TypedStmt.settle, TypedExpr.settle, placesOf, map_singleton, Option.bind_some,
          place, Compiler.compileStmt, Compiler.bind_get]
        simp only [named]
      · obtain ⟨middle, ran, stack, isNode, outputs⟩ :=
          Builder.runAll_literal output.name found (formatOf types checked) anchored
        rw [← outputs] at inRange
        have set_ : run (.setFunctionOut index) middle = .ok () { middle with
            stack := builder.stack
            outputs := middle.outputs.set index
              (some ⟨builder.tree, builder.nextNode.index, .output, 0⟩) } := by
          rw [run, setFunctionOut, bind_of_ok (pop_of_stack stack)]
          simp only [bind_get, if_pos inRange]
          rfl
        refine ⟨{ middle with stack := [], outputs := middle.outputs.set index _ }, ?_,
          getElem?_set_self inRange, _, isNode,
          InputNode.carries_iff _ _ found isLiteral (formatOf types checked)⟩
        rw [runAll_append_of_ok ran, runAll_cons, bind_of_ok set_,
          runAll_singleton, run]
        rfl

def Expr.mixedVector : Expr :=
  let token := Place.origin.endToken
  .vec3 token (.constant token (.int 1)) (.constant token (.int 0)) (.constant token (.bool true))

/-- In a shader tree the components are converted to floats. -/
theorem node_of_literal_vector :
    ∃ token target held typed after operations final,
      Expr.mixedVector.constant? .shader = some (.vec3, held) ∧
      checkAssign token [some target] .mixedVector (.new .shader []) = .ok typed after ∧
      Compiler.compileStmt .shader (typed.settle []) none = .ok (operations, none) ∧
      Builder.runAll operations (.new [.empty "T" TreeKind.shader.label]) = .ok () final ∧
      (Builder.new [.empty "T" TreeKind.shader.label]).Houses final .vec3 held := by
  obtain ⟨held, literal⟩ : ∃ held, Expr.mixedVector.constant? (Checker.new .shader []).kind =
      some (.vec3, held) := ⟨_, rfl⟩
  let token := Place.origin.endToken
  obtain ⟨typed, after, accepted⟩ : ∃ typed after,
      checkAssign token [some ⟨token, "x"⟩] .mixedVector (.new .shader []) =
        .ok typed after := ⟨_, _, rfl⟩
  obtain ⟨operations, compiled, runs⟩ :=
    (node_of_literal literal (by decide)).1 typed after [] none accepted
  obtain ⟨final, ran, _, houses⟩ := runs (.new [.empty "T" TreeKind.shader.label]) Nat.one_pos
  exact ⟨token, _, held, typed, after, operations, final, literal, accepted, compiled, ran, houses⟩

def Compiler.firstNode? [Evaluator] (kind : TreeKind) (source : String) : Option Node :=
  match (compile kind [] source).2 with
  | .error _ => none
  | .ok outcome =>
    match Builder.runAll outcome.operations (.new [.empty "T" kind.label]) with
    | .error _ _ => none
    | .ok _ final => final.forest.node? ⟨0, 0⟩

theorem zero_is_not_carried :
    ∃ node, Compiler.firstNode? .geometry "x = 0.0;" = some node ∧
      ∀ value, ¬node.Carries value := by
  obtain ⟨node, found, props, inputs, outputs⟩ : ∃ node,
      Compiler.firstNode? .geometry "x = 0.0;" = some node ∧ node.props.isEmpty = true ∧
      node.inputs.isEmpty = true ∧
      ∀ socket ∈ node.outputs, (socket.default matches .absent) = true := by decide +kernel
  rw [List.isEmpty_iff] at props inputs
  refine ⟨node, found, ?_⟩
  rintro value (given | kept | fed)
  · obtain ⟨socket, isHead, same⟩ := Option.map_eq_some_iff.1 given
    have absent := outputs socket (mem_of_mem_head? isHead)
    rw [same] at absent
    cases absent
  · cases props.symm.trans kept
  · rw [inputs] at fed
    cases fed

end NodeFormula
