import NodeFormula.Builder
import NodeFormula.Proofs.Catalog
import NodeFormula.Proofs.Sequencing

/-!
# What a building step does

What the steps of the builder do, as functions on builders: a node of the catalog is added in
full, with its properties, its defaults and the links into it, and nothing that was in the tree
before changes.  For a well-formed recipe the only thing that can be missing is an argument.
-/

namespace NodeFormula

open List Option Catalog NodeTree

variable {builder after : Builder} {α : Type} {recipe : NodeRecipe} {kind : TreeKind}
  {value : Option Value} {node : InputNode}

namespace Builder

theorem pop_of_stack (stack : builder.stack = item :: rest) :
    pop builder = .ok item { builder with stack := rest } := by
  rw [pop, bind_get]
  simp only [stack]
  rfl

@[simp]
theorem runAll_cons (operation : Operation) (operations : List Operation) :
    runAll (operation :: operations) = (do run operation; runAll operations) := by
  rw [runAll]

@[simp]
theorem runAll_singleton (operation : Operation) : runAll [operation] = run operation := by
  funext builder
  rw [runAll_cons]
  cases done : run operation builder with
  | ok => exact bind_of_ok done
  | error => rw [bind_of_error done]

theorem runAll_append (first second : List Operation) :
    runAll (first ++ second) = (do runAll first; runAll second) := by
  induction first with
  | nil => rfl
  | cons operation _ ih =>
    rw [cons_append, runAll_cons, runAll_cons, ih]
    funext builder
    cases done : run operation builder with
    | ok => simp only [bind, EStateM.bind, done]
    | error => simp only [bind, EStateM.bind, done]

theorem runAll_append_of_ok (done : runAll first builder = .ok () after) :
    runAll (first ++ second) builder = runAll second after := by
  rw [runAll_append]
  exact bind_of_ok done

theorem runAll_append_eq_ok (done : runAll (first ++ second) builder = .ok () after) :
    ∃ middle, runAll first builder = .ok () middle ∧ runAll second middle = .ok () after := by
  rw [runAll_append] at done
  obtain ⟨_, middle, early, late⟩ := bind_eq_ok done
  exact ⟨middle, early, late⟩

/-! ## The tree that is being worked on -/

def Anchored (builder : Builder) : Prop := builder.tree < builder.forest.length

def current (builder : Builder) : NodeTree := builder.forest.getD builder.tree (.empty "" "")

def put (builder : Builder) (tree : NodeTree) : Builder :=
  { builder with forest := builder.forest.set builder.tree tree }

@[simp]
theorem put_put (builder : Builder) (first second : NodeTree) :
    (builder.put first).put second = builder.put second := by
  simp [put]

theorem current_put (anchored : builder.Anchored) (tree : NodeTree) :
    (builder.put tree).current = tree := by
  rw [Anchored] at anchored
  simp [current, put, anchored]

theorem forest_getElem?_tree (anchored : builder.Anchored) :
    builder.forest[builder.tree]? = some builder.current := by
  rw [Anchored] at anchored
  simp [current, anchored]

theorem forest_modify (builder : Builder) (change : NodeTree → NodeTree) :
    builder.forest.modify builder.tree change =
      builder.forest.set builder.tree (change builder.current) := by
  apply ext_getElem?
  intro index
  rw [getElem?_modify]
  by_cases here : builder.tree = index
  · subst here
    by_cases anchored : builder.tree < builder.forest.length
    · rw [forest_getElem?_tree anchored]
      simp [anchored]
    · simp [anchored]
  · simp [here]

theorem put_modify (builder : Builder) (change : NodeTree → NodeTree) :
    { builder with forest := builder.forest.modify builder.tree change } =
      builder.put (change builder.current) := by
  rw [put, ← forest_modify]

theorem modifyTree_eq (builder : Builder) (change : NodeTree → NodeTree) :
    modifyTree change builder = .ok () (builder.put (change builder.current)) := by
  rw [← put_modify]
  rfl

theorem currentTree_eq (builder : Builder) : currentTree builder = .ok builder.current builder :=
  rfl

/-! ## Feeding the inputs of the node that is being made -/

end Builder

namespace Item

def isIdle : Item → Bool
  | .absent | .value .blank => true
  | _ => false

def linksTo (target : SocketRef) : Item → List Link
  | .socket source => [⟨source, target⟩]
  | _ => []

end Item

def Node.fed (node : Node) (index : Nat) : Item → Node
  | .absent | .value .blank | .socket _ => node
  | item => node.setInput index item

def NodeTree.grown (tree : NodeTree) (node : Node) (links : List Link) : NodeTree :=
  { tree with nodes := tree.nodes ++ [node], links := tree.links ++ links }

namespace Builder

/-- Whether every input with a given index exists unless nothing is done with it. -/
def accepts (count : Nat) : List Nat → List Item → Bool
  | [], _ => true
  | _ :: _, [] => false
  | index :: indices, item :: items =>
    (item.isIdle || index < count) && accepts count indices items

def fedAll (node : Node) : List (Nat × Item) → Node
  | [] => node
  | (index, item) :: rest => fedAll (node.fed index item) rest

def linksInto (owner : NodeRef) (fed : List (Nat × Item)) : List Link :=
  fed.flatMap fun entry => entry.2.linksTo ⟨owner.tree, owner.index, .input, entry.1⟩

@[simp]
theorem length_inputs_fed (node : Node) (index : Nat) (item : Item) :
    (node.fed index item).inputs.length = node.inputs.length := by
  unfold Node.fed
  split <;> simp [Node.setInput]

section Feeding

variable {tree : NodeTree} {node : Node} {links : List Link}

theorem nodeAt_last (anchored : builder.Anchored) :
    nodeAt tree.nodes.length (builder.put (tree.grown node links)) =
      .ok node (builder.put (tree.grown node links)) := by
  rw [nodeAt, bind_of_ok (currentTree_eq _), current_put anchored]
  simp [grown, pure, EStateM.pure]

theorem socketAt_last (anchored : builder.Anchored) (inRange : index < (node.sockets side).length) :
    socketAt tree.nodes.length side index (builder.put (tree.grown node links)) =
      .ok ⟨builder.tree, tree.nodes.length, side, index⟩ (builder.put (tree.grown node links)) := by
  rw [socketAt, bind_of_ok (nodeAt_last anchored), if_pos inRange]
  rfl

theorem socketAt_last_of_le (anchored : builder.Anchored)
    (outside : (node.sockets side).length ≤ index) :
    socketAt tree.nodes.length side index (builder.put (tree.grown node links)) =
      .error .listIndex (builder.put (tree.grown node links)) := by
  rw [socketAt, bind_of_ok (nodeAt_last anchored), if_neg (Nat.not_lt.mpr outside)]
  rfl

theorem addNode_eq_grown (tree : NodeTree) (node : Node) :
    tree.addNode node = tree.grown node [] := by
  simp [addNode, grown]

theorem grown_modifyNode (change : Node → Node) :
    (tree.grown node links).modifyNode tree.nodes.length change =
      tree.grown (change node) links := by
  have last : (tree.nodes ++ [node]).modify tree.nodes.length change =
      tree.nodes ++ [change node] := by
    rw [modify_eq_take_cons_drop (by simp)]
    simp
  rw [modifyNode, grown, last, grown]

theorem grown_addLink (link : Link) :
    (tree.grown node links).addLink link = tree.grown node (links ++ [link]) := by
  simp [addLink, grown]

theorem feed_of_fits (anchored : builder.Anchored)
    (fits : item.isIdle = true ∨ index < node.inputs.length) :
    feed tree.nodes.length index item (builder.put (tree.grown node links)) =
      .ok () (builder.put (tree.grown (node.fed index item)
        (links ++ item.linksTo ⟨builder.tree, tree.nodes.length, .input, index⟩))) := by
  -- Only an idle item may lack its socket, and it is not looked for then.
  have inRange (busy : item.isIdle = false) : index < (node.sockets .input).length := by
    rcases fits with idle | below
    · rw [busy] at idle
      cases idle
    · exact below
  have setting (busy : item.isIdle = false) (value : Item) :
      (do let _ ← socketAt tree.nodes.length .input index
          modifyTree (·.modifyNode tree.nodes.length (·.setInput index value)))
        (builder.put (tree.grown node links)) =
      .ok () (builder.put (tree.grown (node.setInput index value) links)) := by
    rw [bind_of_ok (socketAt_last anchored (inRange busy)), modifyTree_eq, current_put anchored,
      grown_modifyNode, put_put]
  cases item with
  | absent => simp [feed, Node.fed, Item.linksTo, pure, EStateM.pure]
  | socket =>
    rw [feed, bind_of_ok (socketAt_last anchored (inRange rfl)), modifyTree_eq,
      current_put anchored, grown_addLink, put_put, Item.linksTo, Node.fed]
  | struct =>
    simp only [Item.linksTo, append_nil]
    exact setting rfl _
  | value value =>
    simp only [Item.linksTo, append_nil]
    cases value with
    | blank => rfl
    | _ => exact setting rfl _

theorem feed_of_not_fits (anchored : builder.Anchored) (busy : item.isIdle = false)
    (outside : node.inputs.length ≤ index) :
    feed tree.nodes.length index item (builder.put (tree.grown node links)) =
      .error .listIndex (builder.put (tree.grown node links)) := by
  have missing : socketAt tree.nodes.length .input index (builder.put (tree.grown node links)) =
      .error .listIndex (builder.put (tree.grown node links)) :=
    socketAt_last_of_le anchored outside
  cases item with
  | absent => cases busy
  | socket => exact bind_of_error missing
  | struct => exact bind_of_error missing
  | value value =>
    cases value with
    | blank => cases busy
    | _ => exact bind_of_error missing

/-- Feeding several inputs succeeds exactly if those exist that something is done with. -/
theorem feedAll_of_accepts (anchored : builder.Anchored)
    (accepted : accepts node.inputs.length indices items = true) :
    feedAll tree.nodes.length indices items (builder.put (tree.grown node links)) =
      .ok () (builder.put (tree.grown (fedAll node (indices.zip items))
        (links ++ linksInto ⟨builder.tree, tree.nodes.length⟩ (indices.zip items)))) := by
  induction indices generalizing node links items with
  | nil => simp [feedAll, fedAll, linksInto, pure, EStateM.pure]
  | cons _ _ ih =>
    cases items with
    | nil => cases accepted
    | cons =>
      simp only [accepts, Bool.and_eq_true, Bool.or_eq_true, decide_eq_true_eq] at accepted
      obtain ⟨fits, rest⟩ := accepted
      rw [feedAll, bind_of_ok (feed_of_fits anchored fits), ih (by simpa using rest)]
      simp [fedAll, linksInto]

theorem feedAll_of_not_accepts (anchored : builder.Anchored)
    (refused : accepts node.inputs.length indices items = false) :
    ∃ after, feedAll tree.nodes.length indices items (builder.put (tree.grown node links)) =
      .error .listIndex after := by
  induction indices generalizing node links items with
  | nil => cases refused
  | cons index _ ih =>
    cases items with
    | nil => exact ⟨_, rfl⟩
    | cons item =>
      rw [feedAll]
      by_cases fits : item.isIdle = true ∨ index < node.inputs.length
      · rw [bind_of_ok (feed_of_fits anchored fits)]
        apply ih
        simpa [accepts, fits] using refused
      · simp only [not_or, Bool.not_eq_true, Nat.not_lt] at fits
        exact ⟨_, bind_of_error (feed_of_not_fits anchored fits.1 fits.2)⟩

end Feeding

/-! ## Pushing the outputs of a node -/

def outputItems (owner : NodeRef) : List Nat → List Item
  | [] => []
  | [index] => [.socket ⟨owner.tree, owner.index, .output, index⟩]
  | indices =>
    [.struct (indices.reverse.map fun index => ⟨owner.tree, owner.index, .output, index⟩)]

theorem mapM_of_ok {step : α → Build β} {inputs : List α}
    (each : ∀ input ∈ inputs, step input builder = .ok (answer input) builder) :
    inputs.mapM step builder = .ok (inputs.map answer) builder := by
  induction inputs with
  | nil => rfl
  | cons input _ ih =>
    rw [mapM_cons, bind_of_ok (each input mem_cons_self),
      bind_of_ok (ih fun other member => each other (mem_cons_of_mem _ member))]
    rfl

theorem pushOutputs_of_lt {node : Nat}
    (each : ∀ index ∈ indices, socketAt node .output index builder =
      .ok ⟨builder.tree, node, .output, index⟩ builder) :
    pushOutputs node indices builder =
      .ok ()
        { builder with stack := outputItems ⟨builder.tree, node⟩ indices ++ builder.stack } := by
  match indices with
  | [] => rfl
  | [index] =>
    rw [pushOutputs, bind_of_ok (each index mem_cons_self)]
    rfl
  | first :: second :: rest =>
    have all : (first :: second :: rest).reverse.mapM (socketAt node .output) builder =
        .ok ((first :: second :: rest).reverse.map fun index =>
          ⟨builder.tree, node, .output, index⟩) builder :=
      mapM_of_ok fun index member => each index (mem_reverse.mp member)
    simp only [pushOutputs]
    rw [bind_of_ok all]
    rfl

/-! ## Making a node of the catalog -/

theorem fedAll_outputs (node : Node) (fed : List (Nat × Item)) :
    (fedAll node fed).outputs = node.outputs := by
  induction fed generalizing node with
  | nil => rfl
  | cons _ _ ih =>
    rw [fedAll, ih]
    unfold Node.fed
    split <;> rfl

theorem newNode_eq (builder : Builder) (key : String) :
    newNode key builder = .ok builder.current.nodes.length
      (builder.put (builder.current.grown (builder.current.freshNode key) [])) := by
  rw [newNode, bind_of_ok (currentTree_eq builder), bind_of_ok (modifyTree_eq _ _),
    addNode_eq_grown]
  rfl

def popped (builder : Builder) (count : Nat) : Builder :=
  { builder with stack := builder.stack.drop count }

theorem popMany_eq (builder : Builder) (count : Nat) :
    popMany count builder = .ok (builder.stack.take count).reverse (builder.popped count) :=
  rfl

def bare (recipe : NodeRecipe) (tree : NodeTree) : Node :=
  recipe.props.foldl (fun made prop => made.setProp prop.1 prop.2) (tree.freshNode recipe.key)

theorem foldl_setProp_sockets (props : List (String × Value)) (node : Node) (side : Side) :
    (props.foldl (fun made prop => made.setProp prop.1 prop.2) node).sockets side =
      node.sockets side := by
  induction props generalizing node with
  | nil => rfl
  | cons _ _ ih =>
    rw [foldl_cons, ih]
    cases side <;> rfl

theorem length_sockets_bare (wellFormed : recipe.WellFormed) (tree : NodeTree) :
    (bare recipe tree).inputs.length = recipe.shape.inputs.length ∧
      (bare recipe tree).outputs.length = recipe.shape.outputs.length := by
  have inputs : (bare recipe tree).inputs = (tree.socketsOf recipe.key).1 :=
    foldl_setProp_sockets recipe.props _ .input
  have outputs : (bare recipe tree).outputs = (tree.socketsOf recipe.key).2 :=
    foldl_setProp_sockets recipe.props _ .output
  rw [inputs, outputs]
  exact wellFormed.socketsOf_length tree

def nextNode (builder : Builder) : NodeRef := ⟨builder.tree, builder.current.nodes.length⟩

def arguments (builder : Builder) (recipe : NodeRecipe) : List (Nat × Item) :=
  recipe.inputs.zip (builder.stack.take recipe.inputs.length).reverse

/--
The builder after making the node of a recipe with the arguments on the stack, and then `finish`.
-/
def installed (builder : Builder) (recipe : NodeRecipe) (finish : Node → Node) : Builder :=
  let made := fedAll (bare recipe builder.current) (builder.arguments recipe)
  { builder.put (builder.current.grown (finish made)
      (linksInto builder.nextNode (builder.arguments recipe))) with
    stack := outputItems builder.nextNode recipe.outputs ++ builder.stack.drop recipe.inputs.length
    added := builder.added ++ [builder.nextNode] }

theorem accepts_of_lt {count : Nat} (inRange : ∀ index ∈ indices, index < count) :
    accepts count indices items = decide (indices.length ≤ items.length) := by
  induction indices generalizing items with
  | nil => simp [accepts]
  | cons index _ ih =>
    cases items with
    | nil => simp [accepts]
    | cons =>
      have head : index < count := inRange index mem_cons_self
      rw [accepts, ih fun other member => inRange other (mem_cons_of_mem _ member)]
      simp [head]

section Making

/-- A node is added and given its properties or sockets, but is not fed yet. -/
def started (builder : Builder) (key : String) (change : Node → Node) : Builder :=
  { builder with
    forest :=
      (builder.forest.modify builder.tree fun tree => tree.addNode (tree.freshNode key)).modify
      builder.tree (·.modifyNode builder.current.nodes.length change) }

theorem started_eq (anchored : builder.Anchored) (key : String) (change : Node → Node) :
    builder.started key change =
      builder.put (builder.current.grown (change (builder.current.freshNode key)) []) := by
  have adding := put_modify builder fun tree => tree.addNode (tree.freshNode key)
  have changing :=
    put_modify (builder.put (builder.current.addNode (builder.current.freshNode key)))
    (·.modifyNode builder.current.nodes.length change)
  rw [current_put anchored, put_put, ← adding, addNode_eq_grown, grown_modifyNode] at changing
  exact changing

theorem callBuiltin_eq (recipe : NodeRecipe) (builder : Builder) :
    callBuiltin recipe builder =
      (do feedAll builder.current.nodes.length recipe.inputs
            (builder.stack.take recipe.inputs.length).reverse
          pushOutputs builder.current.nodes.length recipe.outputs
          remember builder.current.nodes.length)
        ((builder.popped recipe.inputs.length).started recipe.key fun made =>
          recipe.props.foldl (fun made (prop : String × Value) => made.setProp prop.1 prop.2)
            made) := rfl

theorem callBuiltin_of_le (wellFormed : recipe.WellFormed) (anchored : builder.Anchored)
    (enough : recipe.inputs.length ≤ builder.stack.length) :
    callBuiltin recipe builder = .ok () (builder.installed recipe id) := by
  obtain ⟨inputCount, outputCount⟩ := length_sockets_bare wellFormed builder.current
  have anchoredPopped : (builder.popped recipe.inputs.length).Anchored := anchored
  have accepted : accepts (bare recipe builder.current).inputs.length recipe.inputs
      (builder.stack.take recipe.inputs.length).reverse = true := by
    rw [inputCount, accepts_of_lt wellFormed.inputs_lt]
    simp [enough]
  rw [callBuiltin_eq, started_eq anchoredPopped]
  refine (bind_of_ok (feedAll_of_accepts anchoredPopped accepted)).trans ?_
  rw [bind_of_ok (pushOutputs_of_lt ?_)]
  · rfl
  · intro index member
    apply socketAt_last anchoredPopped
    show index < length (Node.outputs _)
    rw [fedAll_outputs, outputCount]
    exact wellFormed.outputs_lt index member

theorem callBuiltin_of_lt (wellFormed : recipe.WellFormed) (anchored : builder.Anchored)
    (short : builder.stack.length < recipe.inputs.length) :
    ∃ after, callBuiltin recipe builder = .error .listIndex after := by
  have anchoredPopped : (builder.popped recipe.inputs.length).Anchored := anchored
  have refused : accepts (bare recipe builder.current).inputs.length recipe.inputs
      (builder.stack.take recipe.inputs.length).reverse = false := by
    rw [(length_sockets_bare wellFormed builder.current).1, accepts_of_lt wellFormed.inputs_lt]
    rw [length_reverse, length_take, decide_eq_false_iff_not]
    omega
  obtain ⟨after, failed⟩ := feedAll_of_not_accepts anchoredPopped refused
  refine ⟨after, ?_⟩
  rw [callBuiltin_eq, started_eq anchoredPopped]
  exact bind_of_error failed

theorem modifyLast_installed (anchored : builder.Anchored) (finish change : Node → Node) :
    modifyLast change (builder.installed recipe finish) =
      .ok () (builder.installed recipe fun node => change (finish node)) := by
  have last : (builder.installed recipe finish).added.getLast? = some builder.nextNode := by
    simp [installed]
  have changed : (builder.installed recipe finish).forest.modifyNode builder.nextNode change =
      (builder.installed recipe fun node => change (finish node)).forest := by
    have modified := forest_modify (builder.installed recipe finish)
      (·.modifyNode builder.current.nodes.length change)
    have inTree : (builder.installed recipe finish).current =
        builder.current.grown (finish (fedAll (bare recipe builder.current)
          (builder.arguments recipe))) (linksInto builder.nextNode (builder.arguments recipe)) :=
      current_put anchored _
    rw [inTree, grown_modifyNode] at modified
    refine modified.trans ?_
    simp [installed, put]
  have step : modifyLast change (builder.installed recipe finish) =
      .ok () { builder.installed recipe finish with
        forest :=
          (builder.installed recipe finish).forest.modifyNode builder.nextNode change } := by
    rw [modifyLast, bind_get]
    simp only [last]
    rfl
  rw [step, changed]
  rfl

theorem node?_nextNode_installed (anchored : builder.Anchored) (recipe : NodeRecipe)
    (finish : Node → Node) : (builder.installed recipe finish).forest.node? builder.nextNode =
      some (finish (fedAll (bare recipe builder.current) (builder.arguments recipe))) := by
  have below : builder.tree < builder.forest.length := anchored
  simp [installed, put, Forest.node?, nextNode, below, grown]

end Making

end Builder

/-! ## Input nodes -/

/--
A node that stands for a constant, or for a name that was never assigned: what is fed to it, its
recipe, and the value in its output.
-/
structure InputNode where
  args : List (Option Value)
  recipe : NodeRecipe
  held : Option Value

namespace InputNode

def holding (key prop : String) (value : Option Value) : InputNode :=
  ⟨[], ⟨key, [], [0], (value.map fun value => (prop, value)).toList⟩, none⟩

def combining (components : List (Option Value)) : InputNode :=
  ⟨components, ⟨"ShaderNodeCombineXYZ", [0, 1, 2], [0], []⟩, none⟩

/-- The operations that make the node.  An output that is to hold zero is not set. -/
def operations (name : String) (node : InputNode) : List Operation :=
  node.args.map Operation.pushValue ++ (Operation.callBuiltin node.recipe ::
    ((node.held.filter (·.isNonzero)).map (Operation.setOutput 0 ·)).toList) ++
      [Operation.renameNode name]

def finish (name : String) (node : InputNode) (made : Node) : Node :=
  let held := match node.held.filter (·.isNonzero) with
    | some value => made.setOutput 0 (.value value)
    | none => made
  { held with label := name }

end InputNode

namespace TreeKind

/-- The node that stands for a value of a type; some types have none. -/
def inputNode? (kind : TreeKind) (value : Option Value) : DataType → Option InputNode
  | .float | .unknown => some ⟨[], ⟨"ShaderNodeValue", [], [0], []⟩, value⟩
  | .bool => some (.holding "FunctionNodeInputBool" "boolean" value)
  | .int => some (.holding "FunctionNodeInputInt" "integer" value)
  | .rgba => some (.holding "FunctionNodeInputColor" "color" value)
  | .string => some (.holding "FunctionNodeInputString" "string" value)
  | .vec3 =>
    match kind, value with
    | .geometry, value => some (.holding "FunctionNodeInputVector" "vector" value)
    | .shader, some (.vector components) =>
      some (.combining (components.map fun component => some component.toValue))
    | .shader, none => some (.combining [none, none, none])
    | .shader, some _ => none
  | _ => none

theorem inputNode?_of_createInput {name}
    (created : kind.createInput name value type = .ok operations) :
    ∃ node, kind.inputNode? value type = some node ∧ operations = node.operations name := by
  -- The one place where the two differ in form: whether the output is set is a `match` there.
  have setting (value : Option Value) :
      ((Operation.callBuiltin ⟨"ShaderNodeValue", [], [0], []⟩ :: match value with
        | some value => if value.isNonzero then [Operation.setOutput 0 value] else []
        | none => []) ++ [Operation.renameNode name]) =
        InputNode.operations name ⟨[], ⟨"ShaderNodeValue", [], [0], []⟩, value⟩ := by
    cases value with
    | none => rfl
    | some value => by_cases nonzero : value.isNonzero <;>
        simp [InputNode.operations, Option.filter, nonzero]
  cases type with
  | float | unknown => exact ⟨_, rfl, (Except.ok.inj created).symm.trans (setting value)⟩
  | bool | int | rgba | string => exact ⟨_, rfl, (Except.ok.inj created).symm⟩
  | vec3 =>
    cases kind with
    | geometry => exact ⟨_, rfl, (Except.ok.inj created).symm⟩
    | shader =>
      cases value with
      | none => exact ⟨_, rfl, (Except.ok.inj created).symm⟩
      | some value =>
        cases value with
        | vector =>
          refine ⟨_, rfl, (Except.ok.inj created).symm.trans ?_⟩
          simp [InputNode.operations, InputNode.combining]
        | _ => cases created
  | _ => cases created

end TreeKind

namespace InputNode

theorem wellFormed (found : kind.inputNode? value type = some node) :
    node.recipe.WellFormed ∧ node.recipe.outputs = [0] := by
  have holding (label key prop : String) (listed : (label, ⟨key, [], [0], []⟩) ∈ builtRecipes) :
      (holding key prop value).recipe.WellFormed :=
    (wellFormed_built listed).withProp _
  have combining (components : List (Option Value)) :
      (combining components).recipe.WellFormed := by
    apply wellFormed_built
    show ("combine", _) ∈ builtRecipes
    simp [builtRecipes, combining]
  cases type with
  | float | unknown =>
    obtain rfl := some.inj found
    refine ⟨?_, rfl⟩
    apply wellFormed_built
    show ("float", _) ∈ builtRecipes
    simp [builtRecipes]
  | bool =>
    obtain rfl := some.inj found
    exact ⟨holding "bool" _ _ (by simp [builtRecipes]), rfl⟩
  | int =>
    obtain rfl := some.inj found
    exact ⟨holding "int" _ _ (by simp [builtRecipes]), rfl⟩
  | rgba =>
    obtain rfl := some.inj found
    exact ⟨holding "rgba" _ _ (by simp [builtRecipes]), rfl⟩
  | string =>
    obtain rfl := some.inj found
    exact ⟨holding "string" _ _ (by simp [builtRecipes]), rfl⟩
  | vec3 =>
    cases kind with
    | geometry =>
      obtain rfl := some.inj found
      exact ⟨holding "vec3" _ _ (by simp [builtRecipes]), rfl⟩
    | shader =>
      cases value with
      | none =>
        obtain rfl := some.inj found
        exact ⟨combining _, rfl⟩
      | some value =>
        cases value with
        | vector =>
          obtain rfl := some.inj found
          exact ⟨combining _, rfl⟩
        | _ => cases found
  | _ => cases found

theorem complete (found : kind.inputNode? value type = some node)
    (format : ∀ held, value = some held → type = .vec3 → ∃ a b c, held = .vector [a, b, c]) :
    node.args.length = node.recipe.inputs.length := by
  cases type with
  | vec3 =>
    cases kind with
    | geometry =>
      obtain rfl := some.inj found
      rfl
    | shader =>
      cases value with
      | none =>
        obtain rfl := some.inj found
        rfl
      | some held =>
        obtain ⟨_, _, _, rfl⟩ := format held rfl rfl
        obtain rfl := some.inj found
        rfl
  | float | unknown | bool | int | rgba | string =>
    obtain rfl := some.inj found
    rfl
  | _ => cases found

end InputNode

namespace Builder

def pushed (builder : Builder) (items : List Item) : Builder :=
  { builder with stack := items.reverse ++ builder.stack }

theorem runAll_pushValues (builder : Builder) (values : List (Option Value)) :
    runAll (values.map .pushValue) builder = .ok () (builder.pushed (values.map .ofOption)) := by
  induction values generalizing builder with
  | nil => rfl
  | cons value _ ih =>
    have first : run (.pushValue value) builder = .ok () (builder.pushed [.ofOption value]) := by
      rfl
    rw [map_cons, runAll_cons, bind_of_ok first, ih]
    simp [pushed]

theorem run_setOutput_installed (wellFormed : recipe.WellFormed) (outputs : recipe.outputs = [0])
    (anchored : builder.Anchored) (value : Value) :
    run (.setOutput 0 value) (builder.installed recipe id) =
      .ok () (builder.installed recipe (·.setOutput 0 (.value value))) := by
  have last : (builder.installed recipe id).added.getLast? = some builder.nextNode := by
    simp [installed]
  have exists_output : 0 < (((builder.installed recipe id).forest.node? builder.nextNode).map
      (·.outputs.length)).getD 0 := by
    have inShape : 0 < recipe.shape.outputs.length :=
      wellFormed.outputs_lt 0 (by rw [outputs]; exact mem_cons_self)
    rw [node?_nextNode_installed anchored recipe, map_some, getD_some, id, fedAll_outputs,
      (length_sockets_bare wellFormed _).2]
    exact inShape
  rw [run, bind_get]
  simp only [last, if_pos exists_output]
  exact modifyLast_installed anchored id _

theorem runAll_inputNode (name : String) (wellFormed : node.recipe.WellFormed)
    (outputs : node.recipe.outputs = [0]) (anchored : builder.Anchored)
    (enough : node.recipe.inputs.length ≤ node.args.length + builder.stack.length) :
    runAll (node.operations name) builder =
      .ok () ((builder.pushed (node.args.map .ofOption)).installed node.recipe
        (node.finish name)) := by
  have anchoredPushed : (builder.pushed (node.args.map .ofOption)).Anchored := anchored
  have calling : run (.callBuiltin node.recipe) (builder.pushed (node.args.map .ofOption)) =
      .ok () ((builder.pushed (node.args.map .ofOption)).installed node.recipe id) := by
    apply callBuiltin_of_le wellFormed anchoredPushed
    simpa [pushed] using enough
  rw [InputNode.operations, append_assoc,
    runAll_append_of_ok (runAll_pushValues builder node.args), cons_append, runAll_cons,
    bind_of_ok calling]
  unfold InputNode.finish
  cases node.held.filter (·.isNonzero) with
  | none =>
    rw [map_none, toList_none, nil_append, runAll_singleton]
    exact modifyLast_installed anchoredPushed id _
  | some value =>
    rw [map_some, toList_some, cons_append, runAll_cons,
      bind_of_ok (run_setOutput_installed wellFormed outputs anchoredPushed value),
      nil_append, runAll_singleton, run]
    exact modifyLast_installed anchoredPushed _ _

end Builder

end NodeFormula
