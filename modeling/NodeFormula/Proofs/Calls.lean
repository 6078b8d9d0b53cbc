import NodeFormula.Proofs.Shapes

/-!
# The steps of a call

A function runs with a stack, variables and results of its own.  The tree of a node
group is built when it is called first, at the end of the forest, and from then on a
call only adds a node that shows it.
-/

namespace NodeFormula

open List NodeTree InterfaceSocket

variable {after : Builder} {bindings inputs outputs : List Binding} {name : String}

def Forest.groupSize (forest : Forest) (group : Nat) : GroupSize :=
  let tree := forest.getD group (.empty "" "")
  ⟨tree.inputs.length, tree.outputs.length⟩

namespace Builder

/-! ## Functions -/

section Functions

variable {outputs : List (Option SocketRef)}

theorem results_some (socket : SocketRef) (outputs : List (Option SocketRef)) (builder : Builder) :
    results (some socket :: outputs) builder = (results outputs).map (socket :: ·) builder := by
  rw [results, mapM_cons]
  rfl

theorem results_of_all (allSet : (outputs.map Option.isSome).all id = true) :
    ∃ sockets, outputs = sockets.map some ∧
      ∀ builder, results outputs builder = .ok sockets builder := by
  induction outputs with
  | nil => exact ⟨[], rfl, fun _ => rfl⟩
  | cons output _ ih =>
    cases output with
    | none => cases allSet
    | some socket =>
      obtain ⟨sockets, areSet, given⟩ := ih allSet
      refine ⟨socket :: sockets, congrArg (some socket :: ·) areSet, ?_⟩
      intro _
      rw [results_some, EStateM.map, given]

theorem results_of_not_all (notSet : (outputs.map Option.isSome).all id = false)
    (builder : Builder) : results outputs builder = .error .wrongRepresentation builder := by
  induction outputs with
  | nil => cases notSet
  | cons output _ ih =>
    cases output with
    | none =>
      rfl
    | some => rw [results_some, EStateM.map, ih notSet]

end Functions

/-- The builder where the body of a function starts. -/
def entered (builder : Builder) (names : List String) (count : Nat) : Builder :=
  { builder with
    stack := []
    vars := varsOf names (builder.stack.take names.length).reverse
    outputs := List.replicate count none }

/-- What a call leaves on the stack: nothing, its result, or a struct of them. -/
def resultItems : List SocketRef → List Item
  | [] => []
  | [socket] => [.socket socket]
  | sockets => [.struct sockets.reverse]

theorem outputItems_eq (owner : NodeRef) (indices : List Nat) :
    outputItems owner indices =
      resultItems (indices.map fun index => ⟨owner.tree, owner.index, .output, index⟩) := by
  match indices with
  | [] => rfl
  | [_] => rfl
  | _ :: _ :: _ => simp only [outputItems, map_cons, resultItems, map_reverse]

/-- The builder behind a call of a function, whose body ended in the inner one. -/
def left (outer inner : Builder) (count : Nat) (sockets : List SocketRef) : Builder :=
  { inner with
    stack := resultItems sockets ++ outer.stack.drop count
    vars := outer.vars
    outputs := outer.outputs }

/-- A function stops where its body does, or at a result that is not set, or leaves its results. -/
theorem callFunction_cases (names : List String) (body : List Operation) (count : Nat) :
    (∃ fault inner, runAll body (builder.entered names count) = .error fault inner ∧
        run (.callFunction names body count) builder = .error fault inner) ∨
      ∃ inner, runAll body (builder.entered names count) = .ok () inner ∧
        ((inner.outputs.map Option.isSome).all id = false ∧
          run (.callFunction names body count) builder =
            .error .wrongRepresentation { inner with stack := builder.stack.drop names.length } ∨
          ∃ sockets, inner.outputs = sockets.map some ∧
            run (.callFunction names body count) builder =
              .ok () (builder.left inner names.length sockets)) := by
  cases ran : runAll body (builder.entered names count) with
  | error fault inner =>
    refine .inl ⟨fault, inner, rfl, ?_⟩
    show EStateM.bind (runAll body) _ (builder.entered names count) = _
    simp only [EStateM.bind, ran]
  | ok _ inner =>
    refine .inr ⟨inner, rfl, ?_⟩
    show _ ∧ EStateM.bind (runAll body) _ (builder.entered names count) = _ ∨ ∃ sockets, _ ∧
      EStateM.bind (runAll body) _ (builder.entered names count) = _
    simp only [EStateM.bind, ran]
    show _ ∧ EStateM.bind (results inner.outputs) _ _ = _ ∨ ∃ sockets, _ ∧
      EStateM.bind (results inner.outputs) _ _ = _
    cases allSet : (inner.outputs.map Option.isSome).all id with
    | false =>
      refine .inl ⟨rfl, ?_⟩
      simp only [EStateM.bind, results_of_not_all allSet]
    | true =>
      obtain ⟨sockets, areSet, given⟩ := results_of_all allSet
      refine .inr ⟨sockets, areSet, ?_⟩
      simp only [EStateM.bind, given]
      rcases sockets with _ | ⟨_, _ | ⟨_, _⟩⟩ <;> rfl

/-! ## Node groups -/

theorem names_of_ofBinding (made : bindings.mapM ofBinding = .ok ins) :
    ins.map (·.name) = bindings.map (·.name) := by
  induction bindings generalizing ins with
  | nil =>
    cases made
    rfl
  | cons _ _ ih =>
    rw [mapM_cons] at made
    obtain ⟨_, named, made⟩ := except_bind_eq_ok made
    obtain ⟨_, others, answered⟩ := except_bind_eq_ok made
    obtain ⟨_, _, given⟩ := except_bind_eq_ok named
    cases given
    cases answered
    rw [map_cons, map_cons, ih others]

theorem length_of_ofBinding (made : bindings.mapM ofBinding = .ok ins) :
    ins.length = bindings.length := by
  simpa using congrArg length (names_of_ofBinding made)

theorem modify_last (trees : Forest) (tree : NodeTree) (change : NodeTree → NodeTree) :
    (trees ++ [tree]).modify trees.length change = trees ++ [change tree] := by
  rw [modify_eq_take_cons_drop (by simp)]
  simp

/-- All sockets of an interface are placed, or those before one that cannot be made. -/
theorem addInterface_cases {whole : NodeTree → List InterfaceSocket → NodeTree}
    (start : ∀ tree, whole tree [] = tree)
    (step : ∀ tree socket rest, whole (place socket tree) rest = whole tree (socket :: rest))
    (bindings : List Binding) (builder : Builder) (trees : Forest) (tree : NodeTree) :
    (∃ fault placed, bindings.mapM ofBinding = .error fault ∧
        addInterface trees.length place bindings { builder with forest := trees ++ [tree] } =
          .error fault { builder with forest := trees ++ [whole tree placed] }) ∨
      ∃ sockets, bindings.mapM ofBinding = .ok sockets ∧
        addInterface trees.length place bindings { builder with forest := trees ++ [tree] } =
          .ok () { builder with forest := trees ++ [whole tree sockets] } := by
  induction bindings generalizing tree with
  | nil => exact .inr ⟨[], rfl, by rw [start]; rfl⟩
  | cons binding _ ih =>
    rw [mapM_cons, addInterface]
    cases ofBinding binding with
    | error fault => exact .inl ⟨fault, [], rfl, by rw [start]; rfl⟩
    | ok socket =>
      have placed : (modify fun builder : Builder => { builder with
            forest := builder.forest.modify trees.length (place socket) } : Build Unit)
            { builder with forest := trees ++ [tree] } =
          .ok () { builder with forest := trees ++ [place socket tree] } := by
        rw [← modify_last trees tree (place socket)]
        rfl
      rcases ih (place socket tree) with ⟨fault, rest, failed, stopped⟩ | ⟨rest, made, done⟩
      · rw [step] at stopped
        exact .inl ⟨fault, _, by rw [failed]; rfl, (bind_of_ok placed).trans stopped⟩
      · rw [step] at done
        exact .inr ⟨_, by rw [made]; rfl, (bind_of_ok placed).trans done⟩

/-- The tree of a node group before its body runs: its entry and its exit. -/
def groupTree (name kind : String) (inputs outputs : List InterfaceSocket) : NodeTree :=
  let bare : NodeTree := ⟨name, kind, inputs, outputs, [], []⟩
  let entry := bare.grown (bare.freshNode "NodeGroupInput") []
  entry.grown (entry.freshNode "NodeGroupOutput") []

/-- The builder where the body of a node group starts, at the end of the forest. -/
def insideGroup (builder : Builder) (name : String) (inputs outputs : List InterfaceSocket) :
    Builder :=
  let group := builder.forest.length
  { builder with
    forest := builder.forest ++ [groupTree name builder.current.kind inputs outputs]
    tree := group
    stack := []
    vars := varsOf (inputs.map (·.name))
      ((List.range inputs.length).map fun index => .socket ⟨group, 0, .output, index⟩)
    outputs := List.replicate outputs.length none }

def outsideGroup (outer inner : Builder) (name : String) (count : Nat) : Builder :=
  { inner with
    tree := outer.tree
    stack := outer.stack.drop count
    outputs := outer.outputs
    vars := outer.vars
    groups := Table.insert name outer.forest.length inner.groups }

theorem newNode_last (builder : Builder) (trees : Forest) (tree : NodeTree) (key : String) :
    newNode key { builder with forest := trees ++ [tree], tree := trees.length } =
      .ok tree.nodes.length { builder with
        forest := trees ++ [tree.grown (tree.freshNode key) []]
        tree := trees.length } := by
  rw [newNode_eq, current, put]
  simp

theorem openGroup_cases (builder : Builder) (name : String) (inputs outputs : List Binding) :
    (∃ fault tree, tree.nodes = [] ∧ tree.links = [] ∧
        openGroup name inputs outputs builder =
          .error fault { builder with forest := builder.forest ++ [tree] } ∧
        ∀ {α : Type} (next : Except Fault α), (do
          let _ ← inputs.mapM ofBinding
          let _ ← outputs.mapM ofBinding
          next) = .error fault) ∨
      ∃ ins outs, inputs.mapM ofBinding = .ok ins ∧
        outputs.mapM ofBinding = .ok outs ∧
        openGroup name inputs outputs builder = .ok 1 (builder.insideGroup name ins outs) := by
  rw [openGroup, bind_of_ok (currentTree_eq builder), bind_get, bind_modify]
  have last (tree fallback : NodeTree) :
      (builder.forest ++ [tree]).getD builder.forest.length fallback = tree := by
    simp [getD_eq_getElem?_getD]
  let bare := empty name builder.current.kind
  rcases @addInterface_cases addInput
    (fun tree sockets => { tree with inputs := tree.inputs ++ sockets }) (by simp)
    (by simp [addInput]) inputs builder builder.forest bare with
    ⟨fault, placed, failed, stopped⟩ | ⟨ins, inputsMade, inputsAdded⟩
  · exact .inl ⟨fault, _, rfl, rfl, bind_of_error stopped, fun _ => by rw [failed]; rfl⟩
  rcases @addInterface_cases addOutput
    (fun tree sockets => { tree with outputs := tree.outputs ++ sockets }) (by simp)
    (by simp [addOutput]) outputs builder builder.forest { bare with inputs := ins } with
    ⟨fault, placed, failed, stopped⟩ | ⟨outs, outputsMade, outputsAdded⟩
  · exact .inl ⟨fault, _, rfl, rfl, (bind_of_ok inputsAdded).trans (bind_of_error stopped),
      fun _ => by rw [inputsMade, failed]; rfl⟩
  refine .inr ⟨ins, outs, inputsMade, outputsMade, ?_⟩
  refine (bind_of_ok inputsAdded).trans ((bind_of_ok outputsAdded).trans ?_)
  rw [bind_get, bind_modify]
  simp only [last, ← length_of_ofBinding outputsMade]
  have entry := newNode_last (builder.insideGroup name ins outs) builder.forest
    ⟨name, builder.current.kind, ins, outs, [], []⟩ "NodeGroupInput"
  refine (bind_of_ok entry).trans ?_
  exact newNode_last _ _ _ _

theorem openGroup_of_ok (builder : Builder) (name : String)
    (inputsMade : inputs.mapM ofBinding = .ok ins)
    (outputsMade : outputs.mapM ofBinding = .ok outs) :
    openGroup name inputs outputs builder = .ok 1 (builder.insideGroup name ins outs) := by
  rcases openGroup_cases builder name inputs outputs with
    ⟨_, _, _, _, _, stops⟩ | ⟨_, _, inputsToo, outputsToo, opened⟩
  · have stopped := stops (pure ())
    rw [inputsMade, outputsMade] at stopped
    cases stopped
  · cases inputsToo.symm.trans inputsMade
    cases outputsToo.symm.trans outputsMade
    exact opened

theorem openGroup_eq_ok (opened : openGroup name inputs outputs builder = .ok entry after) :
    ∃ ins outs, outputs.mapM ofBinding = .ok outs ∧ entry = 1 ∧
      after = builder.insideGroup name ins outs := by
  rcases openGroup_cases builder name inputs outputs with
    ⟨_, _, _, _, failed, _⟩ | ⟨ins, outs, _, outputsMade, done⟩
  · cases failed.symm.trans opened
  · cases done.symm.trans opened
    exact ⟨ins, outs, outputsMade, rfl, rfl⟩

theorem groupSize_insideGroup (builder : Builder) (name : String)
    (ins outs : List InterfaceSocket) :
    (builder.insideGroup name ins outs).forest.groupSize builder.forest.length =
      ⟨ins.length, outs.length⟩ := by
  simp [Forest.groupSize, insideGroup, groupTree, grown]

theorem run_callNodeGroup_of_known (known : builder.groups.lookup name = some group) :
    run (.callNodeGroup name inputs outputs body) builder =
      addGroupNode group (builder.stack.take inputs.length).reverse
        (builder.popped inputs.length) := by
  have knownStill : (builder.popped inputs.length).groups.lookup name = some group := known
  rw [run, bind_of_ok (popMany_eq builder _), bind_get, knownStill]

theorem run_callNodeGroup_of_new (isNew : builder.groups.lookup name = none) :
    run (.callNodeGroup name inputs outputs body) builder =
      (do let result ← openGroup name inputs outputs
          runAll body
          linkResults result 0 (← get).outputs
          modify fun inner => builder.outsideGroup inner name inputs.length
          addGroupNode builder.forest.length (builder.stack.take inputs.length).reverse)
        (builder.popped inputs.length) := by
  have isNewStill : (builder.popped inputs.length).groups.lookup name = none := isNew
  rw [run, bind_of_ok (popMany_eq builder _), bind_get, isNewStill]
  rfl

/-- The first call of a node group, step by step. -/
theorem newGroup_eq_ok (isNew : builder.groups.lookup name = none)
    (done : run (.callNodeGroup name inputs outputs body) builder = .ok () after) :
    ∃ entry inside inner linked,
      openGroup name inputs outputs (builder.popped inputs.length) = .ok entry inside ∧
      runAll body inside = .ok () inner ∧ linkResults entry 0 inner.outputs inner = .ok () linked ∧
      addGroupNode builder.forest.length (builder.stack.take inputs.length).reverse
        (builder.outsideGroup linked name inputs.length) = .ok () after := by
  rw [run_callNodeGroup_of_new isNew] at done
  obtain ⟨entry, inside, opened, rest⟩ := bind_eq_ok done
  obtain ⟨_, inner, ran, last⟩ := bind_eq_ok rest
  rw [bind_get] at last
  obtain ⟨_, linked, linking, joining⟩ := bind_eq_ok last
  exact ⟨entry, inside, inner, linked, opened, ran, linking, joining⟩

end Builder

end NodeFormula
