import NodeFormula.Proofs.Calls

/-!
# What a call leaves behind

A function and a node group run with a stack, variables and results of their own, and a node group
also in a tree of its own.  All that is left of a call on the outside are its results, in place of
its arguments.  The trees that were there keep their interface and the sockets of their nodes, and
only new nodes are linked.
-/

namespace NodeFormula

open List

variable {before base : Forest} {builder after : Builder} {α β : Type}

def Operation.arity? : Operation → Option (Nat × Nat)
  | .callFunction inputs _ count => some (inputs.length, count)
  | .callNodeGroup _ inputs outputs _ => some (inputs.length, outputs.length)
  | _ => none

/-! ## Forests only gain nodes -/

/-- The node shows the same tree and has as many sockets on each side. -/
def Node.Lasts (node later : Node) : Prop :=
  later.group = node.group ∧
    ∀ side, (later.sockets side).length = (node.sockets side).length

theorem Node.lasts_setOutput (node : Node) (index : Nat) (item : Item) :
    node.Lasts (node.setOutput index item) := by
  refine ⟨rfl, fun side => ?_⟩
  cases side with
  | input => rfl
  | output => exact length_modify ..

def NodeTree.Has (tree : NodeTree) (node : Nat) (side : Side) (index : Nat) : Prop :=
  ∃ found, tree.nodes[node]? = some found ∧ index < (found.sockets side).length

/-- The interface and the sockets of the nodes are kept, and only new nodes are linked. -/
structure NodeTree.Embeds (tree later : NodeTree) : Prop where
  inputs : later.inputs = tree.inputs
  outputs : later.outputs = tree.outputs
  nodes : ∀ {index : Nat} {node : Node}, tree.nodes[index]? = some node →
    ∃ kept, later.nodes[index]? = some kept ∧ node.Lasts kept
  links : ∀ link ∈ later.links, link ∈ tree.links ∨ tree.nodes.length ≤ link.target.node

namespace NodeTree.Embeds

variable {tree : NodeTree}

theorem refl (tree : NodeTree) : tree.Embeds tree :=
  ⟨rfl, rfl, fun found => ⟨_, found, rfl, fun _ => rfl⟩, fun _ => .inl⟩

theorem length_le (embeds : tree.Embeds later) : tree.nodes.length ≤ later.nodes.length := by
  apply Nat.le_of_not_lt
  intro inside
  obtain ⟨_, found, _⟩ := embeds.nodes (List.getElem?_eq_getElem inside)
  exact Nat.lt_irrefl _ (List.getElem?_eq_some_iff.1 found).1

theorem trans (early : tree.Embeds later) (late : later.Embeds last) : tree.Embeds last := by
  refine ⟨late.inputs.trans early.inputs, late.outputs.trans early.outputs, ?_, ?_⟩
  · intro _ _ found
    obtain ⟨_, foundLater, sameEarly⟩ := early.nodes found
    obtain ⟨still, foundLast, sameLate⟩ := late.nodes foundLater
    exact ⟨still, foundLast, sameLate.1.trans sameEarly.1,
      fun side => (sameLate.2 side).trans (sameEarly.2 side)⟩
  · intro link member
    rcases late.links link member with old | new
    · exact early.links link old
    · exact .inr (Nat.le_trans early.length_le new)

theorem addNode (embeds : tree.Embeds later) (node : Node) : tree.Embeds (later.addNode node) := by
  refine ⟨embeds.inputs, embeds.outputs, ?_, embeds.links⟩
  intro _ _ found
  obtain ⟨kept, foundLater, same⟩ := embeds.nodes found
  refine ⟨kept, ?_, same⟩
  rw [NodeTree.addNode, List.getElem?_append_left (List.getElem?_eq_some_iff.1 foundLater).1]
  exact foundLater

theorem modifyNode (embeds : tree.Embeds later)
    (keeps : place < tree.nodes.length → ∀ node : Node, node.Lasts (change node)) :
    tree.Embeds (later.modifyNode place change) := by
  refine ⟨embeds.inputs, embeds.outputs, ?_, embeds.links⟩
  intro index _ found
  obtain ⟨kept, foundLater, same⟩ := embeds.nodes found
  rw [NodeTree.modifyNode, getElem?_modify, foundLater]
  by_cases here : place = index
  · subst here
    obtain ⟨group, sockets⟩ := keeps (List.getElem?_eq_some_iff.1 found).1 kept
    exact ⟨change kept, by simp, group.trans same.1, fun side => (sockets side).trans (same.2 side)⟩
  · exact ⟨kept, by simp [here], same⟩

theorem addLink (embeds : tree.Embeds later) (isNew : tree.nodes.length ≤ link.target.node) :
    tree.Embeds (later.addLink link) := by
  refine ⟨embeds.inputs, embeds.outputs, embeds.nodes, ?_⟩
  intro other member
  rcases mem_append.1 member with old | last
  · exact embeds.links other old
  · cases mem_singleton.1 last
    exact .inr isNew

end NodeTree.Embeds

def Forest.Embeds (before after : Forest) : Prop :=
  ∀ (index : Nat) (tree : NodeTree), before[index]? = some tree →
    ∃ later, after[index]? = some later ∧ tree.Embeds later

namespace Forest.Embeds

variable {after : Forest}

theorem refl (forest : Forest) : forest.Embeds forest :=
  fun _ tree found => ⟨tree, found, .refl tree⟩

theorem trans (early : before.Embeds after) (late : after.Embeds last) : before.Embeds last := by
  intro index tree found
  obtain ⟨later, foundLater, embeds⟩ := early index tree found
  obtain ⟨final, foundFinal, embedsLater⟩ := late index later foundLater
  exact ⟨final, foundFinal, embeds.trans embedsLater⟩

theorem length_le (embeds : before.Embeds after) : before.length ≤ after.length := by
  apply Nat.le_of_not_lt
  intro inside
  obtain ⟨_, found, _⟩ := embeds _ _ (List.getElem?_eq_getElem inside)
  exact Nat.lt_irrefl _ (List.getElem?_eq_some_iff.1 found).1

theorem groupSize (embeds : before.Embeds after) (inside : group < before.length) :
    after.groupSize group = before.groupSize group := by
  obtain ⟨_, found, kept⟩ := embeds _ _ (List.getElem?_eq_getElem inside)
  simp [Forest.groupSize, found, kept.inputs, kept.outputs, inside]

theorem append (forest : Forest) (trees : List NodeTree) : forest.Embeds (forest ++ trees) := by
  intro _ tree found
  refine ⟨tree, ?_, .refl tree⟩
  rw [List.getElem?_append_left (List.getElem?_eq_some_iff.1 found).1, found]

theorem modify (embeds : before.Embeds after) {change : NodeTree → NodeTree}
    (keeps : ∀ tree later, before[place]? = some tree → tree.Embeds later →
      tree.Embeds (change later)) : before.Embeds (after.modify place change) := by
  intro index tree found
  obtain ⟨later, foundLater, kept⟩ := embeds index tree found
  rw [getElem?_modify, foundLater]
  by_cases here : place = index
  · subst here
    exact ⟨change later, by simp, keeps tree later found kept⟩
  · exact ⟨later, by simp [here], kept⟩

end Forest.Embeds

def NodeTree.face (tree : NodeTree) :
    List InterfaceSocket × List InterfaceSocket × List (Option Nat) :=
  (tree.inputs, tree.outputs, tree.nodes.map (·.group))

theorem Forest.groupSize_of_faces {after : Forest}
    (same : after.map NodeTree.face = before.map NodeTree.face) (group : Nat) :
    after.groupSize group = before.groupSize group := by
  have faces := congrArg (·[group]?) same
  simp only [getElem?_map] at faces
  simp only [groupSize]
  cases earlier : before[group]? <;> cases later : after[group]? <;>
    simp_all [NodeTree.face]

theorem map_modify_of_same (view : α → β) {change}
    (same : ∀ item, view (change item) = view item) (items : List α) (index : Nat) :
    (items.modify index change).map view = items.map view := by
  apply ext_getElem?
  intro place
  rw [getElem?_map, getElem?_map, getElem?_modify]
  cases items[place]? with
  | none => rfl
  | some => by_cases here : index = place <;> simp [here, same]

namespace Builder

/-! ## Steps that only change the forest -/

/-- The builder that a step ends with, whether it succeeds or not. -/
def ending {α : Type} : EStateM.Result Fault Builder α → Builder
  | .ok _ after | .error _ after => after

section Sequences

variable {next : α → Build β}

theorem ending_bind (property : Builder → Prop) (first : property (ending (step builder)))
    (rest : ∀ {answer middle}, step builder = .ok answer middle →
      property middle → property (ending (next answer middle))) :
    property (ending ((step >>= next) builder)) := by
  cases done : step builder with
  | ok =>
    rw [done] at first
    rw [bind_of_ok done]
    exact rest done first
  | error =>
    rw [done] at first
    rw [bind_of_error done]
    exact first

end Sequences

/-! ## What a node is fed -/

theorem socketAt_cases (builder : Builder) (node : Nat) (side : Side) (index : Nat) :
    builder.current.Has node side index ∧
        socketAt node side index builder = .ok ⟨builder.tree, node, side, index⟩ builder ∨
      ¬ builder.current.Has node side index ∧
        socketAt node side index builder = .error .listIndex builder := by
  have bare : (builder.current.freshNode "").sockets side = [] := by
    cases side <;> rfl
  have reading : nodeAt node builder =
      .ok ((builder.current.nodes[node]?).getD (builder.current.freshNode "")) builder := rfl
  rw [socketAt, bind_of_ok reading, NodeTree.Has]
  cases builder.current.nodes[node]? with
  | none =>
    rw [Option.getD_none, bare]
    refine .inr ⟨?_, rfl⟩
    rintro ⟨_, ⟨⟩, _⟩
  | some held =>
    rw [Option.getD_some]
    by_cases inside : index < (held.sockets side).length
    · rw [if_pos inside]
      exact .inl ⟨⟨held, rfl, inside⟩, rfl⟩
    · rw [if_neg inside]
      refine .inr ⟨?_, rfl⟩
      rintro ⟨_, ⟨⟩, isInside⟩
      exact inside isInside

/-- What comes of feeding an input of a node. -/
inductive Fed (builder : Builder) (node index : Nat) : Item → Builder → Prop
  | same {item : Item} : Fed builder node index item builder
  | linked {source : SocketRef} (has : builder.current.Has node .input index) :
      Fed builder node index (.socket source) { builder with
        forest := builder.forest.modify builder.tree
          (·.addLink ⟨source, ⟨builder.tree, node, .input, index⟩⟩) }
  | stored {item : Item} :
      Fed builder node index item { builder with
        forest := builder.forest.modify builder.tree (·.modifyNode node (·.setInput index item)) }

theorem fed_feed (builder : Builder) (node index : Nat) (item : Item) :
    Fed builder node index item (ending (feed node index item builder)) := by
  rw [feed.eq_def]
  rcases socketAt_cases builder node .input index with ⟨has, done⟩ | ⟨_, failed⟩
  · split
    · exact .same
    · exact .same
    · rw [bind_of_ok done]
      exact .linked has
    · rw [bind_of_ok done]
      exact .stored
  · split
    · exact .same
    · exact .same
    all_goals
      rw [bind_of_error failed]
      exact .same

/-- What one input after the other keeps is kept when all of them are fed. -/
theorem feedAll_induction {motive : Builder → Prop} (node : Nat) (indices : List Nat)
    (items : List Item) (step : ∀ {builder after index item}, item ∈ items →
      Fed builder node index item after → motive builder → motive after) (start : motive builder) :
    motive (ending (feedAll node indices items builder)) := by
  induction indices generalizing items builder with
  | nil => exact start
  | cons index _ ih =>
    cases items with
    | nil => exact start
    | cons item items =>
      exact ending_bind motive (step mem_cons_self (fed_feed builder node index item) start)
        fun _ kept => ih items (fun member => step (mem_cons_of_mem _ member)) kept

theorem feedAll_eq_ok (done : feedAll node indices items builder = .ok () after) :
    after = { builder with forest := after.forest } := by
  have frame := feedAll_induction
    (motive := fun after => after = { builder with forest := after.forest }) node indices items
    (fun _ fed same => by rw [same] at fed; cases fed <;> rfl) (rfl : builder = _)
  rw [done] at frame
  exact frame

def IsNew (base : Forest) (tree node : Nat) : Prop :=
  ∀ held, base[tree]? = some held → held.nodes.length ≤ node

section Feeding

theorem isNew_next (kept : base.Embeds builder.forest) :
    IsNew base builder.tree builder.current.nodes.length := by
  intro _ found
  obtain ⟨later, foundLater, embeds⟩ := kept _ _ found
  have isCurrent : builder.current = later := by
    rw [current, getD_eq_getElem?_getD, foundLater, Option.getD_some]
  rw [isCurrent]
  exact embeds.length_le

theorem Fed.embeds (fed : Fed builder node index item after) (kept : base.Embeds builder.forest)
    (isNew : IsNew base builder.tree node) : base.Embeds after.forest := by
  cases fed with
  | same => exact kept
  | linked => exact kept.modify fun tree later found embeds => embeds.addLink (isNew tree found)
  | stored =>
    refine kept.modify fun tree _ found embeds => embeds.modifyNode ?_
    intro inside
    exact absurd inside (Nat.not_lt.2 (isNew tree found))

theorem embeds_feedAll (indices : List Nat) (items : List Item) (kept : base.Embeds builder.forest)
    (isNew : IsNew base builder.tree node) :
    base.Embeds (ending (feedAll node indices items builder)).forest := by
  refine (feedAll_induction
    (motive := fun after => base.Embeds after.forest ∧ after.tree = builder.tree) node indices items
    (fun _ fed embeds => ?_) ⟨kept, rfl⟩).1
  exact ⟨fed.embeds embeds.1 (embeds.2 ▸ isNew), by rw [← embeds.2]; cases fed <;> rfl⟩

theorem embeds_started (kept : base.Embeds builder.forest) (key : String) (change : Node → Node) :
    base.Embeds (builder.started key change).forest := by
  refine .modify (kept.modify fun tree later found embeds => embeds.addNode _) ?_
  intro tree _ found embeds
  refine embeds.modifyNode ?_
  intro inside
  exact absurd inside (Nat.not_lt.2 (isNew_next kept tree found))

def asGroup (builder : Builder) (group : Nat) (made : Node) : Node :=
  let inner := builder.forest.getD group (.empty "" "")
  { made with
    group := some group
    inputs := inner.inputs.map (·.toSocket)
    outputs := inner.outputs.map (·.toSocket) }

def groupKey (builder : Builder) : String :=
  if builder.current.kind = TreeKind.geometry.label then "GeometryNodeGroup" else "ShaderNodeGroup"

theorem addGroupNode_eq (group : Nat) (args : List Item) (builder : Builder) :
    addGroupNode group args builder =
      (do feedAll builder.current.nodes.length (range args.length) args
          remember builder.current.nodes.length
          pushOutputs builder.current.nodes.length
            (range (builder.forest.groupSize group).outputs))
        (builder.started builder.groupKey (builder.asGroup group)) := rfl

end Feeding

theorem mapM_socketAt_cases (builder : Builder) (node : Nat) (indices : List Nat) :
    (∀ index ∈ indices, builder.current.Has node .output index ∧
        socketAt node .output index builder = .ok ⟨builder.tree, node, .output, index⟩ builder) ∨
      ∃ fault, indices.mapM (socketAt node .output) builder = .error fault builder := by
  induction indices with
  | nil => exact .inl nofun
  | cons index _ ih =>
    rw [mapM_cons]
    rcases socketAt_cases builder node .output index with first | ⟨_, failed⟩
    · rcases ih with others | ⟨fault, failed⟩
      · exact .inl (forall_mem_cons.2 ⟨first, others⟩)
      · refine .inr ⟨fault, ?_⟩
        rw [bind_of_ok first.2, bind_of_error failed]
    · exact .inr ⟨_, bind_of_error failed⟩

theorem pushOutputs_cases (builder : Builder) (node : Nat) (indices : List Nat) :
    (∀ index ∈ indices, builder.current.Has node .output index) ∧
        pushOutputs node indices builder = .ok () { builder with
          stack := outputItems ⟨builder.tree, node⟩ indices ++ builder.stack } ∨
      ∃ fault, pushOutputs node indices builder = .error fault builder := by
  match indices with
  | [] => exact .inl ⟨nofun, rfl⟩
  | [index] =>
    rcases socketAt_cases builder node .output index with ⟨has, done⟩ | ⟨_, failed⟩
    · exact .inl ⟨by simpa using has, pushOutputs_of_lt (by simpa using done)⟩
    · exact .inr ⟨_, bind_of_error failed⟩
  | first :: second :: rest =>
    rcases mapM_socketAt_cases builder node (first :: second :: rest).reverse with
      each | ⟨fault, failed⟩
    · refine .inl ⟨fun index member => (each index (mem_reverse.2 member)).1, ?_⟩
      exact pushOutputs_of_lt fun index member => (each index (mem_reverse.2 member)).2
    · exact .inr ⟨fault, bind_of_error failed⟩

/-! ## Whole runs -/

def resultItem : Option SocketRef → Item
  | some socket => .socket socket
  | none => .absent

theorem linkResults_eq_feedAll (node index : Nat) (outputs : List (Option SocketRef)) :
    linkResults node index outputs =
      feedAll node (range' index outputs.length) (outputs.map resultItem) := by
  induction outputs generalizing index with
  | nil => rfl
  | cons output _ ih =>
    rw [length_cons, range'_succ, map_cons, feedAll, ← ih]
    cases output with
    | none => rfl
    | some => exact (bind_assoc _ _ _).symm

section Steps

theorem embeds_pushOutputs (builder : Builder) (kept : base.Embeds builder.forest) (node : Nat)
    (indices : List Nat) : base.Embeds (ending (pushOutputs node indices builder)).forest := by
  rcases pushOutputs_cases builder node indices with ⟨_, done⟩ | ⟨_, failed⟩
  · rw [done]
    exact kept
  · rw [failed]
    exact kept

theorem embeds_addGroupNode (builder : Builder) (kept : base.Embeds builder.forest) (group : Nat)
    (args : List Item) : base.Embeds (ending (addGroupNode group args builder)).forest := by
  rw [addGroupNode_eq]
  have starting := embeds_started kept builder.groupKey (builder.asGroup group)
  refine ending_bind (fun after => base.Embeds after.forest)
    (embeds_feedAll _ _ starting (isNew_next kept)) ?_
  intro _ _ _ keptStill
  refine ending_bind (fun after => base.Embeds after.forest) keptStill ?_
  exact fun _ keptLast => embeds_pushOutputs _ keptLast _ _

theorem embeds_callBuiltin (builder : Builder) (kept : base.Embeds builder.forest)
    (recipe : NodeRecipe) : base.Embeds (ending (callBuiltin recipe builder)).forest := by
  rw [callBuiltin_eq]
  have keptPopped : base.Embeds (builder.popped recipe.inputs.length).forest := kept
  refine ending_bind (fun after => base.Embeds after.forest)
    (embeds_feedAll _ _ (embeds_started keptPopped _ _) (isNew_next keptPopped)) ?_
  intro _ _ _ keptStill
  refine ending_bind (fun after => base.Embeds after.forest) (embeds_pushOutputs _ keptStill _ _) ?_
  exact fun _ keptLast => keptLast

theorem Fed.faces (fed : Fed builder node index item after) :
    after.forest.map NodeTree.face = builder.forest.map NodeTree.face := by
  cases fed with
  | same => rfl
  | linked =>
    apply map_modify_of_same
    exact fun _ => rfl
  | stored =>
    apply map_modify_of_same
    intro tree
    have groups := map_modify_of_same Node.group
      (fun made => (rfl : (made.setInput index item).group = made.group)) tree.nodes node
    exact congrArg (fun shown => (tree.inputs, tree.outputs, shown)) groups

theorem faces_feedAll (builder : Builder) (node : Nat) (indices : List Nat) (items : List Item) :
    (ending (feedAll node indices items builder)).forest.map NodeTree.face =
      builder.forest.map NodeTree.face := by
  exact feedAll_induction node indices items (fun _ fed same => fed.faces.trans same) rfl

theorem embeds_modifyNode (ref : NodeRef) (keeps : ∀ node : Node, node.Lasts (change node)) :
    builder.forest.Embeds (builder.forest.modifyNode ref change) :=
  (Forest.Embeds.refl _).modify fun _ _ _ embeds => embeds.modifyNode fun _ => keeps

end Steps

/-- The forest only gains nodes, and a run that succeeds ends in its tree, with as many results. -/
structure Keeps (before : Builder) (result : EStateM.Result Fault Builder Unit) : Prop where
  embeds : before.forest.Embeds (ending result).forest
  stays : ∀ {after : Builder}, result = .ok () after →
    after.tree = before.tree ∧ after.outputs.length = before.outputs.length

theorem Keeps.length_le (kept : builder.Keeps result) (done : result = .ok () after) :
    builder.forest.length ≤ after.forest.length := by
  have longer := kept.embeds.length_le
  rw [done] at longer
  exact longer

theorem Keeps.anchored (kept : builder.Keeps result) (done : result = .ok () after)
    (anchored : builder.Anchored) : after.Anchored := by
  rw [Anchored, (kept.stays done).1]
  exact Nat.lt_of_lt_of_le anchored (kept.length_le done)

section Linking

variable {inner : Builder} (kept : (builder.insideGroup name ins outs).Keeps result)
  (done : result = .ok () inner)
include kept done

/-- The outer trees do not see that the results of a new group are linked inside. -/
theorem Keeps.embeds_linkResults :
    builder.forest.Embeds (ending (linkResults 1 0 inner.outputs inner)).forest := by
  have embeds : builder.forest.Embeds inner.forest := by
    have whole := (Forest.Embeds.append builder.forest _).trans kept.embeds
    rw [done] at whole
    exact whole
  rw [linkResults_eq_feedAll]
  apply embeds_feedAll _ _ embeds
  rw [(kept.stays done).1]
  intro _ found
  simp [insideGroup] at found

theorem Keeps.embeds_current :
    (groupTree name builder.current.kind ins outs).Embeds inner.current := by
  have isThere : (builder.insideGroup name ins outs).forest[builder.forest.length]? =
      some (groupTree name builder.current.kind ins outs) := by
    simp [insideGroup]
  obtain ⟨later, found, embeds⟩ := kept.embeds _ _ isThere
  rw [done] at found
  have isCurrent : inner.current = later := by
    rw [current, (kept.stays done).1]
    exact congrArg (Option.getD · _) found
  exact isCurrent ▸ embeds

theorem Keeps.groupSize :
    inner.forest.groupSize builder.forest.length = ⟨ins.length, outs.length⟩ := by
  have embeds := kept.embeds
  rw [done] at embeds
  exact (embeds.groupSize (by simp [insideGroup])).trans (groupSize_insideGroup _ name ins outs)

end Linking

theorem faces_linkResults {outputs}
    (done : linkResults node index outputs builder = .ok () after) :
    after.forest.map NodeTree.face = builder.forest.map NodeTree.face := by
  rw [← faces_feedAll builder node, ← linkResults_eq_feedAll, done]
  rfl

/-- What is left of a builder without its stack, its variables and its results. -/
def setting (builder : Builder) : Forest × Nat × List NodeRef × List (String × Nat) :=
  (builder.forest, builder.tree, builder.added, builder.groups)

/-- The step leaves the forest alone and stays in its tree. -/
def Resting {α : Type} (step : Build α) : Prop :=
  ∀ builder : Builder, (ending (step builder)).setting = builder.setting ∧
    (ending (step builder)).outputs.length = builder.outputs.length

section Resting

variable {next : α → Build β}

theorem Resting.bind (first : Resting step) (rest : ∀ answer, Resting (next answer)) :
    Resting (step >>= next) := by
  intro builder
  refine ending_bind (fun after => after.setting = builder.setting ∧
    after.outputs.length = builder.outputs.length) (first builder) ?_
  intro answer middle _ same
  obtain ⟨setting, outputs⟩ := rest answer middle
  exact ⟨setting.trans same.1, outputs.trans same.2⟩

theorem Resting.keeps {step} (resting : Resting step) (builder : Builder) :
    builder.Keeps (step builder) := by
  obtain ⟨same, outputs⟩ := resting builder
  have forest : (ending (step builder)).forest = builder.forest := congrArg (·.1) same
  refine ⟨forest ▸ .refl _, ?_⟩
  intro _ done
  rw [done] at same outputs
  exact ⟨congrArg (·.2.1) same, outputs⟩

theorem resting_throw (fault : Fault) : Resting (throw fault : Build α) := fun _ => ⟨rfl, rfl⟩

theorem resting_push (item : Item) : Resting (push item) := fun _ => ⟨rfl, rfl⟩

theorem resting_pop : Resting pop := by
  intro builder
  obtain ⟨_, _, items, _, _, _, _⟩ := builder
  cases items <;> exact ⟨rfl, rfl⟩

theorem resting_popStruct : Resting popStruct := by
  refine resting_pop.bind fun item => ?_
  cases item.members? <;> exact fun _ => ⟨rfl, rfl⟩

theorem resting_createVar (name : String) : Resting (createVar name) := by
  refine resting_pop.bind fun _ => ?_
  split <;> exact fun _ => ⟨rfl, rfl⟩

theorem resting_getOutput (index : Nat) : Resting (getOutput index) := by
  refine resting_popStruct.bind fun _ => ?_
  split
  · exact resting_push _
  · exact resting_throw _

theorem resting_setFunctionOut (index : Nat) : Resting (setFunctionOut index) := by
  refine resting_pop.bind fun _ => ?_
  split
  · intro _
    rw [bind_get]
    split
    · exact ⟨rfl, length_set ..⟩
    · exact ⟨rfl, rfl⟩
  · exact resting_throw _

end Resting

theorem keeps_modifyLast (builder : Builder) (keeps : ∀ node : Node, node.Lasts (change node)) :
    builder.Keeps (modifyLast change builder) := by
  rw [modifyLast, bind_get]
  cases builder.added.getLast? with
  | none => exact (resting_throw _).keeps builder
  | some last =>
    refine ⟨embeds_modifyNode last keeps, ?_⟩
    rintro _ ⟨⟩
    exact ⟨rfl, rfl⟩

/--
What comes of an operation that is not a call: a node is added, or the last one is changed, or
nothing.
-/
inductive Plain (builder : Builder) : EStateM.Result Fault Builder Unit → Prop
  | resting {step} (rests : Resting step) : Plain builder (step builder)
  | touching {change} (keeps : ∀ node : Node, node.Lasts (change node)) :
      Plain builder (modifyLast change builder)
  | building (recipe : NodeRecipe) : Plain builder (callBuiltin recipe builder)

theorem plain_run (notCall : operation.arity? = none) (builder : Builder) :
    Plain builder (run operation builder) := by
  cases operation with
  | callFunction | callNodeGroup => cases notCall
  | pushValue =>
    exact .resting (resting_push _)
  | createVar name =>
    exact .resting (resting_createVar name)
  | getVar name =>
    rw [run, bind_get]
    cases builder.vars.lookup name with
    | some item => exact .resting (resting_push item)
    | none => exact .resting (resting_throw _)
  | getOutput index =>
    exact .resting (resting_getOutput index)
  | setOutput index =>
    rw [run, bind_get]
    cases builder.added.getLast? with
    | none => exact .resting (resting_throw _)
    | some last =>
      by_cases inside : index < ((builder.forest.node? last).map (·.outputs.length)).getD 0
      · simp only [if_pos inside]
        exact .touching (·.lasts_setOutput index _)
      · simp only [if_neg inside]
        exact .resting (resting_throw _)
  | setFunctionOut index =>
    exact .resting (resting_setFunctionOut index)
  | splitStruct =>
    exact .resting (resting_popStruct.bind fun _ _ => ⟨rfl, rfl⟩)
  | callBuiltin recipe =>
    exact .building recipe
  | renameNode =>
    exact .touching fun _ => ⟨rfl, fun side => by cases side <;> rfl⟩
  | endOfStatement =>
    exact .resting fun _ => ⟨rfl, rfl⟩

theorem pushOutputs_eq_ok (done : pushOutputs node indices builder = .ok () after) :
    after =
      { builder with stack := outputItems ⟨builder.tree, node⟩ indices ++ builder.stack } := by
  rcases pushOutputs_cases builder node indices with ⟨_, pushed⟩ | ⟨_, failed⟩
  · cases pushed.symm.trans done
    rfl
  · cases failed.symm.trans done

theorem keeps_callBuiltin (builder : Builder) (recipe : NodeRecipe) :
    builder.Keeps (callBuiltin recipe builder) := by
  refine ⟨embeds_callBuiltin builder (.refl _) recipe, ?_⟩
  intro _ done
  rw [callBuiltin_eq] at done
  obtain ⟨_, _, feeding, rest⟩ := bind_eq_ok done
  obtain ⟨_, _, pushing, remembering⟩ := bind_eq_ok rest
  cases remembering
  rw [pushOutputs_eq_ok pushing, feedAll_eq_ok feeding]
  exact ⟨rfl, rfl⟩

theorem addGroupNode_frame (done : addGroupNode group args builder = .ok () after) :
    after = { builder with
      forest := after.forest
      added := builder.added ++ [builder.nextNode]
      stack := outputItems builder.nextNode (range (builder.forest.groupSize group).outputs) ++
        builder.stack } := by
  rw [addGroupNode_eq] at done
  obtain ⟨_, _, feeding, rest⟩ := bind_eq_ok done
  obtain ⟨_, _, remembering, pushing⟩ := bind_eq_ok rest
  have frame := feedAll_eq_ok feeding
  cases remembering
  rw [pushOutputs_eq_ok pushing, frame]
  rfl

theorem Plain.keeps (plain : Plain builder result) : builder.Keeps result := by
  cases plain with
  | resting rests => exact rests.keeps builder
  | touching keeps => exact keeps_modifyLast builder keeps
  | building recipe => exact keeps_callBuiltin builder recipe

mutual

theorem keeps_run : ∀ (operation : Operation) (builder : Builder),
    builder.Keeps (run operation builder)
  | .callFunction names body count, builder => by
    have kept := keeps_runAll body (builder.entered names count)
    rcases callFunction_cases names body count with
      ⟨fault, inner, ran, failed⟩ | ⟨inner, ran, ends⟩
    · rw [ran] at kept
      rw [failed]
      exact ⟨kept.embeds, nofun⟩
    · rw [ran] at kept
      rcases ends with ⟨_, missing⟩ | ⟨_, _, done⟩
      · rw [missing]
        exact ⟨kept.embeds, nofun⟩
      · rw [done]
        refine ⟨kept.embeds, ?_⟩
        rintro _ ⟨⟩
        exact ⟨(kept.stays rfl).1, rfl⟩
  | .callNodeGroup name inputs outputs body, builder => by
    have popping : builder.forest.Embeds (builder.popped inputs.length).forest := .refl _
    cases known : builder.groups.lookup name with
    | some =>
      rw [run_callNodeGroup_of_known known]
      refine ⟨embeds_addGroupNode _ popping _ _, ?_⟩
      intro _ done
      rw [addGroupNode_frame done]
      exact ⟨rfl, rfl⟩
    | none =>
      rw [run_callNodeGroup_of_new known]
      rcases openGroup_cases (builder.popped inputs.length) name inputs outputs with
        ⟨fault, _, _, _, failed, _⟩ | ⟨ins, outs, _, _, opened⟩
      · rw [bind_of_error failed]
        exact ⟨.append _ _, nofun⟩
      · rw [bind_of_ok opened]
        have kept := keeps_runAll body ((builder.popped inputs.length).insideGroup name ins outs)
        constructor
        · refine ending_bind (fun after => builder.forest.Embeds after.forest)
            ((Forest.Embeds.append _ _).trans kept.embeds) ?_
          intro answer _ ran _
          rw [bind_get]
          refine ending_bind (fun after => builder.forest.Embeds after.forest)
            (kept.embeds_linkResults ran) ?_
          intro _ last _ embedsLast
          exact embeds_addGroupNode (builder.outsideGroup last name inputs.length) embedsLast _ _
        · intro _ done
          obtain ⟨_, _, _, rest⟩ := bind_eq_ok done
          rw [bind_get] at rest
          obtain ⟨_, _, _, joining⟩ := bind_eq_ok rest
          rw [addGroupNode_frame joining]
          exact ⟨rfl, rfl⟩
  | .pushValue _, builder | .createVar _, builder | .getVar _, builder | .getOutput _, builder
  | .setOutput .., builder | .setFunctionOut _, builder | .splitStruct, builder
  | .callBuiltin _, builder | .renameNode _, builder | .endOfStatement, builder =>
    Plain.keeps (plain_run (by rfl) builder)

theorem keeps_runAll : ∀ (operations : List Operation) (builder : Builder),
    builder.Keeps (runAll operations builder)
  | [], _ => ⟨.refl _, by rintro after ⟨⟩; exact ⟨rfl, rfl⟩⟩
  | operation :: operations, builder => by
    have first := keeps_run operation builder
    constructor
    · refine ending_bind (fun after => builder.forest.Embeds after.forest) first.embeds ?_
      intro _ middle _ embeds
      exact embeds.trans (keeps_runAll operations middle).embeds
    · intro _ done
      obtain ⟨_, middle, early, late⟩ := bind_eq_ok done
      obtain ⟨tree, outputs⟩ := first.stays early
      obtain ⟨treeLater, outputsLater⟩ := (keeps_runAll operations middle).stays late
      exact ⟨treeLater.trans tree, outputsLater.trans outputs⟩

end

end Builder

/-! ## Hygiene -/

namespace Builder

/--
The tree that is kept under the name of the node group has as many outputs as the group, as it has
unless another one of that name was called before.
-/
def Suits (builder : Builder) : Operation → Prop
  | .callNodeGroup name _ outputs _ => ∀ group, builder.groups.lookup name = some group →
      (builder.forest.groupSize group).outputs = outputs.length
  | _ => True

/-- The results of a call: those that the body has set, or the outputs of the group node. -/
def Gives (before after : Builder) (sockets : List SocketRef) : Operation → Prop
  | .callFunction names body count => ∃ inner,
      runAll body (before.entered names count) = .ok () inner ∧ inner.outputs = sockets.map some
  | .callNodeGroup _ _ outputs _ => ∃ node, after.added.getLast? = some ⟨before.tree, node⟩ ∧
      sockets = (List.range outputs.length).map fun index => ⟨before.tree, node, .output, index⟩
  | _ => False

section Hygiene

variable {before : Builder}

theorem callFunction_eq_ok {count}
    (done : run (.callFunction names body count) before = .ok () after) :
    ∃ inner sockets, runAll body (before.entered names count) = .ok () inner ∧
      inner.outputs = sockets.map some ∧ after = before.left inner names.length sockets := by
  rcases callFunction_cases names body count with ⟨_, inner, _, failed⟩ | ⟨inner, ran, ends⟩
  · cases failed.symm.trans done
  · rcases ends with ⟨_, missing⟩ | ⟨sockets, areSet, succeeded⟩
    · cases missing.symm.trans done
    · cases succeeded.symm.trans done
      exact ⟨inner, sockets, ran, areSet, rfl⟩

theorem callNodeGroup_eq_ok {inputs outputs : List Binding}
    (suits : before.Suits (.callNodeGroup name inputs outputs body))
    (done : run (.callNodeGroup name inputs outputs body) before = .ok () after) :
    ∃ base group, base.tree = before.tree ∧ base.vars = before.vars ∧
      base.outputs = before.outputs ∧ base.stack = before.stack.drop inputs.length ∧
      (base.forest.groupSize group).outputs = outputs.length ∧
      addGroupNode group (before.stack.take inputs.length).reverse base = .ok () after := by
  cases known : before.groups.lookup name with
  | some group =>
    rw [run_callNodeGroup_of_known known] at done
    exact ⟨before.popped inputs.length, group, rfl, rfl, rfl, rfl, suits group known, done⟩
  | none =>
    obtain ⟨_, _, _, linked, opened, ran, linking, joining⟩ := newGroup_eq_ok known done
    obtain ⟨_, _, outputsMade, rfl, rfl⟩ := openGroup_eq_ok opened
    refine ⟨before.outsideGroup linked name inputs.length, before.forest.length, rfl, rfl, rfl,
      rfl, ?_, joining⟩
    -- The inner tree was there when the body began, so it still has its interface.
    have size := (Forest.groupSize_of_faces (faces_linkResults linking) _).trans
      ((keeps_runAll body _).groupSize ran)
    exact (congrArg GroupSize.outputs size).trans (length_of_ofBinding outputsMade)

/--
When a call has succeeded, the variables, the results and the tree of the caller are as they were,
and the results of the call stand on the stack in place of its arguments: one by itself, several as
a struct with the last one first.
-/
theorem call_leaves_results {call : Operation} {inputs results : Nat}
    (isCall : call.arity? = some (inputs, results)) (suits : before.Suits call)
    (done : run call before = .ok () after) :
    after.vars = before.vars ∧ after.outputs = before.outputs ∧ after.tree = before.tree ∧
      ∃ sockets, sockets.length = results ∧ Gives before after sockets call ∧
        after.stack = resultItems sockets ++ before.stack.drop inputs := by
  cases call with
  | callFunction names body count =>
    cases isCall
    rcases callFunction_eq_ok done with ⟨inner, sockets, ran, areSet, rfl⟩
    rcases (keeps_runAll body (before.entered names results)).stays ran with ⟨tree, outputCount⟩
    refine ⟨rfl, rfl, tree, sockets, ?_, ⟨inner, ran, areSet⟩, rfl⟩
    rw [areSet, List.length_map] at outputCount
    exact outputCount.trans List.length_replicate
  | callNodeGroup name inputs outputs body =>
    cases isCall
    rcases callNodeGroup_eq_ok suits done with
      ⟨base, group, tree, vars, sameOutputs, stack, size, joining⟩
    rw [addGroupNode_frame joining]
    refine ⟨vars, sameOutputs, tree, _, ?_, ⟨base.current.nodes.length, ?_, rfl⟩, ?_⟩
    · rw [List.length_map, List.length_range]
    · show (base.added ++ [base.nextNode]).getLast? = _
      rw [List.getLast?_concat, nextNode, tree]
    · show outputItems base.nextNode _ ++ base.stack = _
      rw [outputItems_eq, size, stack, nextNode, tree]
  | _ => cases isCall

def pairGroup : Operation :=
  .callNodeGroup "pair" [⟨"x", .float, none⟩] [⟨"a", .float, none⟩, ⟨"b", .float, none⟩]
    [.getVar "x", .setFunctionOut 0, .getVar "x",
      .callFunction ["y"] [.getVar "y", .createVar "x", .getVar "x", .setFunctionOut 0] 1,
      .setFunctionOut 1, .endOfStatement]

def pairCaller : Builder :=
  { new [.empty "T" TreeKind.geometry.label] with
    stack := [.value (.int 3), .value (.int 5)]
    vars := [("x", .socket ⟨0, 0, .output, 0⟩)] }

/-- The call takes one of the two values, and both results are there as a struct. -/
theorem call_leaves_results_pair :
    ∃ after first second, run pairGroup pairCaller = .ok () after ∧
      after.vars = pairCaller.vars ∧ after.outputs = pairCaller.outputs ∧
      after.tree = pairCaller.tree ∧ after.stack = [.struct [second, first], .value (.int 5)] := by
  obtain ⟨after, done, _⟩ : ∃ after, run pairGroup pairCaller = .ok () after ∧ True := by
    decide +kernel
  have isCall : pairGroup.arity? = some (1, 2) := rfl
  have suits : pairCaller.Suits pairGroup := fun group known => nomatch known
  rcases call_leaves_results isCall suits done with ⟨vars, outputs, tree, sockets, count, _, stack⟩
  rcases sockets with _ | ⟨first, _ | ⟨second, _ | ⟨third, rest⟩⟩⟩
  · cases count
  · cases count
  · exact ⟨after, first, second, done, vars, outputs, tree, stack⟩
  · cases count

end Hygiene

end Builder

end NodeFormula
