import NodeFormula.Proofs.Hygiene

/-!
# Building follows the shapes

The profile of a builder forgets its forest.  A building step follows a change of profiles if it
succeeds where the change does, with the profile that it gives, and stops where the change does,
with the same fault.  Every operation follows a change.  Building keeps the interface of every
tree, so the size of a node group, once made, can be relied on.
-/

namespace NodeFormula

open List Profile

variable {before builder after : Builder} {outputs : List (Option SocketRef)} {forest : Forest}

namespace Builder

/-! ## Profiles of builders -/

/-- What a builder holds, by its shape only. -/
def profile (builder : Builder) : Profile :=
  ⟨builder.stack.map Item.shape, builder.vars.map fun entry => (entry.1, entry.2.shape),
    builder.outputs.map Option.isSome,
    builder.groups.map fun entry => (entry.1, builder.forest.groupSize entry.2)⟩

/-- The builder is in a tree, and every node group that it knows has one. -/
structure Sound (builder : Builder) : Prop where
  anchored : builder.Anchored
  groups : ∀ entry ∈ builder.groups, entry.2 < builder.forest.length

/-- What comes of a step is what a change of profiles says. -/
inductive Agrees : EStateM.Result Fault Builder Unit → Except Fault Profile → Prop
  | done {after profile} (sound : after.Sound)
      (same : after.profile = profile) : Agrees (.ok () after) (.ok profile)
  | stopped {after fault} : Agrees (.error fault after) (.error fault)

/-- Whatever the builder, the operations do to its profile what the change says. -/
def Follows (operations : List Operation) (change : Profile → Except Fault Profile) : Prop :=
  ∀ builder : Builder, builder.Sound → Agrees (runAll operations builder) (change builder.profile)

/-! ## Steps in sequence -/

theorem follows_nil : Follows [] .ok := fun _ sound => .done sound rfl

theorem Follows.append (first : Follows operations change) (second : Follows others late) :
    Follows (operations ++ others) (fun profile => change profile >>= late) := by
  intro builder sound
  have agrees := first builder sound
  show Agrees _ (change builder.profile >>= late)
  rw [runAll_append]
  cases ran : runAll operations builder with
  | ok _ middle =>
    rw [ran] at agrees
    rw [bind_of_ok ran]
    generalize change builder.profile = changed at agrees
    cases agrees with
    | done soundMiddle same =>
      subst same
      exact second middle soundMiddle
  | error =>
    rw [ran] at agrees
    rw [bind_of_error ran]
    generalize change builder.profile = changed at agrees
    cases agrees with
    | stopped => exact .stopped

/-! ## Operations on the stack and the variables -/

theorem follows_endOfStatement :
    Follows [.endOfStatement] (fun profile => .ok profile.cleared) := by
  intro _ sound
  exact .done ⟨sound.1, sound.2⟩ rfl

theorem follows_pushValues (values : List (Option Value)) :
    Follows (values.map .pushValue) (fun profile =>
      .ok (profile.pushed (values.map fun value => (Item.ofOption value).shape))) := by
  intro _ sound
  rw [runAll_pushValues]
  refine .done ⟨sound.1, sound.2⟩ ?_
  simp [profile, pushed, Profile.pushed]

theorem follows_createVar (name : String) :
    Follows [.createVar name] (fun profile => profile.bind name) := by
  intro builder sound
  obtain ⟨forest, tree, stack, vars, outputs, added, groups⟩ := builder
  cases stack with
  | nil => exact .stopped
  | cons item rest =>
    have bound : profile ⟨forest, tree, rest, Table.insert name item vars, outputs, added, groups⟩ =
        bound (profile ⟨forest, tree, rest, vars, outputs, added, groups⟩) name
          item.shape := by
      simp only [profile, bound, Table.map_insert]
    cases item with
    | absent => exact .stopped
    | socket => exact .done ⟨sound.1, sound.2⟩ bound
    | struct => exact .done ⟨sound.1, sound.2⟩ bound
    | value held =>
      cases held with
      | vector => exact .done ⟨sound.1, sound.2⟩ bound
      | _ => exact .stopped

theorem follows_getVar (name : String) :
    Follows [.getVar name] (fun profile => profile.fetch name) := by
  intro builder sound
  rw [runAll_singleton, run, bind_get]
  have known : builder.profile.vars.lookup name = (builder.vars.lookup name).map Item.shape :=
    Table.lookup_map _ _ _
  simp only [fetch, known]
  cases builder.vars.lookup name with
  | none => exact .stopped
  | some => exact .done ⟨sound.1, sound.2⟩ rfl

/-- The members of an item have the shapes that the shape of the item says. -/
theorem shape_members (item : Item) :
    item.shape.members? = item.members?.map (·.map Item.shape) := by
  cases item with
  | absent => rfl
  | socket => rfl
  | struct sources =>
    have sockets : (sources.map Item.socket).map Item.shape =
        replicate sources.length .socket := by
      simp [Item.shape, map_eq_replicate_iff]
    exact congrArg some sockets.symm
  | value held =>
    cases held with
    | vector components =>
      have plain : (components.map fun component => Item.value component.toValue).map Item.shape =
          replicate components.length .plain := by
        rw [map_map, map_eq_replicate_iff]
        intro component _
        cases component <;> rfl
      exact congrArg some plain.symm
    | _ => rfl

theorem reverse_members {shape : Shape} (found : shape.members? = some members) :
    members.reverse = members := by
  cases shape with
  | struct =>
    cases found
    exact reverse_replicate
  | vector =>
    cases found
    exact reverse_replicate
  | _ => cases found

section Members

variable {tree : Nat} {vars : List (String × Item)} {added : List NodeRef}
  {groups : List (String × Nat)}

theorem popStruct_of_some (found : item.members? = some members) :
    popStruct ⟨forest, tree, item :: rest, vars, outputs, added, groups⟩ =
      .ok members ⟨forest, tree, rest, vars, outputs, added, groups⟩ := by
  rw [popStruct, bind_of_ok (pop_of_stack rfl)]
  simp only [found]
  rfl

theorem popStruct_of_none (missing : item.members? = none) :
    popStruct ⟨forest, tree, item :: rest, vars, outputs, added, groups⟩ =
      .error (.broken "Bug in type checker, GET_OUTPUT only works on structs.")
        ⟨forest, tree, rest, vars, outputs, added, groups⟩ := by
  rw [popStruct, bind_of_ok (pop_of_stack rfl)]
  simp only [missing]
  rfl

end Members

/-- An operation that starts by taking a struct follows a change that opens its shape. -/
theorem follows_opened {next : List Item → Build Unit}
    {take : List Shape → Except Fault (List Shape)} (opens : run operation = popStruct >>= next)
    (each : ∀ {members rest}, (members.map Item.shape).reverse = members.map Item.shape →
      builder.Sound → Agrees (next members { builder with stack := rest })
        (do return { builder.profile with
          stack := (← take (members.map Item.shape)) ++ rest.map Item.shape })) :
    builder.Sound → Agrees (runAll [operation] builder) (builder.profile.opened take) := by
  intro sound
  rw [runAll_singleton, opens]
  obtain ⟨_, _, stack, _, _, _, _⟩ := builder
  cases stack with
  | nil => exact .stopped
  | cons item =>
    simp only [opened, profile, map_cons]
    have shapes := shape_members item
    cases found : item.members? with
    | none =>
      rw [found] at shapes
      rw [bind_of_error (popStruct_of_none found), shapes]
      exact .stopped
    | some =>
      rw [found] at shapes
      rw [bind_of_ok (popStruct_of_some found), shapes]
      exact each (reverse_members shapes) sound

theorem follows_getOutput (index : Nat) :
    Follows [.getOutput index] (fun profile => profile.pick index) := by
  intro _
  apply follows_opened
  · rfl
  · intro members _ ends sound
    have sameEnds : (members.map Item.shape)[index]? =
        (members.reverse[index]?).map Item.shape := by
      rw [← ends, ← map_reverse, getElem?_map]
    simp only [sameEnds]
    cases members.reverse[index]? with
    | none => exact .stopped
    | some => exact .done ⟨sound.1, sound.2⟩ rfl

theorem follows_splitStruct : Follows [.splitStruct] split := by
  intro _
  apply follows_opened
  · rw [run]
  · intro _ _ ends sound
    refine .done ⟨sound.1, sound.2⟩ ?_
    rw [← map_reverse] at ends
    simp only [profile, map_append, ends]

theorem follows_setFunctionOut (index : Nat) :
    Follows [.setFunctionOut index] (fun profile => profile.setResult index) := by
  intro builder sound
  rw [runAll_singleton]
  obtain ⟨forest, tree, stack, vars, outputs, added, groups⟩ := builder
  cases stack with
  | nil => exact .stopped
  | cons item rest =>
    cases item with
    | absent => exact .stopped
    | value held => cases held <;> exact .stopped
    | struct => exact .stopped
    | socket source =>
      show Agrees ((if index < outputs.length then
          set (mk forest tree rest vars (outputs.set index (some source)) added groups)
        else throw .assignmentIndex : Build Unit)
          ⟨forest, tree, rest, vars, outputs, added, groups⟩)
        (if index < (outputs.map Option.isSome).length then _ else _)
      rw [length_map]
      split
      · refine .done ⟨sound.1, sound.2⟩ ?_
        simp only [profile, map_set, Option.isSome_some]
      · exact .stopped

/-! ## Nodes -/

section Nodes

theorem Sound.embeds (sound : before.Sound) (embeds : before.forest.Embeds after.forest)
    (tree : after.tree = before.tree) (groups : after.groups = before.groups) : after.Sound :=
  ⟨by rw [Anchored, tree]; exact Nat.lt_of_lt_of_le sound.anchored embeds.length_le,
    fun entry member =>
      Nat.lt_of_lt_of_le (sound.groups entry (groups ▸ member)) embeds.length_le⟩

/-- Trees that are added and nodes that are changed leave the sizes of groups alone. -/
theorem groups_profile (sound : before.Sound) (embeds : before.forest.Embeds after.forest)
    (groups : after.groups = before.groups) : after.profile.groups = before.profile.groups := by
  simp only [profile, groups]
  apply map_congr_left
  intro entry member
  rw [embeds.groupSize (sound.groups entry member)]

theorem shape_resultItems (sockets : List SocketRef) :
    (resultItems sockets).map Item.shape = Shape.results sockets.length := by
  match sockets with
  | [] => rfl
  | [_] => rfl
  | first :: second :: others =>
    simp only [resultItems, map_cons, Item.shape, length_reverse]
    rfl

theorem shape_outputItems (owner : NodeRef) (indices : List Nat) :
    (outputItems owner indices).map Item.shape = Shape.results indices.length := by
  rw [outputItems_eq, shape_resultItems, length_map]

theorem agrees_installed (sound : builder.Sound)
    (embeds : builder.forest.Embeds (builder.installed recipe finish).forest) :
    Agrees (.ok () (builder.installed recipe finish)) (.ok { builder.profile with
      stack := Shape.results recipe.outputs.length ++
        builder.profile.stack.drop recipe.inputs.length }) := by
  refine .done (sound.embeds embeds rfl rfl)
    (Profile.ext ?_ rfl rfl (groups_profile sound embeds rfl))
  simp only [profile, installed, map_append, shape_outputItems, map_drop]

/-- A node of a well-formed recipe is made unless an argument is missing. -/
theorem follows_callBuiltin (wellFormed : recipe.WellFormed) :
    Follows [.callBuiltin recipe] (fun profile => profile.make recipe) := by
  intro builder sound
  show Agrees _ (builder.profile.make recipe)
  rw [runAll_singleton, run, make]
  have count : builder.profile.stack.length = builder.stack.length := length_map _
  by_cases short : builder.stack.length < recipe.inputs.length
  · obtain ⟨_, failed⟩ := callBuiltin_of_lt wellFormed sound.anchored short
    rw [failed, count, if_pos short]
    exact .stopped
  · have embeds := (keeps_callBuiltin builder recipe).embeds
    rw [callBuiltin_of_le wellFormed sound.anchored (Nat.le_of_not_lt short)] at embeds ⊢
    rw [count, if_neg short]
    exact agrees_installed sound embeds

theorem follows_inputNode {node : InputNode} (name : String) (wellFormed : node.recipe.WellFormed)
    (outputs : node.recipe.outputs = [0])
    (complete : node.args.length = node.recipe.inputs.length) :
    Follows (node.operations name) (fun profile => .ok (profile.pushed [.socket])) := by
  intro builder sound
  have ready : (builder.pushed (node.args.map .ofOption)).Sound := ⟨sound.1, sound.2⟩
  have embeds := (keeps_runAll (node.operations name) builder).embeds
  rw [runAll_inputNode name wellFormed outputs sound.anchored (by omega)] at embeds ⊢
  have agrees := agrees_installed ready embeds
  have dropped : (builder.pushed (node.args.map .ofOption)).profile.stack.drop
      node.recipe.inputs.length = builder.profile.stack := by
    simp [profile, pushed, ← complete]
  rw [dropped, outputs] at agrees
  exact agrees

end Nodes

/-! ## Functions -/

/-- The shapes of the variables of a call are those of its arguments. -/
theorem map_varsOf (change : α → β) (names : List String) (items : List α) :
    (varsOf names items).map (fun entry => (entry.1, change entry.2)) =
      varsOf names (items.map change) := by
  have general (vars : List (String × α)) :
      ((names.zip items).foldl (fun vars entry => Table.insert entry.1 entry.2 vars) vars).map
          (fun entry => (entry.1, change entry.2)) =
        (names.zip (items.map change)).foldl (fun vars entry => Table.insert entry.1 entry.2 vars)
          (vars.map fun entry => (entry.1, change entry.2)) := by
    induction names generalizing items vars with
    | nil => rfl
    | cons _ _ ih =>
      cases items with
      | nil => rfl
      | cons =>
        rw [zip_cons_cons, map_cons, zip_cons_cons, foldl_cons,
          foldl_cons, ih, Table.map_insert]
  exact general []

section Calls

variable {count : Nat}

theorem profile_entered (builder : Builder) (names : List String) (count : Nat) :
    (builder.entered names count).profile = { builder.profile with
      stack := []
      vars := varsOf names (builder.profile.stack.take names.length).reverse
      outputs := List.replicate count false } := by
  apply Profile.ext
  · rfl
  · simp only [profile, entered, map_varsOf, map_reverse, map_take]
  · simp [profile, entered]
  · rfl

/-- A call follows its body, which runs on variables and results of its own. -/
theorem follows_callFunction (bodyFollows : Follows body change) :
    Follows [.callFunction names body count]
      (fun profile => profile.callFunction names count change) := by
  intro builder sound
  rw [runAll_singleton]
  have agrees := bodyFollows (builder.entered names count) ⟨sound.anchored, sound.groups⟩
  rw [profile_entered] at agrees
  simp only [callFunction]
  generalize change _ = changed at agrees
  rcases callFunction_cases names body count with ⟨_, after, ran, failed⟩ | ⟨after, ran, ends⟩
  · rw [ran] at agrees
    cases agrees
    rw [failed]
    exact .stopped
  rw [ran] at agrees
  cases agrees with
  | done soundAfter same =>
    subst same
    show Agrees _ (if after.profile.outputs.all id = true then .ok _ else .error _)
    rcases ends with ⟨notSet, missing⟩ | ⟨_, areSet, done⟩
    · rw [missing, show after.profile.outputs.all id = false from notSet]
      exact .stopped
    · have allSet : after.profile.outputs.all id = true := by simp [profile, areSet]
      rw [done, if_pos allSet]
      refine .done ⟨soundAfter.1, soundAfter.2⟩ (Profile.ext ?_ rfl rfl rfl)
      simp only [profile, left, map_append, map_drop, shape_resultItems, areSet, length_map]

end Calls

/-! ## Node groups -/

theorem accepts_range' (count start : Nat) (items : List Item) :
    accepts count (range' start items.length) items =
      ((items.drop (count - start)).map Item.shape).all (· == .idle) := by
  induction items generalizing start with
  | nil => simp [accepts]
  | cons item _ ih =>
    have idle : (item.shape == .idle) = item.isIdle := by
      cases item with
      | value held => cases held <;> rfl
      | _ => rfl
    rw [length_cons, range'_succ, accepts, ih]
    by_cases inside : start < count
    · have next : count - start = count - (start + 1) + 1 := by omega
      simp [inside, next]
    · have none : count - start = 0 := by omega
      have noneAfter : count - (start + 1) = 0 := by omega
      simp [inside, none, noneAfter, idle]

/-- The node that stands for a call of a node group, before it is fed. -/
def groupNode (builder : Builder) (group : Nat) : Node :=
  builder.asGroup group (builder.current.freshNode builder.groupKey)

/-- The builder with a fed node for a call of a node group. -/
def joined (builder : Builder) (group : Nat) (args : List Item) : Builder :=
  let fed := (List.range args.length).zip args
  { builder.put (builder.current.grown (fedAll (builder.groupNode group) fed)
      (linksInto builder.nextNode fed)) with
    stack := outputItems builder.nextNode (List.range (builder.forest.groupSize group).outputs) ++
      builder.stack
    added := builder.added ++ [builder.nextNode] }

theorem addGroupNode_of_accepts (anchored : builder.Anchored) (accepted :
      accepts (builder.groupNode group).inputs.length (range args.length) args = true) :
    addGroupNode group args builder = .ok () (builder.joined group args) := by
  have anchoredOn : Anchored { builder with added := builder.added ++ [builder.nextNode] } :=
    anchored
  have remembered (tree : NodeTree) : remember builder.current.nodes.length (builder.put tree) =
      .ok () (put { builder with added := builder.added ++ [builder.nextNode] } tree) := rfl
  rw [addGroupNode_eq, started_eq anchored, ← groupNode,
    bind_of_ok (feedAll_of_accepts anchored accepted), bind_of_ok (remembered _),
    pushOutputs_of_lt ?_]
  · rfl
  · intro index member
    apply socketAt_last anchoredOn
    show index < length (Node.outputs _)
    rw [fedAll_outputs]
    simpa [groupNode, asGroup, Forest.groupSize] using member

theorem addGroupNode_of_not_accepts (anchored : builder.Anchored) (refused :
      accepts (builder.groupNode group).inputs.length (range args.length) args = false) :
    ∃ after, addGroupNode group args builder = .error .listIndex after := by
  obtain ⟨after, failed⟩ := feedAll_of_not_accepts anchored refused
  refine ⟨after, ?_⟩
  rw [addGroupNode_eq, started_eq anchored]
  exact bind_of_error failed

theorem agrees_addGroupNode (sound : builder.Sound) (group : Nat) (args : List Item) :
    Agrees (addGroupNode group args builder)
      (builder.profile.place (builder.forest.groupSize group) (args.map Item.shape)) := by
  have fits : accepts (builder.groupNode group).inputs.length (List.range args.length) args =
      ((args.map Item.shape).drop (builder.forest.groupSize group).inputs).all (· == .idle) := by
    rw [range_eq_range', accepts_range']
    simp [groupNode, asGroup, Forest.groupSize]
  rw [place, ← fits]
  by_cases accepted :
      accepts (builder.groupNode group).inputs.length (List.range args.length) args = true
  · have embeds := embeds_addGroupNode builder (.refl _) group args
    rw [addGroupNode_of_accepts sound.anchored accepted] at embeds ⊢
    rw [if_pos accepted]
    refine .done (sound.embeds embeds rfl rfl)
      (Profile.ext ?_ rfl rfl (groups_profile sound embeds rfl))
    simp only [profile, joined, map_append, shape_outputItems, length_range]
  · obtain ⟨_, failed⟩ :=
      addGroupNode_of_not_accepts sound.anchored (Bool.eq_false_iff.mpr accepted)
    rw [failed, if_neg accepted]
    exact .stopped

theorem linkResults_of_le (anchored : builder.Anchored) {index start}
    (found : builder.current.nodes[index]? = some node)
    (enough : start + outputs.length ≤ node.inputs.length) :
    ∃ linked, linkResults index start outputs builder = .ok () linked := by
  induction outputs generalizing builder start with
  | nil => exact ⟨builder, rfl⟩
  | cons output _ ih =>
    rw [length_cons] at enough
    cases output with
    | none => exact ih anchored found (by omega)
    | some source =>
      have has : builder.current.Has index .input start :=
        ⟨node, found, show start < node.inputs.length by omega⟩
      obtain ⟨_, target⟩ := (socketAt_cases builder index .input start).resolve_right
        fun missing => missing.1 has
      let link : Link := ⟨source, ⟨builder.tree, index, .input, start⟩⟩
      have anchoredOn : (builder.put (builder.current.addLink link)).Anchored := by
        simpa [Anchored, put] using anchored
      rcases @ih (builder.put (builder.current.addLink link)) anchoredOn (start + 1)
        (by rw [current_put anchored]; exact found) (by omega) with ⟨linked, rest⟩
      refine ⟨linked, ?_⟩
      show (socketAt index .input start >>= _) builder = _
      rw [bind_of_ok target, bind_of_ok (modifyTree_eq _ _)]
      exact rest

section Groups

variable {inputs outputs : List Binding}

theorem exit_groupTree (name kind : String) (ins outs : List InterfaceSocket) :
    ∃ node : Node, (groupTree name kind ins outs).nodes[1]? = some node ∧
      node.inputs.length = outs.length := by
  have unlisted : Catalog.shape? "NodeGroupOutput" = none := by decide
  refine ⟨_, rfl, ?_⟩
  simp [NodeTree.freshNode, NodeTree.socketsOf, unlisted, NodeTree.grown]

theorem sound_insideGroup (sound : builder.Sound) (name : String)
    (ins outs : List InterfaceSocket) : (builder.insideGroup name ins outs).Sound := by
  constructor
  · simp [Anchored, insideGroup]
  · intro entry member
    have inside := sound.groups entry member
    simp only [insideGroup, length_append]
    omega

theorem profile_insideGroup (sound : builder.Sound) (name : String)
    (inputsMade : inputs.mapM InterfaceSocket.ofBinding = .ok ins)
    (outputsMade : outputs.mapM InterfaceSocket.ofBinding = .ok outs) :
    (builder.insideGroup name ins outs).profile = { builder.profile with
      stack := []
      vars := varsOf (inputs.map (·.name)) (.replicate inputs.length .socket)
      outputs := .replicate outputs.length false } := by
  have inputNames := names_of_ofBinding inputsMade
  have inputCount := length_of_ofBinding inputsMade
  apply Profile.ext
  · rfl
  · have sockets : ((List.range inputs.length).map fun index =>
        Item.socket ⟨builder.forest.length, 0, .output, index⟩).map Item.shape =
          List.replicate inputs.length .socket := by
      rw [map_map]
      show (List.range inputs.length).map (fun _ => Shape.socket) = _
      rw [map_const', length_range]
    simp only [profile, insideGroup, map_varsOf, inputNames, inputCount, sockets]
  · simp [profile, insideGroup, length_of_ofBinding outputsMade]
  · exact groups_profile sound (.append _ _) rfl

theorem linkResults_after
    (kept : (builder.insideGroup name ins outs).Keeps result) (done : result = .ok () after)
    (anchored : after.Anchored) :
    ∃ linked, linkResults 1 0 after.outputs after = .ok () linked := by
  obtain ⟨node, exit, count⟩ := exit_groupTree name builder.current.kind ins outs
  obtain ⟨later, found, lasts⟩ := (kept.embeds_current done).nodes exit
  apply linkResults_of_le anchored found
  rw [(kept.stays done).2, show later.inputs.length = _ from lasts.2 .input,
    show (node.sockets .input).length = _ from count]
  simp [insideGroup]

/-- Leaving an inner tree and making its node is what placing a group says. -/
theorem agrees_outsideGroup (sound : builder.Sound)
    (kept : (builder.insideGroup name ins outs).Keeps result) (done : result = .ok () after)
    (soundAfter : after.Sound) (linking : linkResults 1 0 after.outputs after = .ok () linked)
    (count : Nat) (args : List Item) :
    Agrees (addGroupNode builder.forest.length args (builder.outsideGroup linked name count))
      (place { builder.profile with
          stack := builder.profile.stack.drop count
          groups := Table.insert name ⟨ins.length, outs.length⟩ after.profile.groups }
        ⟨ins.length, outs.length⟩ (args.map Item.shape)) := by
  have size : linked.forest.groupSize builder.forest.length = ⟨ins.length, outs.length⟩ :=
    (Forest.groupSize_of_faces (faces_linkResults linking) _).trans (kept.groupSize done)
  have longer : builder.forest.length < after.forest.length :=
    Nat.lt_of_lt_of_le (by simp [insideGroup]) (kept.length_le done)
  have frame : linked = { after with forest := linked.forest } := by
    rw [linkResults_eq_feedAll] at linking
    exact feedAll_eq_ok linking
  have length : linked.forest.length = after.forest.length := by
    simpa using congrArg List.length (faces_linkResults linking)
  have profiles : (builder.outsideGroup linked name count).profile = { builder.profile with
      stack := builder.profile.stack.drop count
      groups := Table.insert name ⟨ins.length, outs.length⟩ after.profile.groups } := by
    refine Profile.ext (by simp [profile, outsideGroup]) rfl rfl ?_
    show (Table.insert name builder.forest.length linked.groups).map
      (fun entry => (entry.1, linked.forest.groupSize entry.2)) = Table.insert name _ _
    rw [Table.map_insert, size, frame]
    simp only [Forest.groupSize_of_faces (faces_linkResults linking), profile]
  have outside : (builder.outsideGroup linked name count).Sound := by
    refine ⟨Nat.lt_trans sound.anchored (length ▸ longer), ?_⟩
    intro entry member
    show entry.2 < linked.forest.length
    rw [length]
    rcases Table.mem_of_mem_insert member with rfl | old
    · exact longer
    · rw [frame] at old
      exact soundAfter.groups entry old
  have agrees := agrees_addGroupNode outside builder.forest.length args
  rw [profiles] at agrees
  rwa [show (builder.outsideGroup linked name count).forest.groupSize _ = _ from size] at agrees

theorem follows_callNodeGroup (bodyFollows : Follows body change) :
    Follows [.callNodeGroup name inputs outputs body]
      (fun profile => profile.callGroup name inputs outputs change) := by
  intro builder sound
  rw [runAll_singleton]
  have poppedSound : (builder.popped inputs.length).Sound := ⟨sound.1, sound.2⟩
  have listed : builder.profile.groups.lookup name =
      (builder.groups.lookup name).map builder.forest.groupSize := Table.lookup_map _ _ _
  have args : (builder.profile.stack.take inputs.length).reverse =
      (builder.stack.take inputs.length).reverse.map Item.shape := by
    simp [profile]
  have rest : (builder.popped inputs.length).profile =
      { builder.profile with stack := builder.profile.stack.drop inputs.length } := by
    simp [profile, popped]
  simp only [callGroup, listed, args]
  cases known : builder.groups.lookup name with
  | some group =>
    rw [run_callNodeGroup_of_known known, ← rest]
    exact agrees_addGroupNode poppedSound group _
  | none =>
    rw [run_callNodeGroup_of_new known]
    rcases openGroup_cases (builder.popped inputs.length) name inputs outputs with
      ⟨fault, _, _, _, failed, stops⟩ | ⟨ins, outs, inputsMade, outputsMade, opened⟩
    · rw [bind_of_error failed]
      simp only [stops]
      exact .stopped
    · have kept := keeps_runAll body (builder.insideGroup name ins outs)
      have agrees := bodyFollows _ (sound_insideGroup sound name ins outs)
      rw [profile_insideGroup sound name inputsMade outputsMade] at agrees
      rw [bind_of_ok opened, inputsMade, outputsMade]
      show Agrees ((runAll body >>= _) (builder.insideGroup name ins outs)) (change _ >>= _)
      generalize change _ = changed at agrees
      cases ran : runAll body (builder.insideGroup name ins outs) with
      | error =>
        rw [ran] at agrees
        cases agrees
        rw [bind_of_error ran]
        exact .stopped
      | ok =>
        rw [ran] at agrees
        cases agrees with
        | done soundAfter same =>
          subst same
          obtain ⟨_, linking⟩ := linkResults_after kept ran soundAfter.anchored
          rw [bind_of_ok ran, bind_get, bind_of_ok linking, bind_modify,
            ← length_of_ofBinding inputsMade, ← length_of_ofBinding outputsMade]
          exact agrees_outsideGroup sound kept ran soundAfter linking _ _

end Groups

end Builder

end NodeFormula
