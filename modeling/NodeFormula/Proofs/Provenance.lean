import NodeFormula.Calculation.Function
import NodeFormula.Proofs.Hygiene

/-!
# Where the tree of a group node comes from

The first call of a node group builds its tree, which is kept under its name, and every call shows
the tree that is kept under the name.  While one is kept, none is built under that name, and it is
never changed.  So a group node shows, for good, a tree that was built for a node group of the
name, which is the one that was called unless several of one name are.
-/

namespace NodeFormula

open List InterfaceSocket

variable {before builder after : Builder} {name : String} {outputs : List Binding}

namespace Builder

/-! ## What stays as it is -/

/-- The tree is neither that of the builder nor that of the node added last. -/
structure Apart (builder : Builder) (number : Nat) : Prop where
  isThere : number < builder.forest.length
  isOther : number ≠ builder.tree
  notLast : ∀ {last}, builder.added.getLast? = some last → last.tree ≠ number

/-- Only the tree that the builder is in was changed. -/
structure Within (before after : Builder) : Prop where
  tree : after.tree = before.tree
  groups : after.groups = before.groups
  count : after.forest.length = before.forest.length
  last : ∀ {last : NodeRef}, after.added.getLast? = some last →
    before.added.getLast? = some last ∨ last.tree = before.tree
  others : ∀ {number : Nat}, number ≠ before.tree → after.forest[number]? = before.forest[number]?

section Within

theorem Within.of_same (same : after.setting = before.setting) : before.Within after := by
  simp only [setting, Prod.mk.injEq] at same
  obtain ⟨forest, tree, added, groups⟩ := same
  exact ⟨tree, groups, congrArg length forest, fun isLast => .inl (added ▸ isLast),
    fun _ => by rw [forest]⟩

theorem Within.trans (early : before.Within middle) (late : middle.Within after) :
    before.Within after := by
  refine ⟨late.tree.trans early.tree, late.groups.trans early.groups,
    late.count.trans early.count, ?_, ?_⟩
  · intro last isLast
    rcases late.last isLast with old | here
    · exact early.last old
    · exact .inr (here.trans early.tree)
  · intro _ isOther
    rw [late.others (by rw [early.tree]; exact isOther), early.others isOther]

theorem Within.apart (within : before.Within after) (apart : before.Apart number) :
    after.Apart number := by
  refine ⟨within.count ▸ apart.isThere, within.tree ▸ apart.isOther, ?_⟩
  intro last isLast
  rcases within.last isLast with old | here
  · exact apart.notLast old
  · exact here ▸ apart.isOther.symm

theorem within_modify (builder : Builder) (change : NodeTree → NodeTree) :
    builder.Within { builder with forest := builder.forest.modify builder.tree change } := by
  refine ⟨rfl, rfl, length_modify .., .inl, ?_⟩
  intro _ isOther
  exact getElem?_modify_ne _ _ isOther.symm

theorem Within.bind {next : α → Build β} (first : builder.Within (ending (step builder)))
    (rest : ∀ (answer : α) (middle : Builder), middle.Within (ending (next answer middle))) :
    builder.Within (ending ((step >>= next) builder)) :=
  ending_bind (builder.Within ·) first fun _ within => within.trans (rest _ _)

theorem Fed.within (fed : Fed before node index item after) : before.Within after := by
  cases fed with
  | same => exact .of_same rfl
  | linked _ | stored => exact within_modify before _

theorem within_feedAll (builder : Builder) (node : Nat) (indices : List Nat) (items : List Item) :
    builder.Within (ending (feedAll node indices items builder)) := by
  exact feedAll_induction node indices items (fun _ fed within => within.trans fed.within)
    (.of_same rfl)

theorem within_pushOutputs (builder : Builder) (node : Nat) (indices : List Nat) :
    builder.Within (ending (pushOutputs node indices builder)) := by
  rcases pushOutputs_cases builder node indices with ⟨_, done⟩ | ⟨_, failed⟩
  · rw [done]
    exact .of_same rfl
  · rw [failed]
    exact .of_same rfl

theorem within_remember (builder : Builder) (node : Nat) :
    builder.Within (ending (remember node builder)) := by
  refine ⟨rfl, rfl, rfl, ?_, fun _ => rfl⟩
  intro last isLast
  have isNode : (builder.added ++ [(⟨builder.tree, node⟩ : NodeRef)]).getLast? = some last := isLast
  rw [getLast?_concat] at isNode
  cases isNode
  exact .inr rfl

theorem within_started (builder : Builder) (key : String) (change : Node → Node) :
    builder.Within (builder.started key change) :=
  (within_modify builder _).trans (within_modify { builder with forest := _ } _)

theorem within_addGroupNode (builder : Builder) (group : Nat) (args : List Item) :
    builder.Within (ending (addGroupNode group args builder)) := by
  rw [addGroupNode_eq]
  refine (within_started builder builder.groupKey (builder.asGroup group)).trans ?_
  refine .bind (within_feedAll _ _ _ _) fun _ fed => ?_
  exact .bind (within_remember fed _) fun _ _ => within_pushOutputs _ _ _

theorem within_of_addGroupNode (done : addGroupNode group args before = .ok () after) :
    before.Within after := by
  have within := within_addGroupNode before group args
  rw [done] at within
  exact within

theorem within_callBuiltin (builder : Builder) (recipe : NodeRecipe) :
    builder.Within (ending (callBuiltin recipe builder)) := by
  rw [callBuiltin_eq]
  have popping : builder.Within (builder.popped recipe.inputs.length) := .of_same rfl
  refine .trans ?_ (.bind (within_feedAll _ _ _ _) fun _ fed =>
    .bind (within_pushOutputs fed _ _) fun _ _ => within_remember _ _)
  exact popping.trans (within_started _ _ _)

end Within

/-! ## Runs -/

/--
The operation is begun, in that state, when the operations are run, also in the bodies of calls.
-/
inductive Performs : List Operation → Builder → Operation → Builder → Prop
  | here {operation operations builder} :
      Performs (operation :: operations) builder operation builder
  | next {operation call operations builder middle before} :
      run operation builder = .ok () middle → Performs operations middle call before →
      Performs (operation :: operations) builder call before
  | function {names body operations count call builder before} :
      Performs body (builder.entered names count) call before →
      Performs (.callFunction names body count :: operations) builder call before
  | group {name inputs outputs body operations call builder inside before result} :
      builder.groups.lookup name = none →
      openGroup name inputs outputs (builder.popped inputs.length) = .ok result inside →
      Performs body inside call before →
      Performs (.callNodeGroup name inputs outputs body :: operations) builder call before

theorem Performs.cons (performs : Performs [operation] builder call before) :
    Performs (operation :: operations) builder call before := by
  cases performs with
  | here => exact .here
  | next _ none => cases none
  | function inside => exact .function inside
  | group isNew opened inside => exact .group isNew opened inside

def AllIn (calls : Operation → Builder → Prop) (operations : List Operation) (builder : Builder) :
    Prop :=
  ∀ {call : Operation} {start : Builder}, Performs operations builder call start → calls call start

/--
The tree that the first call of a node group leaves: its interface is that of the group, its nodes
and links come from the body and from linking the results.
-/
def Builds (start : Builder) (name : String) (inputs outputs : List Binding)
    (body : List Operation) (tree : NodeTree) : Prop :=
  inputs.mapM ofBinding = .ok tree.inputs ∧ outputs.mapM ofBinding = .ok tree.outputs ∧
    ∃ result inside inner linked,
      openGroup name inputs outputs (start.popped inputs.length) = .ok result inside ∧
      runAll body inside = .ok () inner ∧
      linkResults result 0 inner.outputs inner = .ok () linked ∧
      linked.forest[start.forest.length]? = some tree

/-- The tree was built for a node group of the name, by one of the calls. -/
def Built (calls : Operation → Builder → Prop) (name : String) (number : Nat)
    (tree : NodeTree) : Prop :=
  ∃ inputs outputs body start, calls (.callNodeGroup name inputs outputs body) start ∧
    start.groups.lookup name = none ∧ start.forest.length = number ∧
    start.Builds name inputs outputs body tree

/-- The trees kept under names were built for node groups of these names. -/
structure Settled (calls : Operation → Builder → Prop) (builder : Builder) : Prop where
  anchored : builder.Anchored
  kept : ∀ {name number}, builder.groups.lookup name = some number →
    builder.Apart number ∧ ∃ tree, builder.forest[number]? = some tree ∧
      Built calls name number tree

/-- What a run adds to the trees kept under names. -/
structure Leads (calls : Operation → Builder → Prop) (before after : Builder) : Prop where
  grows : before.forest.length ≤ after.forest.length
  settled : after.Settled calls
  fresh : ∀ {name number}, after.groups.lookup name = some number →
    before.groups.lookup name = some number ∨ before.forest.length ≤ number
  known : ∀ {name}, before.groups.lookup name ≠ none → after.groups.lookup name ≠ none

/-- What comes of a run: trees that are apart stay so and are not changed. -/
structure Proceeds (calls : Operation → Builder → Prop) (before : Builder)
    (result : EStateM.Result Fault Builder Unit) : Prop where
  others : ∀ {number}, before.Apart number →
    (ending result).forest[number]? = before.forest[number]?
  apart : ∀ {after number}, result = .ok () after → before.Apart number →
    after.Apart number
  leads : ∀ {after}, result = .ok () after → Leads calls before after

section Proceeding

variable {inner : Builder}

theorem Leads.trans (early : Leads calls before middle) (late : Leads calls middle after) :
    Leads calls before after := by
  refine ⟨Nat.le_trans early.grows late.grows, late.settled, ?_, late.known ∘ early.known⟩
  intro _ _ isKept
  rcases late.fresh isKept with old | new
  · exact early.fresh old
  · exact .inr (Nat.le_trans early.grows new)

theorem Leads.of_apart (settled : before.Settled calls)
    (grows : before.forest.length ≤ after.forest.length) (anchored : after.Anchored)
    (groups : after.groups = before.groups) (apart : ∀ {number}, before.Apart number →
      after.Apart number ∧ after.forest[number]? = before.forest[number]?) :
    Leads calls before after := by
  refine ⟨grows, ⟨anchored, ?_⟩, fun isKept => .inl (groups ▸ isKept), fun known => groups ▸ known⟩
  intro _ _ isKept
  obtain ⟨isApart, tree, found, built⟩ := settled.kept (groups ▸ isKept)
  obtain ⟨isApartStill, same⟩ := apart isApart
  exact ⟨isApartStill, tree, same.trans found, built⟩

theorem Proceeds.of_apart (settled : before.Settled calls)
    (grows : before.forest.length ≤ (ending result).forest.length)
    (anchored : (ending result).Anchored) (groups : (ending result).groups = before.groups)
    (apart : ∀ {number}, before.Apart number → (ending result).Apart number ∧
      (ending result).forest[number]? = before.forest[number]?) : Proceeds calls before result := by
  refine ⟨fun isApart => (apart isApart).2, ?_, ?_⟩
  · rintro _ _ rfl isApart
    exact (apart isApart).1
  · rintro _ rfl
    exact .of_apart settled grows anchored groups apart

theorem Proceeds.of_within (settled : before.Settled calls)
    (within : before.Within (ending result)) : Proceeds calls before result := by
  refine .of_apart settled (Nat.le_of_eq within.count.symm) ?_ within.groups ?_
  · rw [Anchored, within.tree, within.count]
    exact settled.anchored
  · exact fun isApart => ⟨within.apart isApart, within.others isApart.isOther⟩

theorem Proceeds.trans (early : Proceeds calls before (.ok () middle))
    (late : Proceeds calls middle result) : Proceeds calls before result := by
  refine ⟨?_, ?_, ?_⟩
  · exact fun isApart => (late.others (early.apart rfl isApart)).trans (early.others isApart)
  · exact fun done isApart => late.apart done (early.apart rfl isApart)
  · exact fun done => (early.leads rfl).trans (late.leads done)

theorem Proceeds.error
    (others : ∀ {number}, before.Apart number → after.forest[number]? = before.forest[number]?) :
    Proceeds calls before (.error fault after) :=
  ⟨others, nofun, nofun⟩

theorem Plain.proceeds (plain : Plain before result) (settled : before.Settled calls) :
    Proceeds calls before result := by
  cases plain with
  | resting rests => exact .of_within settled (.of_same (rests before).1)
  | building recipe => exact .of_within settled (within_callBuiltin before recipe)
  | @touching change _ =>
    rw [modifyLast, bind_get]
    cases last : before.added.getLast? with
    | none => exact .of_within settled (.of_same rfl)
    | some ref =>
      have length : (before.forest.modifyNode ref change).length = before.forest.length :=
        length_modify ..
      refine .of_apart settled (Nat.le_of_eq length.symm) ?_ rfl ?_
      · exact Nat.lt_of_lt_of_eq settled.anchored length.symm
      · intro _ isApart
        refine ⟨⟨?_, isApart.isOther, isApart.notLast⟩, ?_⟩
        · exact Nat.lt_of_lt_of_eq isApart.isThere length.symm
        · exact getElem?_modify_ne _ _ (isApart.notLast last)

/-! ## Node groups -/

theorem proceeds_entered (settled : before.Settled calls) (names : List String) (count : Nat) :
    Proceeds calls before (.ok () (before.entered names count)) :=
  .of_within settled (.of_same rfl)

theorem proceeds_openGroup (settled : before.Settled calls)
    (opened : openGroup name inputs outputs (before.popped inputs.length) = .ok entry after) :
    Proceeds calls before (.ok () after) := by
  obtain ⟨ins, outs, _, rfl, rfl⟩ := openGroup_eq_ok opened
  have length : ((before.popped inputs.length).insideGroup name ins outs).forest.length =
      before.forest.length + 1 := by
    simp [insideGroup, popped]
  have isThere {number : Nat} (inside : number < before.forest.length + 1) :=
    Nat.lt_of_lt_of_eq inside length.symm
  refine .of_apart settled (Nat.le_of_lt (isThere (Nat.lt_succ_self _)))
    (isThere (Nat.lt_succ_self _)) rfl ?_
  intro _ isApart
  refine ⟨⟨isThere (Nat.lt_succ_of_lt isApart.isThere), ?_, isApart.notLast⟩, ?_⟩
  · exact Nat.ne_of_lt isApart.isThere
  · exact getElem?_append_left isApart.isThere

theorem proceeds_outsideGroup {tree} (settled : before.Settled calls)
    (ran : Proceeds calls before (.ok () inner)) (linking : inner.Within linked)
    (isInner : inner.tree = before.forest.length)
    (found : linked.forest[before.forest.length]? = some tree)
    (built : Built calls name before.forest.length tree) (count : Nat) (args : List Item) :
    Proceeds calls before (addGroupNode before.forest.length args
      (before.outsideGroup linked name count)) := by
  have leads := ran.leads rfl
  have joining := within_addGroupNode (before.outsideGroup linked name count)
    before.forest.length args
  refine ⟨?_, ?_, ?_⟩
  · intro number isApart
    have notInner : number ≠ inner.tree := isInner ▸ Nat.ne_of_lt isApart.isThere
    rw [joining.others isApart.isOther]
    exact (linking.others notInner).trans (ran.others isApart)
  · intro _ _ done isApart
    have stillApart := linking.apart (ran.apart rfl isApart)
    rw [done] at joining
    exact joining.apart ⟨stillApart.isThere, isApart.isOther, stillApart.notLast⟩
  · intro after done
    replace joining := within_of_addGroupNode done
    have frame := addGroupNode_frame done
    have length : after.forest.length = inner.forest.length := joining.count.trans linking.count
    have lookup (other : String) : after.groups.lookup other =
        if name = other then some before.forest.length else inner.groups.lookup other := by
      rw [joining.groups]
      show (Table.insert name _ linked.groups).lookup other = _
      rw [Table.lookup_insert, linking.groups]
    have fresh {other : String} {number : Nat} (isKept : after.groups.lookup other = some number) :
        before.groups.lookup other = some number ∨ before.forest.length ≤ number := by
      rw [lookup] at isKept
      split at isKept
      · cases isKept
        exact .inr (Nat.le_refl _)
      · exact leads.fresh isKept
    refine ⟨length ▸ leads.grows, ⟨?_, ?_⟩, fresh, ?_⟩
    · rw [Anchored, joining.tree, length]
      exact Nat.lt_of_lt_of_le settled.anchored leads.grows
    · intro other number isKept
      -- A tree that is kept was kept before or is new, so it is not the one outside.
      have isOther : number ≠ before.tree := by
        rcases fresh isKept with old | new
        · exact (settled.kept old).1.isOther
        · exact (Nat.ne_of_lt (Nat.lt_of_lt_of_le settled.anchored new)).symm
      obtain ⟨tree, isTree, builtStill⟩ : ∃ tree, linked.forest[number]? = some tree ∧
          Built calls other number tree := by
        rw [lookup] at isKept
        split at isKept
        · next same =>
            cases isKept
            cases same
            exact ⟨tree, found, built⟩
        · obtain ⟨isApart, tree, isTree, builtBefore⟩ := leads.settled.kept isKept
          exact ⟨tree, (linking.others isApart.isOther).trans isTree, builtBefore⟩
      refine ⟨⟨?_, joining.tree ▸ isOther, ?_⟩, tree, ?_, builtStill⟩
      · rw [joining.count]
        exact (List.getElem?_eq_some_iff.1 isTree).1
      · intro _ isLast
        rw [frame] at isLast
        rw [getLast?_concat] at isLast
        cases isLast
        exact isOther.symm
      · exact (joining.others isOther).trans isTree
    · intro _ known
      rw [lookup]
      split
      · exact Option.some_ne_none _
      · exact leads.known known

theorem builds_of_ok (inputsMade : inputs.mapM ofBinding = .ok ins)
    (outputsMade : outputs.mapM ofBinding = .ok outs)
    (running : runAll body ((before.popped inputs.length).insideGroup name ins outs) = .ok () inner)
    (linking : linkResults 1 0 inner.outputs inner = .ok () linked) :
    ∃ tree, linked.forest[before.forest.length]? = some tree ∧
      before.Builds name inputs outputs body tree := by
  have opened := openGroup_of_ok (before.popped inputs.length) name inputsMade outputsMade
  have kept := (keeps_runAll body ((before.popped inputs.length).insideGroup name ins outs)).embeds
  rw [running] at kept
  have isNew : ((before.popped inputs.length).insideGroup name ins outs).forest[
      before.forest.length]? = some (groupTree name before.current.kind ins outs) := by
    simp [insideGroup, popped, current]
  obtain ⟨ranTree, foundRan, embeds⟩ := kept _ _ isNew
  have face : (linked.forest.map NodeTree.face)[before.forest.length]? = some ranTree.face := by
    rw [faces_linkResults linking, getElem?_map]
    exact congrArg (Option.map NodeTree.face) foundRan
  rw [getElem?_map, Option.map_eq_some_iff] at face
  obtain ⟨tree, found, same⟩ := face
  simp only [NodeTree.face, Prod.mk.injEq] at same
  refine ⟨tree, found, ?_, ?_, 1, _, inner, linked, opened, running, linking, found⟩
  · rw [inputsMade, same.1, embeds.inputs]
    rfl
  · rw [outputsMade, same.2.1, embeds.outputs]
    rfl

end Proceeding

mutual

/-- What is performed by a call is performed by the operation that makes it. -/
theorem proceeds_run {calls} : ∀ (operation : Operation)
    {builder}, builder.Settled calls → AllIn calls [operation] builder →
    Proceeds calls builder (run operation builder)
  | .callFunction names body count, _, settled, performed => by
    have entering := proceeds_entered settled names count
    have ran := entering.trans (proceeds_runAll body (entering.leads rfl).settled
      fun performs => performed (.function performs))
    rcases callFunction_cases names body count with
      ⟨fault, inner, done, failed⟩ | ⟨inner, done, ends⟩
    · rw [failed, ← done]
      exact ran
    · rw [done] at ran
      rcases ends with ⟨_, missing⟩ | ⟨_, _, succeeded⟩
      · rw [missing]
        exact .error ran.others
      · rw [succeeded]
        exact ran.trans (.of_within (ran.leads rfl).settled (.of_same rfl))
  | .callNodeGroup name inputs outputs body, builder, settled, performed => by
    have popping : builder.Within (builder.popped inputs.length) := .of_same rfl
    cases known : builder.groups.lookup name with
    | some group =>
      rw [run_callNodeGroup_of_known known]
      exact .of_within settled (popping.trans (within_addGroupNode _ group _))
    | none =>
      rw [run_callNodeGroup_of_new known]
      rcases openGroup_cases (builder.popped inputs.length) name inputs outputs with
        ⟨fault, tree, _, _, failed, _⟩ | ⟨ins, outs, inputsMade, outputsMade, opened⟩
      · rw [bind_of_error failed]
        exact .error fun isApart => getElem?_append_left isApart.isThere
      · rw [bind_of_ok opened]
        have entering := proceeds_openGroup settled opened
        have ran := entering.trans (proceeds_runAll body (entering.leads rfl).settled
          fun performs => performed (.group known opened performs))
        cases running : runAll body ((builder.popped inputs.length).insideGroup name ins outs) with
        | error =>
          rw [bind_of_error running, ← running]
          exact ran
        | ok _ inner =>
          have isInner : inner.tree = builder.forest.length :=
            ((keeps_runAll body _).stays running).1
          have linking := within_feedAll inner 1 (range' 0 inner.outputs.length)
            (inner.outputs.map resultItem)
          rw [running] at ran
          rw [bind_of_ok running, bind_get]
          rw [← linkResults_eq_feedAll] at linking
          cases linked : linkResults 1 0 inner.outputs inner with
          | error =>
            rw [linked] at linking
            rw [bind_of_error linked]
            refine .error fun isApart => ?_
            exact (linking.others (isInner ▸ Nat.ne_of_lt isApart.isThere)).trans
              (ran.others isApart)
          | ok =>
            rw [linked] at linking
            rw [bind_of_ok linked]
            obtain ⟨_, found, builds⟩ := builds_of_ok inputsMade outputsMade running linked
            exact proceeds_outsideGroup settled ran linking isInner found
              ⟨inputs, outputs, body, builder, performed .here, known, rfl, builds⟩ _ _
  | .pushValue _, builder, settled, _ | .createVar _, builder, settled, _
  | .getVar _, builder, settled, _ | .getOutput _, builder, settled, _
  | .setOutput .., builder, settled, _ | .setFunctionOut _, builder, settled, _
  | .splitStruct, builder, settled, _ | .callBuiltin _, builder, settled, _
  | .renameNode _, builder, settled, _ | .endOfStatement, builder, settled, _ =>
    Plain.proceeds (plain_run (by rfl) builder) settled

theorem proceeds_runAll {calls} : ∀ (operations : List Operation)
    {builder}, builder.Settled calls → AllIn calls operations builder →
    Proceeds calls builder (runAll operations builder)
  | [], _, settled, _ => .of_within settled (.of_same rfl)
  | operation :: operations, builder, settled, performed => by
    have first := proceeds_run operation settled fun performs => performed performs.cons
    rw [runAll]
    cases done : run operation builder with
    | error =>
      rw [bind_of_error done, ← done]
      exact first
    | ok =>
      rw [done] at first
      rw [bind_of_ok done]
      exact first.trans (proceeds_runAll operations (first.leads rfl).settled
        fun performs => performed (.next done performs))

end

/-! ## From a call to the end of the run -/

def Displays (builder : Builder) (ref : NodeRef) (number : Nat) : Prop :=
  ∃ node, builder.forest.node? ref = some node ∧ node.group = some number

section Displays

theorem displays_iff : before.Displays ref number ↔
    (before.forest.map NodeTree.face)[ref.tree]?.bind (·.2.2[ref.index]?) = some (some number) := by
  rw [Displays, Forest.node?, getElem?_map]
  cases before.forest[ref.tree]? with
  | none => simp
  | some => simp [NodeTree.face]

theorem Displays.of_faces (shows : before.Displays ref number)
    (faces : after.forest.map NodeTree.face = before.forest.map NodeTree.face) :
    after.Displays ref number :=
  displays_iff.2 (faces ▸ displays_iff.1 shows)

theorem Displays.embeds (shows : before.Displays ref number)
    (embeds : before.forest.Embeds after.forest) : after.Displays ref number := by
  obtain ⟨_, found, group⟩ := shows
  obtain ⟨_, isTree, isNode⟩ := Option.bind_eq_some_iff.1 found
  obtain ⟨later, isLater, keeps⟩ := embeds _ _ isTree
  obtain ⟨kept, isKept, lasts⟩ := keeps.nodes isNode
  exact ⟨kept, Option.bind_eq_some_iff.2 ⟨later, isLater, isKept⟩, lasts.1.trans group⟩

theorem addGroupNode_displays (anchored : before.Anchored)
    (done : addGroupNode number args before = .ok () after) :
    after.Displays before.nextNode number := by
  rw [addGroupNode_eq] at done
  obtain ⟨_, _, feeding, rest⟩ := bind_eq_ok done
  obtain ⟨_, _, remembering, pushing⟩ := bind_eq_ok rest
  have starting {key} :
      (before.started key (before.asGroup number)).Displays before.nextNode number := by
    refine ⟨before.asGroup number (before.current.freshNode key), ?_, rfl⟩
    simp [Forest.node?, nextNode, started, forest_getElem?_tree anchored, NodeTree.addNode,
      NodeTree.modifyNode]
  have faces := faces_feedAll (before.started before.groupKey (before.asGroup number))
    before.current.nodes.length (range args.length) args
  rw [feeding] at faces
  cases remembering
  rw [pushOutputs_eq_ok pushing]
  exact starting.of_faces faces

section Call

theorem callNodeGroup_displays (anchored : before.Anchored)
    (done : run (.callNodeGroup name inputs outputs body) before = .ok () after) :
    ∃ ref number, after.added.getLast? = some ref ∧ after.groups.lookup name = some number ∧
      after.Displays ref number := by
  -- Whether the tree is new or not, the node is added by a builder that keeps it under the name.
  obtain ⟨base, number, _, isAnchored, isKept, joining⟩ : ∃ base number args,
      base.Anchored ∧ base.groups.lookup name = some number ∧
      addGroupNode number args base = .ok () after := by
    cases known : before.groups.lookup name with
    | some group =>
      rw [run_callNodeGroup_of_known known] at done
      exact ⟨before.popped inputs.length, group, _, anchored, known, done⟩
    | none =>
      have grows := (keeps_run (.callNodeGroup name inputs outputs body) before).length_le done
      obtain ⟨_, _, _, linked, _, _, _, joining⟩ := newGroup_eq_ok known done
      have count := (within_of_addGroupNode joining).count
      refine ⟨_, _, _, ?_, (Table.lookup_insert ..).trans (if_pos rfl), joining⟩
      exact Nat.lt_of_lt_of_le anchored (Nat.le_trans grows (Nat.le_of_eq count))
  refine ⟨base.nextNode, number, ?_, ?_, addGroupNode_displays isAnchored joining⟩
  · rw [addGroupNode_frame joining]
    exact getLast?_concat
  · rw [addGroupNode_frame joining]
    exact isKept

end Call

end Displays

/-- From the state to the end nodes show what they did, and the tree is not changed. -/
structure Outlasts (builder : Builder) (number : Nat)
    (result : EStateM.Result Fault Builder Unit) : Prop where
  shows : ∀ {ref shown}, builder.Displays ref shown →
    (ending result).Displays ref shown
  same : (ending result).forest[number]? = builder.forest[number]?
  apart : ∀ {last}, result = .ok () last → last.Apart number

section Performing

theorem Outlasts.trans (early : builder.Outlasts number (.ok () middle))
    (shows : ∀ {ref shown}, middle.Displays ref shown →
      (ending result).Displays ref shown)
    (same : middle.Apart number → (ending result).forest[number]? = middle.forest[number]?)
    (apart : ∀ {last}, result = .ok () last → middle.Apart number → last.Apart number) :
    builder.Outlasts number result :=
  ⟨shows ∘ early.shows, (same (early.apart rfl)).trans early.same,
    fun done => apart done (early.apart rfl)⟩

theorem Outlasts.within (early : builder.Outlasts number (.ok () middle))
    (shows : ∀ {ref shown}, middle.Displays ref shown →
      (ending result).Displays ref shown)
    (within : middle.Within (ending result)) : builder.Outlasts number result := by
  refine early.trans shows (fun isApart => within.others isApart.isOther) ?_
  rintro _ rfl
  exact within.apart

theorem Outlasts.runAll (early : after.Outlasts number (run operation builder))
    (settled : builder.Settled calls) (performed : AllIn calls (operation :: operations) builder) :
    after.Outlasts number (runAll (operation :: operations) builder) := by
  have first := proceeds_run operation settled fun performs => performed performs.cons
  rw [Builder.runAll]
  cases done : run operation builder with
  | error =>
    rw [bind_of_error done, ← done]
    exact early
  | ok _ middle =>
    rw [done] at early first
    rw [bind_of_ok done]
    have late := proceeds_runAll operations (first.leads rfl).settled
      fun performs => performed (.next done performs)
    exact early.trans (·.embeds (keeps_runAll operations middle).embeds) late.others late.apart

theorem Performs.trans {inner} (performs : Performs operations builder call before)
    (inside : Performs [call] before inner start) : Performs operations builder inner start := by
  induction performs with
  | here => exact inside.cons
  | next done _ ih => exact .next done (ih inside)
  | function _ ih => exact .function (ih inside)
  | group isNew opened _ ih => exact .group isNew opened (ih inside)

theorem Performs.leads (performs : Performs operations builder call before)
    (settled : builder.Settled calls) (performed : AllIn calls operations builder) :
    Leads calls builder before := by
  induction performs with
  | here =>
    exact .of_apart settled (Nat.le_refl _) settled.anchored rfl fun isApart => ⟨isApart, rfl⟩
  | next done _ ih =>
    have first := (proceeds_run _ settled fun performs => performed performs.cons).leads done
    exact first.trans (ih first.settled fun performs => performed (.next done performs))
  | @function names _ _ count _ _ _ _ ih =>
    have entering := (proceeds_entered settled names count).leads rfl
    exact entering.trans (ih entering.settled fun performs => performed (.function performs))
  | group isNew opened _ ih =>
    have entering := (proceeds_openGroup settled opened).leads rfl
    exact entering.trans (ih entering.settled fun performs =>
      performed (.group isNew opened performs))

theorem Performs.leads_after (performs : Performs operations builder call before)
    (done : run call before = .ok () after) (settled : builder.Settled calls)
    (performed : AllIn calls operations builder) : Leads calls builder after := by
  have early := performs.leads settled performed
  refine early.trans ((proceeds_run call early.settled fun inside => ?_).leads done)
  exact performed (performs.trans inside)

/-- The tree that is kept under a name stays as it is, whatever is run later. -/
theorem Performs.outlasts (performs : Performs operations builder call before)
    (done : run call before = .ok () after) (isApart : after.Apart number)
    (isKept : after.groups.lookup name = some number) (settled : builder.Settled calls)
    (performed : AllIn calls operations builder) :
    after.Outlasts number (runAll operations builder) := by
  induction performs with
  | here =>
    refine Outlasts.runAll ⟨?_, ?_, ?_⟩ settled performed
    · rw [done]
      exact id
    · rw [done]
      rfl
    · intro _ again
      cases done.symm.trans again
      exact isApart
  | next early _ ih =>
    rw [runAll, bind_of_ok early]
    have first := (proceeds_run _ settled fun performs => performed performs.cons).leads early
    exact ih done first.settled fun performs => performed (.next early performs)
  | @function names body operations count _ builder _ _ ih =>
    have entering := (proceeds_entered settled names count).leads rfl
    have inside := ih done entering.settled fun performs => performed (.function performs)
    apply Outlasts.runAll _ settled performed
    rcases callFunction_cases names body count with
      ⟨fault, inner, ran, failed⟩ | ⟨inner, ran, ends⟩
    · rw [failed, ← ran]
      exact inside
    · rw [ran] at inside
      rcases ends with ⟨_, missing⟩ | ⟨_, _, succeeded⟩
      · rw [missing]
        refine ⟨inside.shows, inside.same, ?_⟩
        rintro _ ⟨⟩
      · rw [succeeded]
        exact inside.within id (.of_same rfl)
  | @group name inputs outputs body operations _ builder entered _ entry isNew opened performs ih =>
    have entering := (proceeds_openGroup settled opened).leads rfl
    have inside := ih done entering.settled fun performs =>
      performed (.group isNew opened performs)
    -- The tree was kept when the call began or is new, so it is not the one outside.
    have isOther : number ≠ builder.tree := by
      have leads := (group isNew opened performs).leads_after done settled performed
      rcases leads.fresh isKept with old | new
      · exact (settled.kept old).1.isOther
      · exact (Nat.ne_of_lt (Nat.lt_of_lt_of_le settled.anchored new)).symm
    apply Outlasts.runAll _ settled performed
    rw [run_callNodeGroup_of_new isNew, bind_of_ok opened]
    cases ran : runAll body entered with
    | error =>
      rw [bind_of_error ran, ← ran]
      exact inside
    | ok _ inner =>
      rw [ran] at inside
      rw [bind_of_ok ran, bind_get]
      have linking : after.Outlasts number (linkResults entry 0 inner.outputs inner) := by
        rw [linkResults_eq_feedAll]
        exact inside.within (·.of_faces (faces_feedAll ..)) (within_feedAll ..)
      cases linked : linkResults entry 0 inner.outputs inner with
      | error =>
        rw [bind_of_error linked, ← linked]
        exact linking
      | ok _ last =>
        rw [linked] at linking
        rw [bind_of_ok linked]
        have back : after.Outlasts number
            (.ok () (builder.outsideGroup last name inputs.length)) := by
          refine linking.trans id (fun _ => rfl) ?_
          rintro _ ⟨⟩ lastApart
          exact ⟨lastApart.isThere, isOther, lastApart.notLast⟩
        exact back.within (·.embeds (embeds_addGroupNode _ (.refl _) _ _)) (within_addGroupNode ..)

end Performing

/-! ## Built once -/

section Once

theorem Performs.sizeOf_lt (performs : Performs operations builder call before) :
    sizeOf call < sizeOf operations := by
  induction performs with
  | here =>
    rw [cons.sizeOf_spec]
    omega
  | next =>
    rw [cons.sizeOf_spec]
    omega
  | function =>
    rw [cons.sizeOf_spec, Operation.callFunction.sizeOf_spec]
    omega
  | group =>
    rw [cons.sizeOf_spec, Operation.callNodeGroup.sizeOf_spec]
    omega

theorem known_of_first (settled : builder.Settled fun _ _ => True)
    (ran : runAll (operation :: operations) builder = .ok () last)
    (first : ∀ {middle}, run operation builder = .ok () middle → middle.groups.lookup name ≠ none) :
    last.groups.lookup name ≠ none := by
  obtain ⟨_, _, done, rest⟩ := bind_eq_ok ran
  have settledStill := ((proceeds_run _ settled fun _ => trivial).leads done).settled
  exact ((proceeds_runAll _ settledStill fun _ => trivial).leads rest).known (first done)

theorem Performs.known
    (performs : Performs operations builder (.callNodeGroup name inputs outputs body) before)
    (settled : builder.Settled fun _ _ => True) (ran : runAll operations builder = .ok () last) :
    last.groups.lookup name ≠ none := by
  generalize isCall : Operation.callNodeGroup name inputs outputs body = call at performs
  induction performs generalizing last with
  | here =>
    subst isCall
    refine known_of_first settled ran fun done => ?_
    obtain ⟨_, _, _, isKept, _⟩ := callNodeGroup_displays settled.anchored done
    rw [isKept]
    exact nofun
  | next done _ ih =>
    rw [runAll, bind_of_ok done] at ran
    exact ih ((proceeds_run _ settled fun _ => trivial).leads done).settled ran isCall
  | @function names _ _ count _ _ _ _ ih =>
    refine known_of_first settled ran fun done => ?_
    obtain ⟨inner, _, inside, _, rfl⟩ := callFunction_eq_ok done
    show inner.groups.lookup name ≠ none
    exact ih ((proceeds_entered settled names count).leads rfl).settled inside isCall
  | @group outerName _ _ _ _ _ _ _ _ _ isNew opened _ ih =>
    refine known_of_first settled ran fun done => ?_
    obtain ⟨_, _, inner, _, again, ran, linking, joining⟩ := newGroup_eq_ok isNew done
    cases opened.symm.trans again
    have known := ih ((proceeds_openGroup settled opened).leads rfl).settled ran isCall
    rw [linkResults_eq_feedAll] at linking
    rw [addGroupNode_frame joining, feedAll_eq_ok linking]
    show (Table.insert outerName _ inner.groups).lookup name ≠ none
    rw [Table.lookup_insert]
    split
    · exact nofun
    · exact known

theorem Performs.unique
    (performs : Performs operations builder (.callNodeGroup name inputs outputs body) start)
    (isNew : start.groups.lookup name = none)
    (repeated : Performs operations builder (.callNodeGroup name inputs outputs body) again)
    (isNewAgain : again.groups.lookup name = none) (settled : builder.Settled fun _ _ => True) :
    start = again := by
  -- What an operation calls before it succeeds is known to those after it.
  have later {operation : Operation} {operations : List Operation}
      {builder middle early late : Builder} (settled : builder.Settled fun _ _ => True)
      (inside : Performs [operation] builder (.callNodeGroup name inputs outputs body) early)
      (done : run operation builder = .ok () middle)
      (after : Performs operations middle (.callNodeGroup name inputs outputs body) late)
      (isNew : late.groups.lookup name = none) : False := by
    have known := inside.known settled (bind_of_ok done)
    have first := (proceeds_run _ settled fun _ => trivial).leads done
    exact (after.leads first.settled fun _ => trivial).known known isNew
  -- A node group is no part of its own body.
  have outside {entered state : Builder} :
      ¬ Performs body entered (.callNodeGroup name inputs outputs body) state := by
    intro performs
    have smaller := performs.sizeOf_lt
    rw [Operation.callNodeGroup.sizeOf_spec] at smaller
    omega
  generalize isCall : Operation.callNodeGroup name inputs outputs body = call at performs repeated
  induction performs generalizing again with
  | here =>
    subst isCall
    cases repeated with
    | here => rfl
    | next done after => exact (later settled .here done after isNewAgain).elim
    | group _ _ inside => exact (outside inside).elim
  | next done after ih =>
    subst isCall
    cases repeated with
    | here => exact (later settled .here done after isNew).elim
    | next doneAgain afterAgain =>
      cases done.symm.trans doneAgain
      exact ih isNew isNewAgain
        ((proceeds_run _ settled fun _ => trivial).leads done).settled rfl afterAgain
    | function inside => exact (later settled (.function inside) done after isNew).elim
    | group unseen opened inside =>
      exact (later settled (.group unseen opened inside) done after isNew).elim
  | @function names _ _ count _ _ _ inside ih =>
    subst isCall
    cases repeated with
    | next done after => exact (later settled (.function inside) done after isNewAgain).elim
    | function insideAgain =>
      exact ih isNew isNewAgain ((proceeds_entered settled names count).leads rfl).settled rfl
        insideAgain
  | group unseen opened inside ih =>
    subst isCall
    cases repeated with
    | here => exact (outside inside).elim
    | next done after =>
      exact (later settled (.group unseen opened inside) done after isNewAgain).elim
    | group _ openedAgain insideAgain =>
      cases opened.symm.trans openedAgain
      exact ih isNew isNewAgain ((proceeds_openGroup settled opened).leads rfl).settled rfl
        insideAgain

end Once

/--
A group node that a run adds, however the run ends, shows in the end a tree that the run has built
for a node group of the name that was called, and that nothing has changed since.  It is the tree of
the one that was called if the run calls no other one of that name.  No node group is built twice.
-/
theorem group_nodes_show {forest : Forest} (nonempty : forest ≠ []) (operations : List Operation) :
    (∀ {name : String} {inputs outputs : List Binding} {body : List Operation}
      {before after : Builder},
      Performs operations (new forest) (.callNodeGroup name inputs outputs body) before →
      run (.callNodeGroup name inputs outputs body) before = .ok () after →
      ∃ ref number tree, after.added.getLast? = some ref ∧
        (ending (runAll operations (new forest))).Displays ref number ∧
        (ending (runAll operations (new forest))).forest[number]? = some tree ∧
        Built (Performs operations (new forest)) name number tree ∧
        ((∀ {otherInputs otherOutputs : List Binding} {otherBody : List Operation}
            {start : Builder}, Performs operations (new forest)
              (.callNodeGroup name otherInputs otherOutputs otherBody) start →
            otherInputs = inputs ∧ otherOutputs = outputs ∧ otherBody = body) →
          ∃ start : Builder, start.forest.length = number ∧
            Performs operations (new forest) (.callNodeGroup name inputs outputs body) start ∧
            start.Builds name inputs outputs body tree)) ∧
    ∀ {name : String} {inputs outputs : List Binding} {body : List Operation}
      {start again : Builder},
      Performs operations (new forest) (.callNodeGroup name inputs outputs body) start →
      start.groups.lookup name = none →
      Performs operations (new forest) (.callNodeGroup name inputs outputs body) again →
      again.groups.lookup name = none → start = again := by
  have settled (calls : Operation → Builder → Prop) : (new forest).Settled calls :=
    ⟨length_pos_iff.2 nonempty, nofun⟩
  refine ⟨?_, fun performs isNew repeated isNewAgain =>
    performs.unique isNew repeated isNewAgain (settled _)⟩
  intro name inputs outputs body before after performs done
  have leads := performs.leads_after done (settled _) id
  have start := performs.leads (settled _) id
  rcases callNodeGroup_displays start.settled.anchored done with
    ⟨ref, number, isLast, isKept, shows⟩
  rcases leads.settled.kept isKept with ⟨isApart, tree, found, built⟩
  have lasting := performs.outlasts done isApart isKept (settled _) id
  refine ⟨ref, number, tree, isLast, lasting.shows shows, lasting.same.trans found, built, ?_⟩
  intro only
  rcases built with ⟨otherInputs, otherOutputs, otherBody, first, called, _, isNumber, builds⟩
  rcases only called with ⟨rfl, rfl, rfl⟩
  exact ⟨first, isNumber, called, builds⟩

def blank : Builder := new [.empty "T" TreeKind.geometry.label]

def echoGroup : Operation :=
  .callNodeGroup "echo" [⟨"x", .float, none⟩] [⟨"y", .float, none⟩] [.getVar "x", .setFunctionOut 0]

/-- The node of a call shows the tree with the interface of that group. -/
theorem group_nodes_show_echo :
    ∃ before after ref number tree,
      Performs [.pushValue none, echoGroup] blank echoGroup before ∧
      run echoGroup before = .ok () after ∧ after.added.getLast? = some ref ∧
      (ending (runAll [.pushValue none, echoGroup] blank)).Displays ref number ∧
      (ending (runAll [.pushValue none, echoGroup] blank)).forest[number]? = some tree ∧
      tree.inputs = [⟨"NodeSocketFloat", "x", none⟩] := by
  obtain ⟨before, after, performs, done⟩ : ∃ before after,
      Performs [.pushValue none, echoGroup] blank echoGroup before ∧
      run echoGroup before = .ok () after := ⟨_, _, .next rfl .here, rfl⟩
  rcases (group_nodes_show (cons_ne_nil _ _) _).1 performs done with
    ⟨ref, number, tree, isLast, shows, found, _, only⟩
  obtain ⟨_, _, _, inputs, _⟩ := only (by
    intro _ _ _ _ performs
    cases performs with
    | next _ performs =>
      cases performs with
      | here => exact ⟨rfl, rfl, rfl⟩
      | next _ performs => cases performs
      | group _ _ performs =>
        cases performs with
        | next _ performs =>
          cases performs with
          | next _ performs => cases performs)
  exact ⟨before, after, ref, number, tree, performs, done, isLast, shows, found,
    (Except.ok.inj inputs).symm⟩

def overloaded : String :=
  "ng f(a: int) -> r: int { out r = a; } ng f(a: vec3) -> r: vec3 { out r = a; } " ++
    "f(1); f(position());"

theorem performs_of_getElem? (ran : runAll (operations.take place) builder = .ok () before)
    (isAt : operations[place]? = some call) : Performs operations builder call before := by
  induction operations generalizing place builder with
  | nil => cases isAt
  | cons _ _ ih =>
    cases place with
    | zero =>
      cases ran
      cases isAt
      exact .here
    | succ =>
      obtain ⟨_, _, done, rest⟩ := bind_eq_ok ran
      exact .next done (ih rest isAt)

/-- The call is given a vector, but the group of its name takes an integer. -/
def isMistaken (after : Builder) : Operation → Bool
  | .callNodeGroup name inputs _ _ => inputs.map (·.type) == [.vec3] &&
    ((after.groups.lookup name).bind (after.forest[·]?)).any
      (·.inputs.map (·.kind) == ["NodeSocketInt"])
  | _ => false

/-- The node of the second call shows the tree of the group that was called first. -/
theorem overloaded_shows_other :
    ∃ functions outcome, Compiler.compile .geometry [] overloaded = (functions, .ok outcome) ∧
      outcome.accepted = true ∧
      ∃ name inputs outputs body before after ref number tree,
        Performs outcome.operations blank (.callNodeGroup name inputs outputs body) before ∧
        run (.callNodeGroup name inputs outputs body) before = .ok () after ∧
        after.added.getLast? = some ref ∧ after.Displays ref number ∧
        after.forest[number]? = some tree ∧
        ∀ start : Builder, ¬ start.Builds name inputs outputs body tree := by
  obtain ⟨functions, outcome, compiled, accepted, call, isAt, before, ran, after, done, evaluated⟩ :
      ∃ functions outcome, Compiler.compile .geometry [] overloaded = (functions, .ok outcome) ∧
      outcome.accepted = true ∧ ∃ call, outcome.operations[4]? = some call ∧
      ∃ before, runAll (outcome.operations.take 4) blank = .ok () before ∧
      ∃ after, run call before = .ok () after ∧ after.isMistaken call = true := by
    decide +kernel
  have performs := performs_of_getElem? ran isAt
  unfold isMistaken at evaluated
  split at evaluated
  · next name inputs outputs body =>
      have settled : blank.Settled fun _ _ => True := ⟨Nat.zero_lt_one, nofun⟩
      have anchored := (performs.leads settled fun _ => trivial).settled.anchored
      rcases callNodeGroup_displays anchored done with ⟨ref, number, isLast, isShown, shows⟩
      rw [isShown, Bool.and_eq_true, Option.any_eq_true] at evaluated
      obtain ⟨types, tree, found, kinds⟩ := evaluated
      refine ⟨functions, outcome, compiled, accepted, name, inputs, outputs, body, before, after,
        ref, number, tree, performs, done, isLast, shows, found, ?_⟩
      rintro start ⟨made, _⟩
      rcases map_eq_singleton_iff.1 (eq_of_beq types) with ⟨binding, rfl, isVector⟩
      have given : [binding].mapM ofBinding =
          .ok [⟨"NodeSocketVector", binding.name, binding.value⟩] := by
        rw [mapM_cons, ofBinding, isVector]
        rfl
      rw [← Except.ok.inj (given.symm.trans made)] at kinds
      exact absurd kinds (by simp)
  · cases evaluated

end Builder

end NodeFormula
