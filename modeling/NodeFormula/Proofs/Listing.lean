import NodeFormula.Proofs.Provenance

/-!
# Which nodes are listed as added

The builder lists the nodes that it adds, whichever tree it is in.  So the list of a run holds
those of the edited tree and those of the inner trees, but for the two that an inner tree starts
with.
-/

namespace NodeFormula

open List NodeTree

variable {forest later : Forest}

/-- The number of nodes of a tree; one that is not there yet will start with two. -/
def Forest.extent (forest : Forest) (number : Nat) : Nat :=
  (forest[number]?.map (·.nodes.length)).getD 2

theorem Forest.extent_of_faces (same : later.map face = forest.map face) :
    later.extent number = forest.extent number := by
  have faces := congrArg (fun faces => (faces[number]?.map (·.2.2.length)).getD 2) same
  simpa [Forest.extent, face, Function.comp_def] using faces

namespace Builder

variable {after builder : Builder}

/-- The nodes that were listed in between are those that the trees have gained. -/
structure Lists (before after : Builder) : Prop where
  extent_le : ∀ number, before.forest.extent number ≤ after.forest.extent number
  mem_added : ∀ ref : NodeRef, ref ∈ after.added ↔ ref ∈ before.added ∨
    before.forest.extent ref.tree ≤ ref.index ∧ ref.index < after.forest.extent ref.tree

/--
If any were listed then the last one is in the tree of the builder, and the trees that have come to
be kept under names are new.
-/
structure Gains (before after : Builder) : Prop extends Lists before after where
  last : after.added = before.added ∨ ∃ index, after.added.getLast? = some ⟨before.tree, index⟩
  groups : ∀ entry ∈ after.groups, entry ∈ before.groups ∨
    before.forest.length ≤ entry.2 ∧ entry.2 < after.forest.length

/-- One node was added, in the tree of the builder. -/
structure Adds (before after : Builder) : Prop where
  extent : ∀ number, after.forest.extent number =
    before.forest.extent number + if number = before.tree then 1 else 0
  added : after.added = before.added ++ [⟨before.tree, before.forest.extent before.tree⟩]

theorem Lists.of_same (extent : ∀ number, after.forest.extent number = before.forest.extent number)
    (added : after.added = before.added) : Lists before after := by
  refine ⟨fun _ => Nat.le_of_eq (extent _).symm, fun _ => ?_⟩
  grind

theorem Gains.of_same (extent : ∀ number, after.forest.extent number = before.forest.extent number)
    (added : after.added = before.added) (groups : after.groups = before.groups) :
    Gains before after :=
  ⟨.of_same extent added, .inl added, fun _ member => .inl (groups ▸ member)⟩

theorem Lists.trans (early : Lists before middle) (late : Lists middle after) :
    Lists before after := by
  refine ⟨fun _ => Nat.le_trans (early.extent_le _) (late.extent_le _), fun ref => ?_⟩
  have first := early.extent_le ref.tree
  have second := late.extent_le ref.tree
  rw [late.mem_added, early.mem_added]
  grind

theorem Adds.lists (adds : Adds before after) : Lists before after := by
  refine ⟨fun _ => ?_, fun ref => ?_⟩
  · rw [adds.extent]
    exact Nat.le_add_right _ _
  · obtain ⟨_, _⟩ := ref
    rw [adds.added, adds.extent, mem_append, mem_singleton, NodeRef.mk.injEq]
    grind

theorem Gains.trans (early : Gains before middle) (late : Gains middle after)
    (first : before.Keeps (.ok () middle)) (second : middle.Keeps (.ok () after)) :
    Gains before after := by
  refine ⟨early.toLists.trans late.toLists, ?_, fun entry member => ?_⟩
  · rcases late.last with same | isLast
    · rw [same]
      exact early.last
    · exact .inr ((first.stays rfl).1 ▸ isLast)
  · rcases late.groups entry member with isOld | ⟨isNew, inside⟩
    · exact (early.groups entry isOld).imp_right
        (And.imp_right (Nat.lt_of_lt_of_le · second.embeds.length_le))
    · exact .inr ⟨Nat.le_trans first.embeds.length_le isNew, inside⟩

theorem Adds.gains (adds : Adds before after) (groups : after.groups = before.groups) :
    Gains before after := by
  refine ⟨adds.lists, .inr ?_, fun _ member => .inl (groups ▸ member)⟩
  rw [adds.added, getLast?_concat]
  exact ⟨_, rfl⟩

theorem extent_tree (anchored : builder.Anchored) :
    builder.forest.extent builder.tree = builder.current.nodes.length := by
  rw [Forest.extent, forest_getElem?_tree anchored]
  rfl

theorem adds_of_feedAll (anchored : builder.Anchored)
    (fed : feedAll node indices items (builder.started key change) = .ok () middle)
    (forest : after.forest = middle.forest)
    (added : after.added = middle.added ++ [builder.nextNode]) : Adds builder after := by
  have faces := faces_feedAll (builder.started key change) node indices items
  rw [fed] at faces
  rw [feedAll_eq_ok fed] at added
  refine ⟨fun number => ?_, by rw [added, extent_tree anchored]; rfl⟩
  rw [forest]
  refine (Forest.extent_of_faces faces).trans ?_
  by_cases here : number = builder.tree
  · subst here
    simp [Forest.extent, started, forest_getElem?_tree anchored, addNode,
      modifyNode]
  · simp [Forest.extent, started, here, Ne.symm here]

theorem adds_callBuiltin (anchored : builder.Anchored)
    (done : callBuiltin recipe builder = .ok () after) : Adds builder after := by
  rw [callBuiltin_eq] at done
  obtain ⟨_, _, feeding, rest⟩ := bind_eq_ok done
  obtain ⟨_, _, pushing, remembering⟩ := bind_eq_ok rest
  have popped : (builder.popped recipe.inputs.length).Anchored := anchored
  obtain ⟨extent, added⟩ : Adds (builder.popped recipe.inputs.length) after := by
    cases remembering
    refine adds_of_feedAll popped feeding ?_ ?_
    · rw [pushOutputs_eq_ok pushing]
    · rw [pushOutputs_eq_ok pushing, feedAll_eq_ok feeding]
      rfl
  exact ⟨extent, added⟩

theorem adds_addGroupNode (anchored : builder.Anchored)
    (done : addGroupNode group args builder = .ok () after) : Adds builder after := by
  rw [addGroupNode_eq] at done
  obtain ⟨_, _, feeding, rest⟩ := bind_eq_ok done
  obtain ⟨_, _, remembering, pushing⟩ := bind_eq_ok rest
  cases remembering
  refine adds_of_feedAll anchored feeding ?_ ?_
  · rw [pushOutputs_eq_ok pushing]
  · rw [pushOutputs_eq_ok pushing, feedAll_eq_ok feeding]
    rfl

theorem Plain.gains (plain : Plain builder result) (anchored : builder.Anchored)
    (done : result = .ok () after) : Gains builder after := by
  cases plain with
  | resting rests =>
    have same := (rests builder).1
    rw [done] at same
    have forest : after.forest = builder.forest := congrArg (·.1) same
    exact .of_same (fun _ => by rw [forest]) (congrArg (·.2.2.1) same) (congrArg (·.2.2.2) same)
  | touching =>
    rw [modifyLast, bind_get] at done
    cases last : builder.added.getLast? with
    | none =>
      rw [last] at done
      cases done
    | some ref =>
      rw [last] at done
      cases done
      refine .of_same (fun number => ?_) rfl rfl
      simp only [Forest.extent, Forest.modifyNode, getElem?_modify, modifyNode]
      cases builder.forest[number]? <;> by_cases here : ref.tree = number <;> simp [here]
  | building recipe =>
    have groups := (within_callBuiltin builder recipe).groups
    rw [done] at groups
    exact (adds_callBuiltin anchored done).gains groups

theorem extent_insideGroup (name : String) (ins outs : List InterfaceSocket) :
    (builder.insideGroup name ins outs).forest.extent number = builder.forest.extent number := by
  simp only [Forest.extent, insideGroup, getElem?_append]
  split
  · rfl
  · cases rest : number - builder.forest.length <;>
      simp_all [groupTree, grown]

mutual

theorem gains_run : ∀ (operation : Operation) {builder after}, builder.Anchored →
    run operation builder = .ok () after → Gains builder after
  | .callFunction names body count, builder, _, anchored, done => by
    obtain ⟨_, _, ran, _, rfl⟩ := callFunction_eq_ok done
    have entered : (builder.entered names count).Anchored := anchored
    obtain ⟨⟨extent_le, mem_added⟩, last, groups⟩ := gains_runAll body entered ran
    exact ⟨⟨extent_le, mem_added⟩, last, groups⟩
  | .callNodeGroup name inputs _ body, builder, after, anchored, done => by
    have popped : (builder.popped inputs.length).Anchored := anchored
    obtain ⟨⟨extent_le, mem_added⟩, last, groups⟩ : Gains (builder.popped inputs.length) after := by
      cases known : builder.groups.lookup name with
      | some =>
        rw [run_callNodeGroup_of_known known] at done
        exact (adds_addGroupNode popped done).gains (by rw [addGroupNode_frame done])
      | none =>
        obtain ⟨_, _, inner, linked, opened, ran, linking, joining⟩ := newGroup_eq_ok known done
        obtain ⟨ins, outs, _, rfl, rfl⟩ := openGroup_eq_ok opened
        have embeds := (keeps_runAll body _).embeds_linkResults ran
        have faces := faces_linkResults linking
        rw [linking] at embeds
        have outside : (builder.outsideGroup linked name inputs.length).Anchored :=
          Nat.lt_of_lt_of_le anchored embeds.length_le
        rw [linkResults_eq_feedAll] at linking
        have opening : Lists (builder.popped inputs.length) _ :=
          .of_same (fun _ => extent_insideGroup name ins outs) rfl
        have inside := gains_runAll body (by simp [Anchored, insideGroup]) ran
        have back : Lists inner (builder.outsideGroup linked name inputs.length) := by
          refine .of_same (fun _ => Forest.extent_of_faces faces) ?_
          exact congrArg (·.added) (feedAll_eq_ok linking)
        have adds := adds_addGroupNode outside joining
        refine ⟨((opening.trans inside.toLists).trans back).trans adds.lists, .inr ?_,
          fun entry member => ?_⟩
        · rw [adds.added, getLast?_concat]
          exact ⟨_, rfl⟩
        · have count := (within_of_addGroupNode joining).count.trans
            (show linked.forest.length = _ by simpa using congrArg length faces)
          have longer := (keeps_runAll body _).length_le ran
          simp only [insideGroup, length_append, length_singleton] at longer
          rw [addGroupNode_frame joining] at member
          rcases Table.mem_of_mem_insert member with rfl | isOld
          · exact .inr ⟨Nat.le_refl _, Nat.lt_of_lt_of_eq longer count.symm⟩
          · rw [feedAll_eq_ok linking] at isOld
            refine (inside.groups entry isOld).imp_right (And.imp (fun isNew => ?_) (count ▸ ·))
            exact Nat.le_trans (by simp [insideGroup]) isNew
    exact ⟨⟨extent_le, mem_added⟩, last, groups⟩
  | .pushValue _, _, _, anchored, done | .createVar _, _, _, anchored, done
  | .getVar _, _, _, anchored, done | .getOutput _, _, _, anchored, done
  | .setOutput .., _, _, anchored, done | .setFunctionOut _, _, _, anchored, done
  | .splitStruct, _, _, anchored, done | .callBuiltin _, _, _, anchored, done
  | .renameNode _, _, _, anchored, done | .endOfStatement, _, _, anchored, done =>
    (plain_run (by rfl) _).gains anchored done

theorem gains_runAll : ∀ (operations : List Operation) {builder after},
    builder.Anchored → runAll operations builder = .ok () after → Gains builder after
  | [], _, _, _, done => by
    cases done
    exact .of_same (fun _ => rfl) rfl rfl
  | operation :: operations, builder, _, anchored, done => by
    rw [runAll] at done
    obtain ⟨_, middle, early, late⟩ := bind_eq_ok done
    have first := keeps_run operation builder
    have second := keeps_runAll operations middle
    have anchoredStill := first.anchored early anchored
    rw [early] at first
    rw [late] at second
    exact (gains_run operation anchored early).trans
      (gains_runAll operations anchoredStill late) first second

end

/--
The nodes that a run lists are those that the edited tree has gained and, of every inner tree that
was made, all but the first two.  So the list holds nodes of the edited tree only exactly if no
inner tree has got others.
-/
theorem runAll_lists (nonempty : forest ≠ [])
    (done : runAll operations (new forest) = .ok () builder) :
    (∀ ref, ref ∈ builder.added ↔
      forest.extent ref.tree ≤ ref.index ∧ ref.index < builder.forest.extent ref.tree) ∧
    (∀ ref ∈ builder.added, ref.tree = 0 ∨ forest.length ≤ ref.tree) ∧
    ((∀ ref ∈ builder.added, ref.tree = 0) ↔
      ∀ number, forest.length ≤ number → builder.forest.extent number = 2) := by
  have positive : (new forest).Anchored := length_pos_iff.2 nonempty
  have lists := gains_runAll operations positive done
  have listed {ref : NodeRef} : ref ∈ builder.added ↔
      forest.extent ref.tree ≤ ref.index ∧ ref.index < builder.forest.extent ref.tree :=
    (lists.mem_added ref).trans (or_iff_right not_mem_nil)
  have fresh {number : Nat} (isNew : forest.length ≤ number) : forest.extent number = 2 := by
    simp [Forest.extent, isNew]
  have around {ref : NodeRef} (isListed : ref ∈ builder.added) :
      ref.tree = 0 ∨ forest.length ≤ ref.tree := by
    rcases Nat.lt_or_ge ref.tree forest.length with isThere | isNew
    · refine .inl (Classical.byContradiction fun isOther => ?_)
      have settled : (new forest).Settled fun _ _ => True := ⟨positive, nofun⟩
      have same := (proceeds_runAll operations settled fun _ => trivial).others
        ⟨isThere, isOther, nofun⟩
      rw [done] at same
      have more := listed.1 isListed
      rw [Forest.extent, Forest.extent, show builder.forest[ref.tree]? = _ from same] at more
      exact Nat.lt_irrefl _ (Nat.lt_of_le_of_lt more.1 more.2)
    · exact .inr isNew
  refine ⟨fun _ => listed, fun _ => around, fun inTree number isNew => ?_,
    fun bare ref isListed => ?_⟩
  · have more : forest.extent number ≤ builder.forest.extent number := lists.extent_le number
    rw [fresh isNew] at more
    refine Classical.byContradiction fun isGrown => ?_
    have isListed : ⟨number, 2⟩ ∈ builder.added :=
      listed.2 ⟨Nat.le_of_eq (fresh isNew), Nat.lt_of_le_of_ne more (Ne.symm isGrown)⟩
    have isFirst : number = 0 := inTree _ isListed
    exact nonempty (length_eq_zero_iff.1 (Nat.le_zero.1 (isFirst ▸ isNew)))
  · refine (around isListed).resolve_right fun isNew => ?_
    have more := listed.1 isListed
    rw [fresh isNew, bare _ isNew] at more
    omega

def nested : List Operation :=
  [.pushValue (some (.int 1)), .callNodeGroup "f" [⟨"a", .float, none⟩] [⟨"r", .float, none⟩]
    [.getVar "a", .callBuiltin ⟨"ShaderNodeMath", [0], [0], []⟩, .setFunctionOut 0]]

theorem runAll_lists_nested :
    ∃ builder, runAll nested (new [.empty "T" TreeKind.geometry.label]) = .ok () builder ∧
      ⟨1, 2⟩ ∈ builder.added ∧ ¬ ∀ number, 1 ≤ number → builder.forest.extent number = 2 := by
  obtain ⟨builder, done, member⟩ :
      ∃ builder, runAll nested (new [.empty "T" TreeKind.geometry.label]) =
      .ok () builder ∧ ⟨1, 2⟩ ∈ builder.added := by decide +kernel
  refine ⟨builder, done, member, fun bare => ?_⟩
  exact Nat.one_ne_zero ((runAll_lists (cons_ne_nil _ _) done).2.2.2 bare _ member)

theorem inner_node_listed :
    (match runAll nested (new [.empty "T" TreeKind.geometry.label]) with
      | .ok _ builder => builder.added
      | .error _ _ => []) = [⟨1, 2⟩, ⟨0, 0⟩] := by
  decide +kernel

end Builder

end NodeFormula
