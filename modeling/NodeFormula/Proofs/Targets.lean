import NodeFormula.Proofs.Soundness

/-!
# Assignments to several targets

An assignment to several targets takes its value apart and gives the parts to its named targets in
turn.  A target that is not named takes none.  A constant is not taken apart: its input node goes
to the first target alone.
-/

namespace NodeFormula

open List Compiler Option Nat

variable {vars : List (Option TypedVar)} {name : String} {profile after : Profile}
  {builder : Builder}

/-! ## Expressions leave one item -/

namespace Profile

theorem length_results (count : Nat) : (Shape.results count).length ≤ 1 := by
  match count with
  | 0 => exact zero_le 1
  | 1 => exact Nat.le_refl 1
  | _ + 2 => exact Nat.le_refl 1

theorem length_pick (picked : profile.pick index = .ok after) :
    after.stack.length = profile.stack.length := by
  unfold pick opened at picked
  split at picked
  · cases picked
  · rename_i shape rest stack
    split at picked
    · cases picked
    · rename_i members _
      cases found : members[index]? with
      | none =>
        simp only [found] at picked
        cases picked
      | some member =>
        simp only [found] at picked
        cases picked
        rw [stack]
        rfl

theorem length_firstOf (first : profile.firstOf value = .ok after) :
    after.stack.length = profile.stack.length := by
  rw [firstOf] at first
  split at first
  · exact length_pick first
  · cases first
    rfl

theorem length_make (made : profile.make recipe = .ok after) :
    after.stack.length ≤ profile.stack.length - recipe.inputs.length + 1 := by
  rw [make] at made
  split at made
  · cases made
  · cases made
    rw [length_append, length_drop, Nat.add_comm]
    exact Nat.add_le_add_left (length_results _) _

theorem length_place {size} (placed : profile.place size args = .ok after) :
    after.stack.length ≤ profile.stack.length + 1 := by
  rw [place] at placed
  split at placed
  · cases placed
    rw [length_append, Nat.add_comm]
    exact Nat.add_le_add_left (length_results _) _
  · cases placed

theorem length_callFunction {count}
    (called : profile.callFunction names count body = .ok after) :
    after.stack.length ≤ profile.stack.length - names.length + 1 := by
  obtain ⟨_, _, left⟩ := except_bind_eq_ok called
  split at left
  · cases left
    rw [length_append, length_drop, Nat.add_comm]
    exact Nat.add_le_add_left (length_results _) _
  · cases left

theorem length_callGroup {inputs outputs}
    (called : profile.callGroup name inputs outputs body = .ok after) :
    after.stack.length ≤ profile.stack.length - inputs.length + 1 := by
  have placed {state : Profile} (sameStack : state.stack = profile.stack.drop inputs.length)
      {size : GroupSize} {args : List Shape} (placing : state.place size args = .ok after) :
      after.stack.length ≤ profile.stack.length - inputs.length + 1 := by
    have bound := length_place placing
    rw [sameStack, length_drop] at bound
    exact bound
  unfold callGroup at called
  cases known : profile.groups.lookup name with
  | some size =>
    simp only [known] at called
    exact placed rfl called
  | none =>
    simp only [known] at called
    obtain ⟨_, _, called⟩ := except_bind_eq_ok called
    obtain ⟨_, _, called⟩ := except_bind_eq_ok called
    obtain ⟨_, _, placing⟩ := except_bind_eq_ok called
    refine placed ?_ placing
    rfl

theorem length_fetch (fetched : profile.fetch name = .ok after) :
    after.stack.length = profile.stack.length + 1 := by
  rw [fetch] at fetched
  split at fetched
  · cases fetched
    rfl
  · cases fetched

theorem length_pushed (profile : Profile) (shapes : List Shape) :
    (profile.pushed shapes).stack.length = profile.stack.length + shapes.length := by
  rw [pushed, length_append, length_reverse, Nat.add_comm]

end Profile

theorem TypedFunction.length_sketch {function : TypedFunction}
    (sketched : function.sketch profile = .ok after) :
    after.stack.length ≤ profile.stack.length - function.inputs.length + 1 := by
  obtain ⟨inputs, _, _, _, _, _⟩ := function
  rw [TypedFunction.sketch] at sketched
  split at sketched
  · exact Profile.length_callGroup sketched
  · have bound := Profile.length_callFunction sketched
    rw [length_map] at bound
    exact bound

namespace TypedExpr

mutual

theorem WellMade.length_sketch : ∀ {expr : TypedExpr} {profile after : Profile},
    expr.WellMade ready → expr.sketch profile = .ok after →
    after.stack.length ≤ profile.stack.length + 1
  | .const _ _, profile, _, _, sketched => by
    cases sketched
    exact Nat.le_refl _
  | .var reference, profile, _, _, sketched => by
    rw [sketch] at sketched
    split at sketched
    · cases sketched
      exact Nat.le_refl _
    · exact Nat.le_of_eq (Profile.length_fetch sketched)
  | .nodeCall _ recipe args, profile, _, made, sketched => by
    obtain ⟨_, fits, argsMade⟩ := made
    obtain ⟨middle, argsSketched, making⟩ := except_bind_eq_ok sketched
    have grown := AllWellMade.length_sketchArgs argsMade argsSketched
    have made := Profile.length_make making
    rw [Profile.length_pushed, length_replicate] at made
    omega
  | .functionCall _ function args, profile, _, made, sketched => by
    obtain ⟨_, fits, argsMade⟩ := made
    obtain ⟨middle, argsSketched, calling⟩ := except_bind_eq_ok sketched
    have grown := AllWellMade.length_sketchArgs argsMade argsSketched
    have called := TypedFunction.length_sketch calling
    rw [Profile.length_pushed, length_map, length_drop] at called
    omega
  | .output _ value index, profile, _, made, sketched => by
    rw [WellMade] at made
    obtain ⟨middle, valueSketched, picked⟩ := except_bind_eq_ok sketched
    rw [Profile.length_pick picked]
    exact WellMade.length_sketch made valueSketched

theorem AllWellMade.length_sketchArgs : ∀ {args profile after},
    AllWellMade ready args → sketchArgs args profile = .ok after →
    after.stack.length ≤ profile.stack.length + args.length
  | [], profile, _, _, sketched => by
    cases sketched
    exact Nat.le_refl _
  | arg :: args, profile, _, made, sketched => by
    obtain ⟨argMade, argsMade⟩ := made
    obtain ⟨_, argSketched, sketched⟩ := except_bind_eq_ok sketched
    obtain ⟨_, first, others⟩ := except_bind_eq_ok sketched
    have grown := WellMade.length_sketch argMade argSketched
    have same := Profile.length_firstOf first
    have rest := AllWellMade.length_sketchArgs argsMade others
    rw [length_cons]
    omega

end

end TypedExpr

/-! ## Targets take parts in turn -/

namespace Builder

variable {after : Builder}

def boundInTurn (vars : List (String × Item)) (names : List String) (items : List Item) :
    List (String × Item) :=
  (names.zip items).foldl (fun vars entry => Table.insert entry.1 entry.2 vars) vars

theorem lookup_boundInTurn_of_not_mem (missing : name ∉ names) (vars : List (String × Item))
    (items : List Item) : (boundInTurn vars names items).lookup name = vars.lookup name := by
  induction names generalizing vars items with
  | nil => rfl
  | cons first names ih =>
    rw [mem_cons, not_or] at missing
    cases items with
    | nil => rfl
    | cons item items =>
      calc (boundInTurn (Table.insert first item vars) names items).lookup name
        _ = (Table.insert first item vars).lookup name := ih missing.2 _ _
        _ = vars.lookup name := by rw [Table.lookup_insert, if_neg (Ne.symm missing.1)]

theorem lookup_boundInTurn {targets : List (Option String)}
    (found : targets[place]? = some (some name))
    (isLast : ∀ later, place < later → targets[later]? ≠ some (some name))
    (vars : List (String × Item)) (enough : targets.reduceOption.length ≤ items.length) :
    (boundInTurn vars targets.reduceOption items).lookup name =
        items[(targets.take place).countP isSome]? ∧
      (targets.take place).countP isSome < items.length := by
  induction targets generalizing place vars items with
  | nil => cases found
  | cons target targets ih =>
    have isLastLater {place : Nat} (isLast : ∀ later, place + 1 < later →
        (target :: targets)[later]? ≠ some (some name)) :
        ∀ later, place < later → targets[later]? ≠ some (some name) := by
      intro later isLater
      exact isLast (later + 1) (succ_lt_succ isLater)
    cases target with
    | none =>
      cases place with
      | zero => cases found
      | succ place =>
        exact ih found (isLastLater isLast) vars enough
    | some first =>
      cases items with
      | nil => cases enough
      | cons item items =>
        have enoughLater := le_of_succ_le_succ enough
        cases place with
        | zero =>
          cases found
          have missing : name ∉ targets.reduceOption := by
            intro member
            obtain ⟨later, at_⟩ := mem_iff_getElem?.1 (reduceOption_mem_iff.1 member)
            exact isLast (later + 1) (succ_pos later) at_
          refine ⟨?_, succ_pos _⟩
          calc (boundInTurn (Table.insert name item vars) targets.reduceOption
                items).lookup name
            _ = (Table.insert name item vars).lookup name :=
              lookup_boundInTurn_of_not_mem missing _ _
            _ = some item := by rw [Table.lookup_insert, if_pos rfl]
        | succ place =>
          rcases ih found (isLastLater isLast) (Table.insert first item vars) enoughLater
            with ⟨bound, inRange⟩
          rw [take_succ_cons, countP_cons_of_pos (by simp)]
          exact ⟨bound, succ_lt_succ inRange⟩

theorem createVar_eq_ok (done : run (.createVar name) builder = .ok () after) :
    ∃ item rest, builder.stack = item :: rest ∧ after = { builder with
      stack := rest
      vars := Table.insert name item builder.vars } := by
  obtain ⟨item, _, popped, keeping⟩ := bind_eq_ok done
  rw [pop] at popped
  cases stack : builder.stack with
  | nil =>
    simp only [bind_get, stack] at popped
    cases popped
  | cons top rest =>
    simp only [bind_get, stack] at popped
    cases popped
    refine ⟨item, rest, rfl, ?_⟩
    cases item with
    | absent => cases keeping
    | socket socket =>
      cases keeping
      rfl
    | struct sockets =>
      cases keeping
      rfl
    | value held =>
      cases held with
      | vector components =>
        cases keeping
        rfl
      | _ => cases keeping

theorem runAll_createVars_eq_ok (done : runAll (names.map .createVar) builder = .ok () final) :
    names.length ≤ builder.stack.length ∧ final = { builder with
      stack := builder.stack.drop names.length
      vars := boundInTurn builder.vars names builder.stack } := by
  induction names generalizing builder with
  | nil =>
    cases done
    exact ⟨zero_le _, rfl⟩
  | cons name names ih =>
    obtain ⟨_, _, created, remaining⟩ := bind_eq_ok done
    obtain ⟨_, _, stack, rfl⟩ := createVar_eq_ok created
    obtain ⟨enough, rfl⟩ := ih remaining
    rw [stack]
    exact ⟨succ_le_succ enough, rfl⟩

theorem bindVars_eq_map (targets : List (Option TypedVar)) :
    bindVars targets = (targets.map (·.map (·.id))).reduceOption.map .createVar := by
  induction targets with
  | nil => rfl
  | cons target targets ih =>
    cases target with
    | none =>
      rw [map_cons, map_none, reduceOption_cons_of_none, ← ih]
      rfl
    | some target =>
      rw [map_cons, map_some, reduceOption_cons_of_some, map_cons, ← ih]
      rfl

/-! ## Taking a value apart -/

def separateXYZ : NodeRecipe := ⟨"ShaderNodeSeparateXYZ", [0], [0, 1, 2], []⟩

theorem wellFormed_separateXYZ : separateXYZ.WellFormed := by
  have listed : ("separate", separateXYZ) ∈ Catalog.builtRecipes := by
    simp [Catalog.builtRecipes, separateXYZ]
  exact Catalog.wellFormed_built listed

/--
The item is a part of the value on top of the stack: the output with this number, or the component
of a new node that the value is fed to.
-/
inductive Part (value : TypedExpr) (evaluated final : Builder) (index : Nat) : Item → Prop
  | output {item : Item} {reached : Builder} (isStruct : value.info.stack = .struct)
      (read : run (.getOutput index) evaluated = .ok () reached)
      (top : reached.stack.head? = some item) : Part value evaluated final index item
  | component {item : Item} (noStruct : value.info.stack ≠ .struct) (inRange : index < 3)
      (top : evaluated.stack.head? = some item)
      (made : final.forest.node? evaluated.nextNode =
        some ((bare separateXYZ evaluated.current).fed 0 item))
      (linked : final.forest.linksOf evaluated.tree = evaluated.forest.linksOf evaluated.tree ++
        item.linksTo ⟨evaluated.tree, evaluated.nextNode.index, .input, 0⟩) :
      Part value evaluated final index
        (.socket ⟨evaluated.tree, evaluated.nextNode.index, .output, index⟩)

theorem splitStruct_eq_ok (done : run .splitStruct builder = .ok () after) :
    ∃ item rest members, builder.stack = item :: rest ∧ item.members? = some members ∧
      after = { builder with stack := members.reverse ++ rest } := by
  rw [run] at done
  obtain ⟨_, _, stack, _, _, _, _⟩ := builder
  cases stack with
  | nil => cases done
  | cons item rest =>
    cases found : item.members? with
    | none =>
      rw [bind_of_error (popStruct_of_none found)] at done
      cases done
    | some members =>
      rw [bind_of_ok (popStruct_of_some found)] at done
      cases done
      exact ⟨item, rest, members, rfl, found, rfl⟩

theorem run_getOutput_of_members (stack : builder.stack = item :: rest)
    (found : item.members? = some members) (picked : members.reverse[index]? = some part) :
    run (.getOutput index) builder = .ok () { builder with stack := part :: rest } := by
  rw [run, getOutput]
  obtain ⟨_, _, items, _, _, _, _⟩ := builder
  obtain rfl : items = item :: rest := stack
  rw [bind_of_ok (popStruct_of_some found), picked]
  rfl

theorem callBuiltin_eq_ok (wellFormed : recipe.WellFormed) (anchored : builder.Anchored)
    (done : run (.callBuiltin recipe) builder = .ok () after) :
    recipe.inputs.length ≤ builder.stack.length ∧ after = builder.installed recipe id := by
  rw [run] at done
  by_cases enough : recipe.inputs.length ≤ builder.stack.length
  · rw [callBuiltin_of_le wellFormed anchored enough] at done
    cases done
    exact ⟨enough, rfl⟩
  · obtain ⟨_, failed⟩ := callBuiltin_of_lt wellFormed anchored (Nat.lt_of_not_le enough)
    rw [failed] at done
    cases done

theorem part_installed (anchored : evaluated.Anchored) (noStruct : value.info.stack ≠ .struct)
    (stack : evaluated.stack = item :: rest) (final : Builder)
    (sameForest : final.forest = (evaluated.installed separateXYZ id).forest)
    (inRange : index < 3) :
    Part value evaluated final index
      (.socket ⟨evaluated.tree, evaluated.nextNode.index, .output, index⟩) := by
  have argument : evaluated.arguments separateXYZ = [(0, item)] := by
    rw [arguments, stack]
    rfl
  have top : evaluated.stack.head? = some item := by
    rw [stack]
    rfl
  refine .component noStruct inRange top ?_ ?_
  · rw [sameForest, node?_nextNode_installed anchored, argument]
    rfl
  · have inside : evaluated.tree < evaluated.forest.length := anchored
    rw [sameForest, installed, argument]
    simp [Forest.linksOf, put, inside, NodeTree.grown, linksInto, nextNode, current]

section Running

theorem evaluated_alone (made : value.WellMade ready)
    (compiled : compileExpr kind value state = .ok (code, last)) (sound : builder.Sound)
    (empty : builder.stack = []) (ran : runAll code builder = .ok () evaluated) :
    evaluated.Sound ∧ evaluated.stack.length ≤ 1 := by
  have agrees := follows_expr kind value made compiled builder sound
  rw [ran] at agrees
  generalize sketched : value.sketch builder.profile = sketch at agrees
  cases agrees with
  | done soundAfter same =>
    have bound := made.length_sketch sketched
    rw [← same] at bound
    refine ⟨soundAfter, ?_⟩
    simpa [profile, empty] using bound

theorem parts_of_assign (several : 1 < vars.length) (made : value.WellMade ready)
    (noConstant : ∀ info held, value ≠ .const info held)
    (compiled : compileStmt kind (.assign vars value) state = .ok (operations, last))
    (sound : builder.Sound) (empty : builder.stack = [])
    (ran : runAll operations builder = .ok () final) :
    ∃ code evaluated parts, compileExpr kind value state = .ok (code, last) ∧
      runAll code builder = .ok () evaluated ∧
      (vars.map (·.map (·.id))).reduceOption.length ≤ parts.length ∧
      final.vars = boundInTurn evaluated.vars (vars.map (·.map (·.id))).reduceOption parts ∧
      ∀ index item, parts[index]? = some item → Part value evaluated final index item := by
  obtain ⟨code, _, coded, divided, rfl⟩ := compileStmt_assign_eq_ok noConstant compiled
  rw [splitFor, if_pos several] at divided
  obtain ⟨_, ranBefore, cleared⟩ := runAll_append_eq_ok ran
  obtain ⟨_, ranApart, binding⟩ := runAll_append_eq_ok ranBefore
  obtain ⟨evaluated, ranCode, splitting⟩ := runAll_append_eq_ok ranApart
  obtain ⟨soundAfter, alone⟩ := evaluated_alone made coded sound empty ranCode
  rw [bindVars_eq_map] at binding
  obtain ⟨enough, rfl⟩ := runAll_createVars_eq_ok binding
  cases cleared
  have isSplit := splitValue_eq_ok divided
  by_cases isStruct : value.info.stack = .struct
  · rw [isSplit, if_pos isStruct, runAll_singleton] at splitting
    obtain ⟨item, rest, members, stack, found, rfl⟩ := splitStruct_eq_ok splitting
    obtain rfl : rest = [] := by
      rw [stack] at alone
      exact length_eq_zero_iff.1 (le_zero.1 (le_of_succ_le_succ alone))
    rw [append_nil] at enough
    refine ⟨code, evaluated, members.reverse, coded, ranCode, enough, ?_, ?_⟩
    · rw [append_nil]
    · intro index part picked
      exact .output isStruct (run_getOutput_of_members stack found picked) rfl
  · rw [isSplit, if_neg isStruct] at splitting
    obtain ⟨_, _, separating, opening⟩ := bind_eq_ok splitting
    obtain ⟨needed, rfl⟩ := callBuiltin_eq_ok wellFormed_separateXYZ soundAfter.anchored separating
    rw [runAll_singleton] at opening
    obtain ⟨item, rest, members, stack, found, rfl⟩ := splitStruct_eq_ok opening
    obtain ⟨_, alone⟩ := length_eq_one_iff.1 (Nat.le_antisymm alone needed)
    have separatedStack : (evaluated.installed separateXYZ id).stack =
        outputItems evaluated.nextNode [0, 1, 2] := by
      rw [installed, alone]
      rfl
    rw [separatedStack] at stack
    obtain ⟨rfl, rfl⟩ := List.cons.inj stack
    cases found
    refine ⟨code, evaluated, (List.range 3).map fun index =>
      .socket ⟨evaluated.tree, evaluated.nextNode.index, .output, index⟩, coded, ranCode, enough,
      rfl, ?_⟩
    intro index part picked
    rw [getElem?_map, map_eq_some_iff] at picked
    obtain ⟨_, at_, rfl⟩ := picked
    obtain ⟨inRange, isIndex⟩ := List.getElem?_eq_some_iff.1 at_
    rw [getElem_range] at isIndex
    subst isIndex
    refine part_installed soundAfter.anchored isStruct alone _ ?_ inRange
    rfl

theorem first_of_assign_const (format : TypedExpr.HasFormat (.const info held))
    (compiled : compileStmt kind (.assign (first :: others) (.const info held)) state =
      .ok (operations, last)) (sound : builder.Sound)
    (ran : runAll operations builder = .ok () final) :
    final.vars = match first with
      | some target => Table.insert target.id
          (.socket ⟨builder.tree, builder.nextNode.index, .output, 0⟩) builder.vars
      | none => builder.vars := by
  cases first with
  | none =>
    rw [compileStmt] at compiled
    · cases compiled
      cases ran
      rfl
    · exact nofun
  | some target =>
    obtain ⟨node, found, rfl⟩ := compileStmt_assign_const_eq_ok compiled
    obtain ⟨_, ranBefore, cleared⟩ := runAll_append_eq_ok ran
    obtain ⟨_, making, binding⟩ := runAll_append_eq_ok ranBefore
    obtain ⟨wellFormed, outputs⟩ := InputNode.wellFormed found
    have complete := InputNode.complete found (format_of_hasFormat format)
    have enough : node.recipe.inputs.length ≤ node.args.length + builder.stack.length :=
      complete ▸ le_add_right _ _
    rw [runAll_inputNode target.id wellFormed outputs sound.anchored enough] at making
    cases making
    rw [runAll_singleton] at binding
    obtain ⟨_, _, stack, rfl⟩ := createVar_eq_ok binding
    cases cleared
    rw [installed, outputs] at stack
    obtain ⟨rfl, rfl⟩ := List.cons.inj stack
    rfl

end Running

end Builder

/-! ## The targets of accepted assignments -/

theorem TypedStmt.settle_of_several (several : 1 < vars.length) (value : TypedExpr)
    (slots : SlotTable) :
    (TypedStmt.assign vars value).settle slots =
      .assign (vars.map (·.map (·.settle slots))) (value.settle slots) := by
  rw [TypedStmt.settle]
  rintro target rfl
  exact Nat.lt_irrefl 1 several

/--
An accepted assignment to several targets, run without a fault.  If its value is a constant, the
first target alone is bound.  Otherwise every named target is bound to the part of the value whose
number is the count of the named targets before it, which is its position exactly if all of these
are named.
-/
theorem targets_bound_in_turn [Evaluator] (kind : TreeKind) {checker after : Checker}
    {recorded : List TypedStmt} (reached : checker.Reached recorded) {token : Token}
    {targets : List (Option Target)} {value : Expr}
    {stmt : TypedStmt} (several : 1 < targets.length)
    (checked : Checker.checkAssign token targets value checker = .ok stmt after)
    (slots : SlotTable) {state last : Option (List Binding)} {operations : List Operation}
    (compiled : compileStmt kind (stmt.settle slots) state = .ok (operations, last))
    {builder final : Builder} (sound : builder.Sound) (empty : builder.stack = [])
    (ran : Builder.runAll operations builder = .ok () final) :
    ∃ vars typed, stmt.settle slots = .assign vars typed ∧
      ((∃ info held, typed = .const info held) →
        (∀ target, targets[0]? = some (some target) → final.vars = Table.insert target.id
          (.socket ⟨builder.tree, builder.nextNode.index, .output, 0⟩) builder.vars) ∧
        (targets[0]? = some none → final.vars = builder.vars)) ∧
      ((∀ info held, typed ≠ .const info held) →
        ∃ code evaluated, compileExpr kind typed state = .ok (code, last) ∧
          Builder.runAll code builder = .ok () evaluated ∧
          (∀ place target, targets[place]? = some (some target) →
            (∀ later other, place < later → targets[later]? = some (some other) →
              other.id ≠ target.id) →
            ∃ item, final.vars.lookup target.id = some item ∧
              Builder.Part typed evaluated final
                ((targets.take place).countP isSome) item) ∧
          (∀ name, (∀ target, some target ∈ targets → target.id ≠ name) →
            final.vars.lookup name = evaluated.vars.lookup name)) := by
  have stmtMade := (Checker.derives_checkAssign checked).1.made reached.wellMade
    (show slots.Covers False _ from nofun)
  rcases Checker.derives_checkAssign checked with
    ⟨derived, expr, _, _, ⟨vars, rfl, sameIds, _⟩ | ⟨rfl, _⟩⟩
  · have sameLength : vars.length = targets.length := by
      simpa using congrArg List.length sameIds
    rw [← sameLength] at several
    have settled := TypedStmt.settle_of_several several expr slots
    rw [← map_id_settle slots vars] at sameIds
    rw [settled] at compiled stmtMade
    have several' : 1 < (vars.map (·.map (·.settle slots))).length := by
      rw [List.length_map]
      exact several
    refine ⟨_, _, settled, ?_, ?_⟩
    · rintro ⟨info, held, isConstant⟩
      rw [isConstant] at compiled stmtMade
      generalize vars.map (·.map (·.settle slots)) = vars at sameIds compiled stmtMade several'
      cases vars with
      | nil => cases several'
      | cons first others =>
        have bound := Builder.first_of_assign_const stmtMade.2.1 compiled sound ran
        have firstId := congrArg List.head? sameIds
        rw [List.map_cons, List.head?_cons, List.head?_map, List.head?_eq_getElem?] at firstId
        constructor
        · intro target named
          rw [named] at firstId
          cases first with
          | none => cases firstId
          | some var =>
            have sameId : var.id = target.id := by simpa using firstId
            rw [← sameId]
            exact bound
        · intro unnamed
          rw [unnamed] at firstId
          cases first with
          | none => exact bound
          | some var => cases firstId
    · intro noConstant
      rcases Builder.parts_of_assign several' stmtMade.1 noConstant compiled sound empty ran with
        ⟨code, evaluated, parts, coded, ranCode, enough, bound, isPart⟩
      rw [sameIds] at enough bound
      refine ⟨code, evaluated, coded, ranCode, ?_, ?_⟩
      · intro place target found isLast
        have foundId : (targets.map (·.map (·.id)))[place]? = some (some target.id) := by
          rw [List.getElem?_map, found]
          rfl
        have isLastId : ∀ later, place < later →
            (targets.map (·.map (·.id)))[later]? ≠ some (some target.id) := by
          intro later isLater sameId
          rw [List.getElem?_map, map_eq_some_iff] at sameId
          rcases sameId with ⟨_ | other, at_, sameId⟩
          · cases sameId
          · exact isLast later other isLater at_ (Option.some.inj sameId)
        rcases Builder.lookup_boundInTurn foundId isLastId evaluated.vars enough with
          ⟨lookup, inRange⟩
        rw [← bound] at lookup
        rw [← List.map_take, List.countP_map] at lookup inRange
        have sameCount : (targets.take place).countP (isSome ∘ (·.map (·.id))) =
            (targets.take place).countP isSome := by
          refine List.countP_congr fun target _ => ?_
          cases target <;> rfl
        rw [sameCount] at lookup inRange
        have isItem := List.getElem?_eq_getElem inRange
        exact ⟨_, lookup.trans isItem, isPart _ _ isItem⟩
      · intro name unassigned
        rw [bound]
        refine Builder.lookup_boundInTurn_of_not_mem ?_ _ _
        intro member
        rw [List.reduceOption_map, List.mem_map] at member
        rcases member with ⟨target, listed, sameId⟩
        exact unassigned target (List.reduceOption_mem_iff.1 listed) sameId
  · cases several
    contradiction

/-- The only statement of a formula, if that is an assignment. -/
def assignmentOf [Evaluator] (source : String) : Option (Token × List (Option Target) × Expr) :=
  match parse source with
  | .ok ⟨[.assign token targets value], []⟩ => some (token, targets, value)
  | _ => none

def assignsConstant : TypedStmt → Bool
  | .assign _ (.const _ _) => true
  | _ => false

/-- The assignment `x, _, z = position();` binds `z` to the second component. -/
theorem targets_bound_in_turn_skipping :
    ∃ token targets value stmt after operations last final,
      assignmentOf "x, _, z = position();" = some (token, targets, value) ∧
      targets.map (·.map (·.id)) = [some "x", none, some "z"] ∧
      Checker.checkAssign token targets value (.new .geometry []) = .ok stmt after ∧
      compileStmt .geometry (stmt.settle after.slots) none = .ok (operations, last) ∧
      Builder.runAll operations (.new [.empty "T" TreeKind.geometry.label]) = .ok () final ∧
      ∃ vars typed evaluated item, stmt.settle after.slots = .assign vars typed ∧
        final.vars.lookup "z" = some item ∧ Builder.Part typed evaluated final 1 item := by
  obtain ⟨⟨token, targets, value⟩, read, stmt, after, checked, ⟨operations, last⟩, compiled, final,
      ran, named, divided⟩ : ∃ parts, assignmentOf "x, _, z = position();" = some parts ∧
    ∃ stmt after, Checker.checkAssign parts.1 parts.2.1 parts.2.2 (.new .geometry []) =
      .ok stmt after ∧
    ∃ made, compileStmt .geometry (stmt.settle after.slots) none = .ok made ∧
    ∃ final, Builder.runAll made.1 (.new [.empty "T" TreeKind.geometry.label]) = .ok () final ∧
      parts.2.1.map (·.map (·.id)) = [some "x", none, some "z"] ∧
      assignsConstant (stmt.settle after.slots) = false := by decide +kernel
  refine ⟨token, targets, value, stmt, after, operations, last, final, read, named, checked,
    compiled, ran, ?_⟩
  rcases targets with _ | ⟨_ | first, _ | ⟨_ | second, _ | ⟨_ | third, _ | ⟨_, _⟩⟩⟩⟩ <;>
    simp only [List.map_nil, List.map_cons, map_none, map_some, List.cons.injEq,
      Option.some.injEq, reduceCtorEq, false_and, and_false, and_true, true_and] at named
  rcases targets_bound_in_turn .geometry (.start .geometry .none) (by simp) checked after.slots
    compiled (Builder.sound_new _ _) rfl ran with ⟨vars, typed, settled, _, others⟩
  have isDivided : ∀ info held, typed ≠ .const info held := by
    rintro info held rfl
    rw [settled] at divided
    cases divided
  rcases others isDivided with ⟨code, evaluated, _, _, bound, _⟩
  rcases bound 2 third rfl (by
    intro later other isLater found
    rw [List.getElem?_eq_none (succ_le_of_lt isLater)] at found
    cases found) with ⟨item, lookup, isPart⟩
  rw [named.2] at lookup
  exact ⟨vars, typed, evaluated, item, settled, lookup, isPart⟩

theorem skipped_target_shifts :
    ∃ after outcome final, compile .geometry [] "x, _, z = position();" =
        (after, .ok outcome) ∧ outcome.accepted = true ∧
      Builder.runAll outcome.operations (.new [.empty "T" TreeKind.geometry.label]) =
        .ok () final ∧
      (final.forest.node? ⟨0, 1⟩).map (·.key) = some "ShaderNodeSeparateXYZ" ∧
      final.vars.lookup "z" = some (.socket ⟨0, 1, .output, 1⟩) := by
  simp only [exists_and_left]
  decide +kernel

end NodeFormula
