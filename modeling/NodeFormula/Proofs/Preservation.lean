import NodeFormula.Calculation.Function
import NodeFormula.Proofs.Meaning

/-!
# Building shows what formulas mean

Running the code of an expression adds nodes, leaves the rest of the tree and of the stack alone,
and leaves items that unfold to the faded meaning of the expression.  The variables of the builder
unfold to those of the formula all along.
-/

namespace NodeFormula

open List Compiler TypedStmt Feed TreeKind Operation

variable {builder after : Builder} {recipe : NodeRecipe} {meaning : Meaning} {kind : TreeKind}
  {scope : Scope}

/-! ## Feeding shown meanings -/

theorem Feed.carriedBy_feed (forest : Forest) (value : Value) :
    value.feed.CarriedBy forest (.value value) := by
  cases value with
  | blank => rfl
  | _ => exact ⟨rfl, rfl⟩

theorem NodeRecipe.feedAt_faded (recipe : NodeRecipe) (feeds : List Feed) (input : Nat) :
    (recipe.feedAt feeds input).faded = recipe.feedAt (feeds.map faded) input := by
  rw [feedAt, feedAt, getElem?_map]
  cases feeds[recipe.inputs.idxOf input]? <;> rfl

theorem NodeRecipe.term_faded (recipe : NodeRecipe) (feeds : List Feed) (index : Nat) :
    (recipe.term feeds index).faded = recipe.term (feeds.map faded) index := by
  have inputs : (fun input => (recipe.feedAt feeds input).faded) =
      recipe.feedAt (feeds.map faded) := by
    funext input
    exact recipe.feedAt_faded feeds input
  rw [term, Term.faded, inputs]
  rfl

theorem NodeRecipe.meaning_faded (recipe : NodeRecipe) (feeds : List Feed) :
    (recipe.meaning feeds).faded = recipe.meaning (feeds.map faded) := by
  rw [meaning, meaning]
  rcases recipe.outputs with _ | ⟨first, _ | ⟨second, others⟩⟩
  · rfl
  · exact congrArg Meaning.socket (recipe.term_faded feeds first)
  · simp only [Meaning.faded, map_map]
    rw [recipe.term_faded]
    congr 1
    apply map_congr_left
    intro index _
    exact recipe.term_faded feeds index

theorem NodeRecipe.meaning_pad (recipe : NodeRecipe) (feeds : List Feed) (count : Nat) :
    recipe.meaning (feeds ++ replicate count untouched) = recipe.meaning feeds := by
  have sameFeeds : recipe.feedAt (feeds ++ replicate count untouched) =
      recipe.feedAt feeds := by
    funext input
    rw [feedAt, feedAt, getElem?_append]
    split
    · rfl
    · rename_i outside
      rw [getElem?_eq_none (Nat.le_of_not_lt outside), getElem?_replicate]
      split <;> rfl
  have sameTerms : recipe.term (feeds ++ replicate count untouched) = recipe.term feeds := by
    funext index
    rw [term, term, sameFeeds]
  rw [meaning, meaning, sameTerms]

theorem NodeRecipe.meaning_stack (recipe : NodeRecipe) (feeds : List Feed) :
    (recipe.meaning feeds).stack = recipe.stack := by
  rw [meaning, stack]
  rcases recipe.outputs with _ | ⟨first, _ | ⟨second, others⟩⟩ <;> rfl

namespace Builder

/-- One builder came from another by adding nodes to the same tree. -/
structure Advances (before after : Builder) : Prop where
  keeps : before.forest.Keeps after.forest
  anchored : before.Anchored → after.Anchored
  tidy : before.Anchored → before.Tidy → after.Tidy

namespace Advances

theorem refl (builder : Builder) : builder.Advances builder :=
  ⟨.refl _, id, fun _ => id⟩

theorem trans {first second third : Builder} (early : first.Advances second)
    (late : second.Advances third) : first.Advances third :=
  ⟨early.keeps.trans late.keeps, late.anchored ∘ early.anchored,
    fun anchored tidy => late.tidy (early.anchored anchored) (early.tidy anchored tidy)⟩

end Advances

theorem advances_pushed (builder : Builder) (items : List Item) :
    builder.Advances (builder.pushed items) :=
  ⟨.refl _, id, fun _ => id⟩

theorem advances_installed (anchored : builder.Anchored) (recipe : NodeRecipe)
    (finish : Node → Node) : builder.Advances (builder.installed recipe finish) :=
  ⟨keeps_installed anchored, anchored_installed, tidy_installed⟩

section Nodes

theorem shownBy_installed (wellFormed : recipe.WellFormed) (anchored : builder.Anchored)
    (tidy : builder.Tidy) (count : items.length = recipe.inputs.length)
    (stack : builder.stack = items.reverse ++ rest)
    (carried : List.Forall₂ (Feed.CarriedBy builder.forest) feeds items) :
    (recipe.meaning feeds).ShownBy (builder.installed recipe id).forest
      (outputItems builder.nextNode recipe.outputs) := by
  have enough : recipe.inputs.length ≤ builder.stack.length := by
    rw [stack, length_append, length_reverse, count]
    exact Nat.le_add_right _ _
  have arguments : (builder.stack.take recipe.inputs.length).reverse = items := by
    rw [stack, ← count, ← length_reverse, take_left, reverse_reverse]
  have shown (index : Nat) : (recipe.term feeds index).ShownAt (builder.installed recipe id).forest
      ⟨builder.tree, builder.current.nodes.length, .output, index⟩ := by
    apply shownAt_installed wellFormed anchored tidy enough ⟨fun _ => rfl, fun _ => rfl,
      fun _ => rfl, fun _ => rfl⟩
    · rw [arguments]
      exact carried
    · simp only [fedAll_outputs]
      exact socketDefault_bare builder.current .output index
  rw [NodeRecipe.meaning]
  rcases recipe.outputs with _ | ⟨first, _ | ⟨second, others⟩⟩
  · rfl
  · exact ⟨_, rfl, shown first⟩
  · refine ⟨_, rfl, ?_⟩
    rw [map_reverse, reverse_reverse, ← map_cons, forall₂_map_left_iff,
      forall₂_map_right_iff, forall₂_same]
    intro index _
    exact shown index

end Nodes

/-! ## Input nodes -/

theorem finish_held (name : String) (node : InputNode) (exists_ : 0 < made.outputs.length)
    (unset : ((made.outputs[0]?).map Socket.default).getD Item.absent = Item.absent) :
    ((((node.finish name) made).outputs[0]?).map Socket.default).getD Item.absent =
      Item.ofOption (node.held.filter (·.isNonzero)) := by
  unfold InputNode.finish
  cases node.held.filter (·.isNonzero) with
  | none => exact unset
  | some => simp [Node.setOutput, exists_, Item.ofOption]

theorem term_faded_inputNode (node : InputNode) :
    node.term.faded = .output node.recipe.key node.recipe.props
      (node.recipe.feedAt (node.args.map fun arg => (arg.map Value.feed).getD .untouched))
      (node.held.filter (·.isNonzero)) 0 := by
  have constant : (node.args.map fun arg => (arg.map Value.feed).getD .untouched).map faded =
      node.args.map fun arg => (arg.map Value.feed).getD .untouched := by
    rw [map_map]
    apply map_congr_left
    intro arg _
    cases arg with
    | none => rfl
    | some value => cases value <;> rfl
  have inputs := funext (node.recipe.feedAt_faded
    (node.args.map fun arg => (arg.map Value.feed).getD .untouched))
  rw [InputNode.term, Term.faded, inputs, constant]

theorem runs_inputNode {value} (name : String)
    (found : kind.inputNode? value type = some node)
    (complete : node.args.length = node.recipe.inputs.length) (anchored : builder.Anchored)
    (tidy : builder.Tidy) :
    ∃ after socket, runAll (node.operations name) builder = .ok () after ∧
      builder.Advances after ∧ after.stack = .socket socket :: builder.stack ∧
      after.vars = builder.vars ∧ node.term.faded.ShownAt after.forest socket := by
  obtain ⟨wellFormed, outputs⟩ := InputNode.wellFormed found
  have enough : node.recipe.inputs.length ≤ node.args.length + builder.stack.length := by
    rw [complete]
    exact Nat.le_add_right _ _
  have anchoredPushed : (builder.pushed (node.args.map .ofOption)).Anchored := anchored
  have tidyPushed : (builder.pushed (node.args.map .ofOption)).Tidy := tidy
  have count : (node.args.map Item.ofOption).reverse.length = node.recipe.inputs.length := by
    rw [length_reverse, length_map, complete]
  refine ⟨_, ⟨builder.tree, builder.current.nodes.length, .output, 0⟩,
    runAll_inputNode name wellFormed outputs anchored enough,
    (advances_pushed builder _).trans
      (advances_installed anchoredPushed node.recipe (node.finish name)), ?_, rfl, ?_⟩
  · simp only [installed, outputs, pushed]
    rw [← count, drop_left]
    rfl
  · rw [term_faded_inputNode]
    apply shownAt_installed wellFormed anchoredPushed tidyPushed _ (finish_cosmetic name node)
    · simp only [pushed]
      rw [← count, take_left, reverse_reverse, forall₂_map_left_iff,
        forall₂_map_right_iff, forall₂_same]
      intro arg _
      cases arg with
      | none => rfl
      | some value => exact carriedBy_feed _ value
    · apply finish_held
      · rw [fedAll_outputs, (length_sockets_bare wellFormed _).2]
        apply wellFormed.outputs_lt
        rw [outputs]
        exact mem_cons_self
      · rw [fedAll_outputs]
        exact socketDefault_bare _ .output 0
    · simpa [pushed] using enough

/-! ## Steps on the stack and the variables -/

theorem run_createVar (stack : builder.stack = item :: rest)
    (isKept : (∃ socket, item = .socket socket) ∨ ∃ sockets, item = .struct sockets) :
    run (.createVar name) builder =
      .ok () { builder with stack := rest, vars := Table.insert name item builder.vars } := by
  rw [run, createVar]
  rw [bind_of_ok (pop_of_stack stack)]
  rcases isKept with ⟨socket, rfl⟩ | ⟨sockets, rfl⟩ <;> rfl

theorem run_getVar (found : builder.vars.lookup name = some item) :
    run (.getVar name) builder = .ok () { builder with stack := item :: builder.stack } := by
  rw [run, bind_get]
  simp only [found]
  rfl

theorem run_getOutput (stack : builder.stack = .struct sockets :: rest)
    (found : sockets.reverse[index]? = some socket) :
    run (.getOutput index) builder = .ok () { builder with stack := .socket socket :: rest } := by
  have popped : popStruct builder = .ok (sockets.map .socket) { builder with stack := rest } := by
    rw [popStruct, bind_of_ok (pop_of_stack stack)]
    rfl
  rw [run, getOutput, bind_of_ok popped]
  have member : (sockets.map Item.socket).reverse[index]? = some (.socket socket) := by
    rw [← map_reverse, getElem?_map, found, Option.map_some]
  simp only [member]
  rfl

end Builder

/-! ## Expressions -/

def Scope.Describes (scope : Scope) (bound : List (String × Meaning)) : Prop :=
  ∀ name, scope name = (bound.lookup name).map Meaning.stack

theorem Scope.Describes.declare (describes : scope.Describes bound) (name : String)
    (meaning : Meaning) :
    (scope.declare name meaning.stack).Describes (Table.insert name meaning bound) := by
  intro other
  rw [Scope.declare, Table.lookup_insert]
  by_cases same : name = other
  · rw [if_pos same, if_pos same, Option.map_some]
  · rw [if_neg same, if_neg same, describes other]

namespace Builder

/-- The variables of the builder unfold to the variables of a formula. -/
structure Represents (builder : Builder) (bound : List (String × Meaning)) : Prop where
  anchored : builder.Anchored
  tidy : builder.Tidy
  vars : ∀ name meaning, bound.lookup name = some meaning →
    ∃ item, builder.vars.lookup name = some item ∧ meaning.faded.ShownBy builder.forest [item]

namespace Represents

theorem advance (represents : builder.Represents bound) (advances : builder.Advances after)
    (sameVars : after.vars = builder.vars) : after.Represents bound := by
  refine ⟨advances.anchored represents.anchored,
    advances.tidy represents.anchored represents.tidy, ?_⟩
  intro name meaning found
  obtain ⟨item, known, shown⟩ := represents.vars name meaning found
  exact ⟨item, sameVars ▸ known, shown.keeps advances.keeps⟩

theorem bind (represents : builder.Represents bound)
    (shown : meaning.faded.ShownBy builder.forest [item]) (stack : List Item) :
    Represents { builder with stack, vars := Table.insert name item builder.vars }
      (Table.insert name meaning bound) := by
  refine ⟨represents.anchored, represents.tidy, ?_⟩
  intro other found lookup
  simp only [Table.lookup_insert] at lookup ⊢
  by_cases same : name = other
  · rw [if_pos same] at lookup ⊢
    obtain rfl := Option.some.inj lookup
    exact ⟨item, rfl, shown⟩
  · rw [if_neg same] at lookup ⊢
    exact represents.vars other found lookup

end Represents

/-- Running some operations leaves items that show a meaning, and the variables of the formula. -/
structure Leaves (before : Builder) (operations : List Operation) (bound : List (String × Meaning))
    (meaning : Meaning) (after : Builder) (items : List Item) : Prop where
  run : runAll operations before = .ok () after
  advances : before.Advances after
  stack : after.stack = items ++ before.stack
  shown : meaning.faded.ShownBy after.forest items
  represents : after.Represents bound

theorem runs_firstSocket (stack : builder.stack = items ++ rest)
    (shown : meaning.faded.ShownBy builder.forest items) (shape : meaning.stack = arg.info.stack)
    (hasValue : arg.info.stack ≠ .empty) : ∃ item, runAll (firstSocket arg) builder =
        .ok () { builder with stack := item :: rest } ∧
      meaning.feed.faded.CarriedBy builder.forest item := by
  have same : { builder with stack := items ++ rest } = builder := by rw [← stack]
  rw [firstSocket, ← shape, ← Meaning.feed_faded]
  rw [← shape] at hasValue
  cases meaning with
  | nothing => exact absurd rfl hasValue
  | constant value =>
    obtain rfl : items = [.value value] := shown
    refine ⟨_, ?_, carriedBy_feed _ value⟩
    exact congrArg _ same.symm
  | socket =>
    obtain ⟨socket, rfl, termShown⟩ := shown
    refine ⟨_, ?_, socket, rfl, termShown⟩
    exact congrArg _ same.symm
  | struct =>
    obtain ⟨sockets, rfl, termsShown⟩ := shown
    cases reversed : sockets.reverse with
    | nil =>
      rw [reversed] at termsShown
      cases termsShown
    | cons socket =>
      rw [reversed] at termsShown
      cases termsShown with
      | cons firstShown =>
        refine ⟨.socket socket, ?_, socket, rfl, firstShown⟩
        rw [Meaning.stack, if_pos rfl, runAll_singleton]
        apply run_getOutput stack
        rw [reversed]
        rfl

theorem leaves_fresh (found : kind.inputNode? none type = some node)
    (represents : builder.Represents bound) :
    ∃ after items, builder.Leaves (node.operations name ++ [Operation.createVar name, .getVar name])
      (Table.insert name (.socket node.term) bound) (.socket node.term) after items := by
  obtain ⟨made, socket, ran, advances, stack, vars, shown⟩ :=
    runs_inputNode name found (InputNode.complete found nofun) represents.anchored represents.tidy
  have shownSocket : (Meaning.socket node.term).faded.ShownBy made.forest [.socket socket] :=
    ⟨socket, rfl, shown⟩
  have created : run (.createVar name) made = .ok () { made with
      stack := builder.stack
      vars := Table.insert name (.socket socket) made.vars } :=
    run_createVar stack (.inl ⟨socket, rfl⟩)
  have isKnown : (Table.insert name (Item.socket socket) made.vars).lookup name =
      some (.socket socket) := by
    rw [Table.lookup_insert, if_pos rfl]
  refine ⟨{ made with
    stack := .socket socket :: builder.stack
    vars := Table.insert name (.socket socket) made.vars }, [.socket socket], ?_,
    ⟨advances.keeps, advances.anchored, advances.tidy⟩, rfl, shownSocket,
    (represents.advance advances vars).bind shownSocket _⟩
  rw [runAll_append_of_ok ran, runAll_cons, bind_of_ok created, runAll_singleton]
  exact run_getVar isKnown

theorem leaves_call (wellFormed : recipe.WellFormed) (fits : items.length ≤ recipe.inputs.length)
    (ran : runAll pushes builder = .ok () middle) (advances : builder.Advances middle)
    (stack : middle.stack = items.reverse ++ builder.stack)
    (carried : List.Forall₂ (Feed.CarriedBy middle.forest) (feeds.map faded) items)
    (represents : middle.Represents bound) :
    ∃ after results, builder.Leaves (pushes ++
      (List.replicate (recipe.inputs.length - items.length) none).map .pushValue ++
      [Operation.callBuiltin recipe]) bound (recipe.meaning feeds) after results := by
  let omitted : List (Option Value) := List.replicate (recipe.inputs.length - items.length) none
  let ready := middle.pushed (omitted.map .ofOption)
  have anchored : ready.Anchored := represents.anchored
  have tidy : ready.Tidy := represents.tidy
  have absent : omitted.map Item.ofOption =
      List.replicate (recipe.inputs.length - items.length) .absent := by
    rw [map_replicate]
    rfl
  have count : (items ++ omitted.map Item.ofOption).length = recipe.inputs.length := by
    rw [absent, length_append, length_replicate]
    omega
  have readyStack : ready.stack = (items ++ omitted.map Item.ofOption).reverse ++
      builder.stack := by
    show (omitted.map .ofOption).reverse ++ middle.stack = _
    rw [stack, reverse_append, append_assoc]
  have enough : recipe.inputs.length ≤ ready.stack.length := by
    rw [readyStack, length_append, length_reverse, count]
    exact Nat.le_add_right _ _
  -- Arguments that are left out leave their inputs untouched, with or without being named.
  have padded : List.Forall₂ (Feed.CarriedBy ready.forest)
      (feeds.map faded ++ .replicate (recipe.inputs.length - items.length) untouched)
      (items ++ omitted.map .ofOption) := by
    rw [absent]
    refine rel_append carried ?_
    generalize recipe.inputs.length - items.length = missing
    induction missing with
    | zero => exact .nil
    | succ _ ih => exact .cons rfl ih
  have shown : (recipe.meaning feeds).faded.ShownBy (ready.installed recipe id).forest
      (outputItems ready.nextNode recipe.outputs) := by
    rw [recipe.meaning_faded, ← recipe.meaning_pad _ (recipe.inputs.length - items.length)]
    exact shownBy_installed wellFormed anchored tidy count readyStack padded
  have called : run (.callBuiltin recipe) ready = .ok () (ready.installed recipe id) := by
    exact callBuiltin_of_le wellFormed anchored enough
  have readyAdvances : builder.Advances ready := advances.trans (advances_pushed _ _)
  refine ⟨ready.installed recipe id, outputItems ready.nextNode recipe.outputs, ?_,
    readyAdvances.trans (advances_installed anchored recipe id), ?_, shown, ?_⟩
  · rw [append_assoc, runAll_append_of_ok ran,
      runAll_append_of_ok (runAll_pushValues middle omitted), runAll_singleton, called]
  · show outputItems ready.nextNode recipe.outputs ++ ready.stack.drop recipe.inputs.length = _
    rw [readyStack, ← count, ← length_reverse, drop_left]
  · exact represents.advance
      ((advances_pushed _ _).trans (advances_installed anchored recipe id)) rfl

mutual

theorem leaves_expr (kind : TreeKind) : ∀ (expr : TypedExpr) {scope scope' : Scope}
    {bound : List (String × Meaning)} {builder : Builder} {state state' : Option (List Binding)}
    {operations : List Operation}, expr.Scoped scope scope' → scope.Describes bound →
    builder.Represents bound → compileExpr kind expr state = .ok (operations, state') →
    ∃ after items, builder.Leaves operations (expr.meaning kind bound).1
        (expr.meaning kind bound).2 after items ∧
      scope'.Describes (expr.meaning kind bound).1 ∧
      (expr.meaning kind bound).2.stack = expr.info.stack
  | .const info value, scope, scope', bound, builder, state, state', operations, inScope,
      describes, represents, compiled => by
      obtain ⟨isValue, rfl⟩ := inScope
      cases compiled
      have ran := runAll_pushValues builder [some value]
      exact ⟨_, [.value value], ⟨ran, advances_pushed _ _, rfl, rfl,
        represents.advance (advances_pushed _ _) rfl⟩, describes, isValue.symm⟩
  | .var reference, scope, scope', bound, builder, state, state', operations, inScope,
      describes, represents, compiled => by
      rw [TypedExpr.Scoped] at inScope
      rw [TypedExpr.meaning]
      rcases compileExpr_var_eq_ok compiled with
        ⟨fresh, _, node, found, rfl⟩ | ⟨known, _, rfl⟩
      · rw [if_pos fresh] at inScope
        obtain ⟨shape, rfl⟩ := inScope
        have input : kind.inputMeaning none reference.info.firstType = .socket node.term := by
          rw [inputMeaning, found]
        obtain ⟨after, items, leaves⟩ := leaves_fresh found represents
        rw [if_pos fresh, input]
        exact ⟨after, items, leaves, describes.declare reference.id (.socket node.term),
          shape.symm⟩
      · rw [if_neg (by rw [known]; exact Bool.false_ne_true)] at inScope ⊢
        obtain ⟨_, inScope, rfl⟩ := inScope
        rw [describes reference.id] at inScope
        obtain ⟨_, isBound, shape⟩ := Option.map_eq_some_iff.mp inScope
        obtain ⟨item, isKnown, shown⟩ := represents.vars _ _ isBound
        rw [isBound]
        refine ⟨_, [item], ⟨?_, advances_pushed builder [item], rfl, shown,
          represents.advance (advances_pushed builder [item]) rfl⟩, describes, shape⟩
        rw [runAll_singleton]
        exact run_getVar isKnown
  | .nodeCall info recipe args, scope, scope', bound, builder, state, state', operations, inScope,
      describes, represents, compiled => by
      obtain ⟨wellFormed, fits, shape, haveValues, argsScoped⟩ := inScope
      obtain ⟨_, argsCompiled, rfl⟩ := compileExpr_nodeCall_eq_ok compiled
      obtain ⟨_, _, ran, advances, stack, count, carried, representsMiddle, described⟩ :=
        leaves_args kind args argsScoped haveValues describes represents argsCompiled
      rw [← count] at fits
      obtain ⟨after, results, leaves⟩ :=
        leaves_call wellFormed fits ran advances stack carried representsMiddle
      rw [← count]
      exact ⟨after, results, leaves, described, (recipe.meaning_stack _).trans shape.symm⟩
  | .functionCall _ _ _, scope, scope', bound, builder, state, state', operations, inScope,
      _, _, _ => by
      exact inScope.elim
  | .output _ _ _, scope, scope', bound, builder, state, state', operations, inScope,
      _, _, _ => by
      exact inScope.elim

theorem leaves_args (kind : TreeKind) : ∀ (args : List TypedExpr) {scope scope' : Scope}
    {bound : List (String × Meaning)} {builder : Builder} {state state' : Option (List Binding)}
    {operations : List Operation}, TypedExpr.ScopedAll args scope scope' →
    (∀ arg ∈ args, arg.info.stack ≠ .empty) → scope.Describes bound →
    builder.Represents bound → compileArgs kind args state = .ok (operations, state') →
    ∃ after items, runAll operations builder = .ok () after ∧ builder.Advances after ∧
      after.stack = items.reverse ++ builder.stack ∧ items.length = args.length ∧
      List.Forall₂ (Feed.CarriedBy after.forest)
        ((TypedExpr.feeds kind bound args).2.map faded) items ∧
      after.Represents (TypedExpr.feeds kind bound args).1 ∧
      scope'.Describes (TypedExpr.feeds kind bound args).1
  | [], scope, scope', bound, builder, state, state', operations, inScope, _, describes,
      represents, compiled => by
      cases compiled
      rw [inScope]
      exact ⟨builder, [], rfl, .refl _, rfl, rfl, .nil, represents, describes⟩
  | arg :: args, scope, scope', bound, builder, state, state', operations, inScope, haveValues,
      describes, represents, compiled => by
      obtain ⟨_, headScoped, tailScoped⟩ := inScope
      obtain ⟨_, _, _, headCompiled, tailCompiled, rfl⟩ :=
        compileArgs_cons_eq_ok compiled
      obtain ⟨first, _, leaves, described, shape⟩ :=
        leaves_expr kind arg headScoped describes represents headCompiled
      obtain ⟨item, picked, carries⟩ := runs_firstSocket leaves.stack leaves.shown shape
        (haveValues arg mem_cons_self)
      have picking : first.Advances { first with stack := item :: builder.stack } :=
        ⟨.refl _, id, fun _ => id⟩
      obtain ⟨after, items, ran, advances, stack, count, carried, representsAfter,
        describedAfter⟩ :=
        leaves_args kind args tailScoped
          (fun other member => haveValues other (mem_cons_of_mem _ member)) described
          (leaves.represents.advance picking rfl) tailCompiled
      refine ⟨after, item :: items, ?_, (leaves.advances.trans picking).trans advances, ?_, ?_, ?_,
        representsAfter, describedAfter⟩
      · rw [append_assoc, runAll_append_of_ok leaves.run, runAll_append_of_ok picked, ran]
      · rw [stack]
        simp
      · rw [length_cons, length_cons, count]
      · exact .cons (carries.keeps advances.keeps) carried

end

/-! ## Statements -/

end Builder

/-- The items that a statement leaves, on the stack or in its variable. -/
def TypedStmt.valueIn (builder : Builder) : TypedStmt → List Item
  | .assign [some target] _ => (builder.vars.lookup target.id).toList
  | _ => builder.stack

namespace Builder

/-- A statement shows its meaning before its stack is cleared. -/
structure Shows (before : Builder) (code : List Operation) (kind : TreeKind)
    (bound : List (String × Meaning)) (stmt : TypedStmt) (after : Builder) : Prop where
  run : runAll code before = .ok () after
  advances : before.Advances after
  shown : (stmt.meaning kind bound).2.faded.ShownBy after.forest (stmt.valueIn after)
  represents : after.Represents (stmt.meaning kind bound).1

theorem shows_assign {value} (empty : builder.stack = [])
    (leaves : builder.Leaves code (assignedMeaning kind bound value).1
      (assignedMeaning kind bound value).2 after [item])
    (held : (∃ socket, item = .socket socket) ∨ ∃ sockets, item = .struct sockets) :
    builder.Shows (code ++ [Operation.createVar target.id]) kind bound (.assign [some target] value)
      { after with stack := [], vars := Table.insert target.id item after.vars } := by
  have stack : after.stack = [item] := by
    rw [leaves.stack, empty, append_nil]
  refine ⟨?_, ⟨leaves.advances.keeps, leaves.advances.anchored,
    leaves.advances.tidy⟩, ?_, leaves.represents.bind leaves.shown []⟩
  · rw [runAll_append_of_ok leaves.run, runAll_singleton]
    exact run_createVar stack held
  · rw [valueIn, Table.lookup_insert, if_pos rfl]
    exact leaves.shown

theorem held_of_shownBy {forest : Forest} (shown : meaning.ShownBy forest items)
    (hasValue : meaning.stack ≠ .empty) (noConstant : meaning.stack ≠ .value) :
    ∃ item, items = [item] ∧ ((∃ socket, item = .socket socket) ∨
      ∃ sockets, item = .struct sockets) := by
  cases meaning with
  | nothing => exact absurd rfl hasValue
  | constant => exact absurd rfl noConstant
  | socket =>
    obtain ⟨socket, rfl, _⟩ := shown
    exact ⟨_, rfl, .inl ⟨socket, rfl⟩⟩
  | struct =>
    obtain ⟨sockets, rfl, _⟩ := shown
    exact ⟨_, rfl, .inr ⟨sockets, rfl⟩⟩

theorem shows_constant (inScope : (TypedExpr.const info held).Scoped scope middle)
    (format : (TypedExpr.const info held).HasFormat) (describes : scope.Describes bound)
    (represents : builder.Represents bound) (empty : builder.stack = [])
    (compiled : compileStmt kind (.assign [some target] (.const info held)) state =
      .ok (operations, state')) : ∃ code after, operations = code ++ [endOfStatement] ∧
      builder.Shows code kind bound (.assign [some target] (.const info held)) after ∧
      (middle.declare target.id (TypedExpr.const info held).info.stack.kept).Describes
        (TypedStmt.meaning kind bound (.assign [some target] (.const info held))).1 := by
  obtain ⟨isValue, rfl⟩ := inScope
  obtain ⟨node, found, rfl⟩ := compileStmt_assign_const_eq_ok compiled
  obtain ⟨_, types, vector⟩ := format info held rfl
  have complete : node.args.length = node.recipe.inputs.length := by
    apply InputNode.complete found
    rintro _ same isVector
    obtain rfl := Option.some.inj same
    rw [TypeInfo.firstType, types] at isVector
    exact vector isVector
  obtain ⟨made, socket, ran, advances, stack, vars, shown⟩ :=
    runs_inputNode target.id found complete represents.anchored represents.tidy
  have assigned : assignedMeaning kind bound (.const info held) = (bound, .socket node.term) := by
    rw [assignedMeaning, inputMeaning, found]
  have leaves : builder.Leaves (node.operations target.id)
      (assignedMeaning kind bound (.const info held)).1
      (assignedMeaning kind bound (.const info held)).2 made [.socket socket] := by
    rw [assigned]
    exact ⟨ran, advances, stack, ⟨socket, rfl, shown⟩, represents.advance advances vars⟩
  refine ⟨_, _, rfl, shows_assign empty leaves (.inl ⟨socket, rfl⟩), ?_⟩
  rw [TypedStmt.meaning, assigned, TypedExpr.info, isValue]
  exact describes.declare target.id (.socket node.term)

theorem shows_stmt (inScope : stmt.Scoped scope scope') (describes : scope.Describes bound)
    (represents : builder.Represents bound) (empty : builder.stack = [])
    (compiled : compileStmt kind stmt state = .ok (operations, state')) :
    ∃ code after, operations = code ++ [endOfStatement] ∧
      builder.Shows code kind bound stmt after ∧
      scope'.Describes (stmt.meaning kind bound).1 := by
  match stmt with
  | .expr value =>
    obtain ⟨code, exprCompiled, rfl⟩ := compileStmt_expr_eq_ok compiled
    obtain ⟨after, items, leaves, described, _⟩ :=
      leaves_expr kind value inScope describes represents exprCompiled
    have stack : after.stack = items := by
      rw [leaves.stack, empty, append_nil]
    refine ⟨code, after, rfl, ⟨leaves.run, leaves.advances, ?_, leaves.represents⟩, described⟩
    rw [valueIn, stack]
    · exact leaves.shown
    · exact nofun
  | .assign [some target] value =>
    obtain ⟨hasValue, format, _, _, valueScoped, rfl⟩ := inScope
    by_cases isConstant : ∃ info held, value = .const info held
    · obtain ⟨_, _, rfl⟩ := isConstant
      exact shows_constant valueScoped format describes represents empty compiled
    · have noConstant : ∀ info held, value ≠ .const info held := by
        intro info held same
        exact isConstant ⟨info, held, same⟩
      obtain ⟨_, exprCompiled, rfl⟩ :=
        compileStmt_assign_single_eq_ok noConstant compiled
      obtain ⟨_, _, leaves, described, shape⟩ :=
        leaves_expr kind value valueScoped describes represents exprCompiled
      have assigned : assignedMeaning kind bound value = value.meaning kind bound := by
        rw [assignedMeaning]
        exact noConstant
      obtain ⟨_, rfl, held⟩ := held_of_shownBy leaves.shown
        (by rw [Meaning.stack_faded, shape]; exact hasValue)
        (by rw [Meaning.stack_faded, shape]; exact valueScoped.stack_ne_value noConstant)
      have kept : value.info.stack.kept = (value.meaning kind bound).2.stack :=
        (StackType.kept_eq_self hasValue (valueScoped.stack_ne_value noConstant)).trans
          shape.symm
      rw [← assigned] at leaves described kept
      refine ⟨_, _, rfl, shows_assign empty leaves held, ?_⟩
      rw [kept]
      exact described.declare target.id _

/--
Of some operations those of the statements before one have run, and its own up to where the stack is
cleared.
-/
def HasRun (start : Builder) (kind : TreeKind) (state : Option (List Binding))
    (operations : List Operation) (before : List TypedStmt) (stmt : TypedStmt)
    (reached : Builder) : Prop :=
  ∃ early code late between last, operations = early ++ (code ++ [endOfStatement]) ++ late ∧
    Compiler.compileStmts kind before state = .ok (early, between) ∧
    compileStmt kind stmt between = .ok (code ++ [endOfStatement], last) ∧
    runAll (early ++ code) start = .ok () reached

/-- Running the code of some statements shows the meaning of each of them. -/
theorem shows_stmts (inScope : TypedStmt.ScopedAll stmts scope scope')
    (describes : scope.Describes bound) (represents : builder.Represents bound)
    (empty : builder.stack = [])
    (compiled : compileStmts kind stmts state = .ok (operations, state')) :
    ∃ final, runAll operations builder = .ok () final ∧ builder.Advances final ∧
      ∀ before stmt after, stmts = before ++ stmt :: after → ∃ reached,
        builder.HasRun kind state operations before stmt reached ∧
          (stmt.meaning kind (boundAfter kind bound before)).2.faded.ShownBy
            final.forest (stmt.valueIn reached) := by
  induction stmts generalizing scope bound builder state operations with
  | nil =>
    cases compiled
    refine ⟨builder, rfl, .refl _, ?_⟩
    intro _ _ _ split
    exact absurd split (by simp)
  | cons _ _ ih =>
    obtain ⟨_, headScoped, tailScoped⟩ := inScope
    obtain ⟨_, between, tail, headCompiled, tailCompiled, rfl⟩ :=
      compileStmts_cons_eq_ok compiled
    obtain ⟨code, reached, rfl, shows, described⟩ :=
      shows_stmt headScoped describes represents empty headCompiled
    have cleared : runAll [.endOfStatement] reached = .ok () { reached with stack := [] } := by
      rfl
    have clearing : reached.Advances { reached with stack := [] } :=
      ⟨.refl _, id, fun _ => id⟩
    obtain ⟨final, ran, advances, each⟩ :=
      ih tailScoped described (shows.represents.advance clearing rfl) rfl tailCompiled
    have headRan : runAll (code ++ [endOfStatement]) builder =
        .ok () { reached with stack := [] } := by
      rw [runAll_append_of_ok shows.run, cleared]
    refine ⟨final, ?_, (shows.advances.trans clearing).trans advances, ?_⟩
    · rw [runAll_append_of_ok headRan, ran]
    · intro before other after split
      cases before with
      | nil =>
        obtain ⟨rfl, rfl⟩ := cons.inj split
        refine ⟨reached, ⟨[], code, tail, state, between, ?_, ?_, headCompiled, shows.run⟩,
          shows.shown.keeps (clearing.trans advances).keeps⟩
        · rw [nil_append]
        · rfl
      | cons _ before =>
        obtain ⟨rfl, rfl⟩ := cons.inj split
        obtain ⟨place, ⟨early, later, late, start, last, rfl, earlyCompiled, laterCompiled,
          earlyRan⟩, shown⟩ := each before other after rfl
        refine ⟨place, ⟨(code ++ [endOfStatement]) ++ early, later, late, start, last, ?_,
          compileStmts_cons_of_ok headCompiled earlyCompiled, laterCompiled, ?_⟩,
          shown⟩
        · simp only [append_assoc]
        · rw [append_assoc, runAll_append_of_ok headRan]
          exact earlyRan

end Builder

/-! ## Formulas -/

def isCoreFormula [Evaluator] (source : String) : Bool :=
  match parse source with
  | .ok parsed => parsed.body.all Stmt.isCore
  | .error _ => false

theorem Builder.represents_new (name kind : String) :
    (new [.empty name kind]).Represents [] :=
  ⟨Nat.zero_lt_one, nofun, nofun⟩

theorem Compiler.scoped_typedBody [Evaluator] (core : isCoreFormula source = true)
    (compiled : compile kind [] source = (functions, .ok outcome))
    (accepted : outcome.accepted = true) :
    ∃ scope last, TypedStmt.ScopedAll (typedBody kind [] source) (fun _ => none) scope ∧
      compileStmts kind (typedBody kind [] source) none = .ok (outcome.operations, last) ∧
      ∀ parsed, parse source = .ok parsed →
        (typedBody kind [] source).length = parsed.body.length := by
  obtain ⟨checker, last, checking, _, building⟩ := compile_eq_accepted compiled accepted
  obtain ⟨_, reading, checked⟩ := check_eq_true checking
  rw [isCoreFormula, reading, all_eq_true] at core
  obtain ⟨inScope, length⟩ := Checker.scoped_settledBody core checked
  have typed : typedBody kind [] source = checker.settledBody := by
    rw [typedBody, checking]
  rw [← typed] at inScope length building
  refine ⟨_, last, inScope, building, ?_⟩
  intro _ otherReading
  obtain rfl := Except.ok.inj (reading.symm.trans otherReading)
  exact length

/--
Compiling an accepted core formula and running the operations on an empty tree succeeds, and the
value of every statement unfolds to what the typed statement means, but for the zeros that input
nodes are to hold in their outputs: the value unfolds to its whole meaning exactly if there are
none.
-/
theorem compile_shows_meaning [Evaluator] (kind : TreeKind) (name source : String)
    (functions : FunctionTable) (outcome : Compiler.Outcome) (core : isCoreFormula source = true)
    (compiled : Compiler.compile kind [] source = (functions, .ok outcome))
    (accepted : outcome.accepted = true) :
    ∃ final, Builder.runAll outcome.operations (.new [.empty name kind.label]) = .ok () final ∧
      (∀ parsed, parse source = .ok parsed →
        (Compiler.typedBody kind [] source).length = parsed.body.length) ∧
      ∀ before stmt after, Compiler.typedBody kind [] source = before ++ stmt :: after →
        ∃ reached, (Builder.new [.empty name kind.label]).HasRun kind none outcome.operations
            before stmt reached ∧ let meaning := (stmt.meaning kind (boundAfter kind [] before)).2
          meaning.faded.ShownBy final.forest (stmt.valueIn reached) ∧
            (meaning.ShownBy final.forest (stmt.valueIn reached) ↔ meaning.HoldsNoZero) := by
  obtain ⟨_, _, inScope, building, length⟩ := scoped_typedBody core compiled accepted
  obtain ⟨final, ran, _, each⟩ := Builder.shows_stmts inScope (fun _ => rfl)
    (Builder.represents_new name kind.label) rfl building
  refine ⟨final, ran, length, ?_⟩
  intro before stmt after split
  obtain ⟨reached, hasRun, shown⟩ := each before stmt after split
  exact ⟨reached, hasRun, shown, Meaning.shownBy_iff_of_faded shown⟩

/-- A name that was never assigned, added to a number. -/
theorem compile_shows_meaning_sum : isCoreFormula "b = u + 2.0;" = true ∧ ∃ functions outcome,
      Compiler.compile .geometry [] "b = u + 2.0;" = (functions, .ok outcome) ∧
      outcome.accepted = true ∧
      ∃ final, Builder.runAll outcome.operations (.new [.empty "T" geometry.label]) = .ok () final ∧
        (∀ parsed, parse "b = u + 2.0;" = .ok parsed →
          (Compiler.typedBody .geometry [] "b = u + 2.0;").length = parsed.body.length) ∧
        ∀ before stmt after,
          Compiler.typedBody .geometry [] "b = u + 2.0;" = before ++ stmt :: after →
          ∃ reached, (Builder.new [.empty "T" geometry.label]).HasRun .geometry none
              outcome.operations before stmt reached ∧
            let meaning := (stmt.meaning .geometry (boundAfter .geometry [] before)).2
            meaning.faded.ShownBy final.forest (stmt.valueIn reached) ∧
              (meaning.ShownBy final.forest (stmt.valueIn reached) ↔ meaning.HoldsNoZero) := by
  have core : isCoreFormula "b = u + 2.0;" = true := by decide +kernel
  obtain ⟨functions, outcome, compiled, accepted⟩ : ∃ functions outcome,
      Compiler.compile .geometry [] "b = u + 2.0;" = (functions, .ok outcome) ∧
      outcome.accepted = true := by decide +kernel
  exact ⟨core, functions, outcome, compiled, accepted,
    compile_shows_meaning .geometry "T" _ functions outcome core compiled accepted⟩

/-- The body only assigns a zero to one name. -/
def assignsZero : List TypedStmt → Bool
  | [.assign [some _] (.const info (.float value))] => info.firstType == .float && value.isZero
  | _ => false

/-- The formula `x = 0.0;` compiles and runs, but the tree does not show the zero. -/
theorem assigned_zero_not_shown : ∃ functions outcome final stmt reached,
      Compiler.compile .geometry [] "x = 0.0;" = (functions, .ok outcome) ∧
      outcome.accepted = true ∧
      Builder.runAll outcome.operations (.new [.empty "T" geometry.label]) = .ok () final ∧
      Compiler.typedBody .geometry [] "x = 0.0;" = [stmt] ∧
      (Builder.new [.empty "T" geometry.label]).HasRun .geometry none outcome.operations
        [] stmt reached ∧
      ¬ (stmt.meaning .geometry []).2.ShownBy final.forest (stmt.valueIn reached) := by
  obtain ⟨functions, outcome, compiled, accepted⟩ : ∃ functions outcome,
      Compiler.compile .geometry [] "x = 0.0;" = (functions, .ok outcome) ∧
      outcome.accepted = true := by decide +kernel
  obtain ⟨_, _, inScope, building, _⟩ :=
    scoped_typedBody (by decide +kernel) compiled accepted
  obtain ⟨final, ran, _, each⟩ := Builder.shows_stmts inScope (fun _ => rfl)
    (Builder.represents_new "T" geometry.label) rfl building
  have evaluated : assignsZero (Compiler.typedBody .geometry [] "x = 0.0;") = true := by
    decide +kernel
  unfold assignsZero at evaluated
  split at evaluated
  · rename_i target info value body
    obtain ⟨isFloat, isZero⟩ := Bool.and_eq_true_iff.mp evaluated
    obtain ⟨reached, hasRun, shown⟩ := each [] _ [] body
    refine ⟨functions, outcome, final, _, reached, compiled, accepted, ran, body, hasRun, ?_⟩
    rw [boundAfter] at shown
    rw [Meaning.shownBy_iff_of_faded shown, TypedStmt.meaning, assignedMeaning, inputMeaning,
      eq_of_beq isFloat]
    rintro ⟨nonzero, _⟩
    have kept : (Value.float value).isNonzero = true := nonzero _ rfl
    rw [Value.isNonzero, isZero] at kept
    exact Bool.false_ne_true kept
  · cases evaluated

end NodeFormula
