import NodeFormula.Proofs.Derivation

/-!
# Scoping of checked formulas

A checked formula of the core language uses every variable as what it was bound to: a name stands
for a socket or for a struct, and the first use of a name that was never assigned brings it into
scope.  Nothing here depends on the types of variables.
-/

namespace NodeFormula

open List

variable {name : String} {after : Scope}

/-! ## The core language -/

mutual

/-- Literals, names, vectors, operators and calls, without attribute reads and keywords. -/
def Expr.isCore : Expr → Bool
  | .constant _ literal => literal != .placeholder
  | .name _ _ => true
  | .vec3 _ x y z => x.isCore && y.isCore && z.isCore
  | .unary _ _ operand => operand.isCore
  | .binary _ left _ right => left.isCore && right.isCore
  | .call _ _ _ args keywords => keywords.isEmpty && areCore args
  | .method _ _ receiver _ args keywords =>
    keywords.isEmpty && receiver.isCore && areCore args
  | .unusable _ _ | .member _ _ _ | .keyword _ _ _ | .missing => false

def Expr.areCore : List Expr → Bool
  | [] => true
  | expr :: exprs => expr.isCore && areCore exprs

end

/-- Expressions and assignments of one name. -/
def Stmt.isCore : Stmt → Bool
  | .expr value | .assign _ [some _] value => value.isCore
  | _ => false

/-! ## Scopes -/

abbrev Scope := String → Option StackType

def Scope.declare (scope : Scope) (name : String) (stack : StackType) : Scope :=
  fun other => if name = other then some stack else scope other

theorem Scope.declare_self {scope : Scope} (known : scope name = some stack) :
    scope.declare name stack = scope := by
  funext other
  rw [declare]
  split
  · rename_i same
    rw [← same, known]
  · rfl

namespace StackType

variable {stack : StackType}

def IsHeld (stack : StackType) : Prop := stack = .socket ∨ stack = .struct

def kept (stack : StackType) : StackType := if stack = .struct then .struct else .socket

theorem kept_eq_self (hasValue : stack ≠ .empty) (noConstant : stack ≠ .value) :
    stack.kept = stack := by
  cases stack with
  | empty => exact absurd rfl hasValue
  | value => exact absurd rfl noConstant
  | socket => rfl
  | struct => rfl

theorem IsHeld.ne_empty (held : stack.IsHeld) : stack ≠ .empty := by
  rcases held with rfl | rfl <;> exact nofun

end StackType

def NodeRecipe.stack (recipe : NodeRecipe) : StackType :=
  match recipe.outputs with
  | [] => .empty
  | [_] => .socket
  | _ => .struct

mutual

/-- An expression of nodes and variables leads from one scope to another. -/
def TypedExpr.Scoped : TypedExpr → Scope → Scope → Prop
  | .const info _, before, after => info.stack = .value ∧ after = before
  | .var reference, before, after =>
    if reference.isFresh then
      reference.info.stack = .socket ∧ after = before.declare reference.id .socket
    else
      reference.info.stack.IsHeld ∧ before reference.id = some reference.info.stack ∧
        after = before
  | .nodeCall info recipe args, before, after =>
    recipe.WellFormed ∧ args.length ≤ recipe.inputs.length ∧ info.stack = recipe.stack ∧
      (∀ arg ∈ args, arg.info.stack ≠ .empty) ∧ TypedExpr.ScopedAll args before after
  | .functionCall _ _ _, _, _ => False
  | .output _ _ _, _, _ => False

def TypedExpr.ScopedAll : List TypedExpr → Scope → Scope → Prop
  | [], before, after => after = before
  | expr :: exprs, before, after =>
    ∃ middle, expr.Scoped before middle ∧ TypedExpr.ScopedAll exprs middle after

end

namespace TypedStmt

/-- A statement of the core language leads from one scope to another. -/
def Scoped : TypedStmt → Scope → Scope → Prop
  | .expr value, before, after => value.Scoped before after
  | .assign [some target] value, before, after =>
    value.info.stack ≠ .empty ∧ value.HasFormat ∧
      target.info.stack = value.info.stack.kept ∧
      ∃ middle, value.Scoped before middle ∧
        after = middle.declare target.id value.info.stack.kept
  | _, _, _ => False

def ScopedAll : List TypedStmt → Scope → Scope → Prop
  | [], before, after => after = before
  | stmt :: stmts, before, after =>
    ∃ middle, stmt.Scoped before middle ∧ ScopedAll stmts middle after

end TypedStmt

namespace TypedExpr

variable {expr : TypedExpr} {slots : SlotTable}

theorem Scoped.retyped (inScope : (expr.settle slots).Scoped before after)
    (retyped : Retyped expr other) : (other.settle slots).Scoped before after := by
  cases retyped with
  | var => exact inScope
  | const | nodeCall | functionCall | output =>
    exact inScope

theorem ScopedAll.retyped (inScope : ScopedAll (settleAll slots exprs) before after)
    (retyped : List.Forall₂ Retyped exprs others) :
    ScopedAll (settleAll slots others) before after := by
  induction retyped generalizing before with
  | nil => exact inScope
  | cons head tail ih =>
    obtain ⟨middle, headScoped, tailScoped⟩ := inScope
    exact ⟨middle, headScoped.retyped head, ih tailScoped⟩

theorem Scoped.stack_ne_value (inScope : expr.Scoped before after)
    (noConstant : ∀ info value, expr ≠ .const info value) : expr.info.stack ≠ .value := by
  cases expr with
  | const info value => exact absurd rfl (noConstant info value)
  | var reference =>
    rw [Scoped] at inScope
    split at inScope
    · rw [TypedExpr.info, inScope.1]
      exact nofun
    · rcases inScope.1 with isSocket | isStruct
      · rw [TypedExpr.info, isSocket]
        exact nofun
      · rw [TypedExpr.info, isStruct]
        exact nofun
  | nodeCall info recipe args =>
    rw [TypedExpr.info, inScope.2.2.1, NodeRecipe.stack]
    split <;> exact nofun
  | functionCall info function args =>
    exact inScope.elim
  | output info value index =>
    exact inScope.elim

theorem Scoped.withTypes (types : List DataType) (inScope : expr.Scoped before after) :
    (expr.withTypes types).Scoped before after := by
  cases expr <;> (rw [withTypes]; rw [Scoped] at inScope; exact inScope)

end TypedExpr

/-! ## Checked expressions are scoped -/

theorem TreeKind.node_of_mem_candidates {kind : TreeKind}
    (member : callable ∈ kind.candidates [] name) : ∃ recipe, callable = .node recipe := by
  rw [candidates] at member
  split at member
  · obtain ⟨recipe, _, rfl⟩ := mem_map.mp member
    exact ⟨recipe, rfl⟩
  · simp only [lookup_nil, Option.getD_none, map_nil, append_nil, mem_append,
      fromTable, mem_map] at member
    rcases member with ⟨candidate, _, rfl⟩ | ⟨candidate, _, rfl⟩
    · exact ⟨_, rfl⟩
    · exact ⟨_, rfl⟩

theorem Checker.resultInfo_stack (recipe : NodeRecipe) :
    (resultInfo recipe.results).stack = recipe.stack ∧
      (recipe.stack = .empty → (resultInfo recipe.results).types = []) := by
  rw [NodeRecipe.results, NodeRecipe.stack]
  rcases recipe.outputs with _ | ⟨first, _ | ⟨second, rest⟩⟩
  · exact ⟨rfl, fun _ => rfl⟩
  · exact ⟨rfl, nofun⟩
  · exact ⟨rfl, nofun⟩

mutual

def TypedExpr.Plain : TypedExpr → Prop
  | .const _ _ | .var _ => True
  | .nodeCall _ _ args | .functionCall _ _ args => TypedExpr.AllPlain args
  | .output _ _ _ => False

def TypedExpr.AllPlain : List TypedExpr → Prop
  | [] => True
  | expr :: exprs => expr.Plain ∧ TypedExpr.AllPlain exprs

end

theorem TypedExpr.allPlain_retyped (retyped : List.Forall₂ Retyped exprs others) :
    AllPlain others ↔ AllPlain exprs := by
  induction retyped with
  | nil => exact Iff.rfl
  | cons head tail ih =>
    rw [AllPlain, ih]
    cases head <;> exact Iff.rfl

namespace Checker

def scope (checker : Checker) : Scope := fun name =>
  (checker.vars.lookup name).map (·.info.stack)

/-- Every variable is kept under its own name and holds a socket or a struct. -/
def Named (checker : Checker) : Prop :=
  ∀ name var, checker.vars.lookup name = some var → var.id = name ∧ var.info.stack.IsHeld

/-- Only a call without results has no types. -/
def HasTypes (expr : TypedExpr) : Prop :=
  expr.info.stack = .empty → ∀ checker : Checker, checker.currentTypes expr = []

structure Checked (before : Checker) (expr : TypedExpr) (after : Checker) : Prop where
  named : after.Named
  inScope : ∀ slots, (expr.settle slots).Scoped before.scope after.scope
  hasTypes : HasTypes expr

structure CheckedAll (before : Checker) (exprs : List TypedExpr) (after : Checker) : Prop where
  named : after.Named
  inScope : ∀ slots, TypedExpr.ScopedAll (TypedExpr.settleAll slots exprs) before.scope after.scope
  hasTypes : ∀ expr ∈ exprs, HasTypes expr

theorem scope_bind (checker : Checker) (name : String) (var : TypedVar) :
    scope { checker with vars := Table.insert name var checker.vars } =
      checker.scope.declare name var.info.stack := by
  funext other
  rw [scope, Table.lookup_insert, Scope.declare]
  by_cases same : name = other
  · rw [if_pos same, if_pos same, Option.map_some]
  · rw [if_neg same, if_neg same, scope]

theorem named_bind {checker : Checker} (named : checker.Named) (same : var.id = name)
    (held : var.info.stack.IsHeld) :
    Named { checker with vars := Table.insert name var checker.vars } := by
  intro other found lookup
  rw [Table.lookup_insert] at lookup
  by_cases here : name = other
  · rw [if_pos here] at lookup
    obtain rfl := Option.some.inj lookup
    exact ⟨same.trans here, held⟩
  · rw [if_neg here] at lookup
    exact named other found lookup

section Expressions

variable {expr : Expr} {after : Checker}

theorem isCore_of_mem (core : Expr.areCore exprs = true) (member : expr ∈ exprs) :
    expr.isCore = true := by
  induction exprs with
  | nil => cases member
  | cons first others ih =>
    rw [Expr.areCore, Bool.and_eq_true] at core
    rcases mem_cons.mp member with rfl | later
    · exact core.1
    · exact ih core.2 later

theorem isCore_operand (core : expr.isCore = true) (member : operand ∈ expr.operands) :
    operand.isCore = true := by
  unfold Expr.operands at member
  split at member
  · cases member
  · simp only [mem_cons, not_mem_nil, or_false] at member
    simp only [Expr.isCore, Bool.and_eq_true] at core
    rcases member with rfl | rfl | rfl
    · exact core.1.1
    · exact core.1.2
    · exact core.2
  · cases mem_singleton.mp member
    exact core
  · simp only [mem_cons, not_mem_nil, or_false] at member
    simp only [Expr.isCore, Bool.and_eq_true] at core
    rcases member with rfl | rfl
    · exact core.1
    · exact core.2
  · cases core
  · rw [Expr.isCore, Bool.and_eq_true] at core
    exact isCore_of_mem core.2 member
  · simp only [Expr.isCore, Bool.and_eq_true] at core
    rcases mem_cons.mp member with rfl | later
    · exact core.1.2
    · exact isCore_of_mem core.2 later
  · cases member

theorem plain_call (plain : TypedExpr.AllPlain args)
    (done : call name args token checker = .ok typed after) : typed.Plain := by
  obtain ⟨callable, _, rfl, _, _, _, _, retyped⟩ := call_eq_ok done
  cases callable <;>
    (rw [applied, TypedExpr.Plain, TypedExpr.allPlain_retyped retyped]; exact plain)

theorem plain_negate (plain : operand.Plain)
    (done : negate operand token checker = .ok typed after) : typed.Plain := by
  rcases negate_eq_ok done with ⟨_, _, _, _, rfl, rfl, _⟩ | times
  · trivial
  · refine plain_call ?_ times
    simpa [TypedExpr.AllPlain, TypedExpr.Plain, minusOne] using plain

theorem plain_checkExpr (core : expr.isCore = true)
    (done : checkExpr expr checker = .ok typed after) : typed.Plain := by
  induction expr using Expr.induction_operands generalizing checker after typed with
  | step expr ih =>
    obtain ⟨args, _, argsDone, finished⟩ := checkExpr_eq_ok done
    have plain : TypedExpr.AllPlain args := by
      have each := fun operand member typed before after =>
        @ih operand member typed before after (isCore_operand core member)
      clear done finished
      generalize expr.operands = operands at argsDone each
      induction operands generalizing checker args with
      | nil =>
        cases (checkExprs_nil checker).symm.trans argsDone
        trivial
      | cons first others rest =>
        obtain ⟨_, _, _, headDone, tailDone, rfl⟩ := checkExprs_cons_eq_ok argsDone
        exact ⟨each first mem_cons_self _ _ _ headDone,
          rest _ tailDone fun other member => each other (mem_cons_of_mem _ member)⟩
    unfold finish at finished
    split at finished
    · obtain ⟨_, _, _, rfl, _⟩ := constant_eq_ok finished
      trivial
    · cases core
    · obtain ⟨_, _, _, rfl, _⟩ := components_eq_ok finished
      trivial
    · exact plain_call plain (unless_eq_ok (fun _ _ => reject_ne_ok) finished).2
    · obtain ⟨_, _, rfl⟩ := derives_useName finished
      trivial
    · obtain ⟨_, answered⟩ := unless_eq_ok (fun _ _ => reject_ne_ok) finished
      split at answered
      · exact plain_call plain answered
      · exact plain_negate plain.1 answered
    · exact plain_call plain (unless_eq_ok (fun _ _ => reject_ne_ok) finished).2
    · cases core
    · cases core
    · exact plain_call plain finished
    · exact plain_call plain finished
    · exact absurd finished stop_ne_ok

mutual

/-- Where no output is read and there are no functions, only nodes are called. -/
theorem Derives.checked : ∀ {checker after expr},
    Derives checker expr after → expr.Plain → checker.functions = [] → checker.Named →
    Checked checker expr after
  | _, _, _, .const isValue _, _, _, named => by
    refine ⟨named, fun _ => ?_, fun isEmpty => ?_⟩
    · exact ⟨isValue, rfl⟩
    cases isValue.symm.trans isEmpty
  | _, _, _, .unknown _ isNew, _, _, named => by
    subst isNew
    refine ⟨named_bind named rfl (.inl rfl), fun _ => ?_, nofun⟩
    exact ⟨rfl, scope_bind _ _ _⟩
  | checker, _, _, @Derives.known _ id var found isOld, _, _, named => by
    obtain ⟨sameName, held⟩ := named id var found
    refine ⟨named, fun _ => ?_, fun isEmpty => absurd isEmpty held.ne_empty⟩
    rw [TypedExpr.settle, TypedExpr.Scoped, TypedVar.settle, if_neg (by rw [isOld]; exact nofun),
      sameName]
    exact ⟨held, by rw [scope, found, Option.map_some], rfl⟩
  | checker, _, _, @Derives.created _ id var found, _, _, named => by
    obtain ⟨sameName, held⟩ := named id var found
    have known : checker.scope id = some var.info.stack := by
      rw [scope, found, Option.map_some]
    refine ⟨named_bind named sameName held, fun _ => ?_,
      fun isEmpty => absurd isEmpty held.ne_empty⟩
    exact ⟨held, sameName ▸ known, (scope_bind _ _ _).trans (Scope.declare_self known)⟩
  | _, _, _, @Derives.call _ middle _ args passed callable _ operands listed fits typed retyped
      isCall, plain, noFunctions, named => by
    subst isCall
    have frame := operands.frame
    obtain ⟨recipe, rfl⟩ : ∃ recipe, callable = .node recipe := by
      obtain ⟨_, _, rfl⟩ := frame
      rw [noFunctions] at listed
      exact TreeKind.node_of_mem_candidates listed
    rw [applied, TypedExpr.Plain, TypedExpr.allPlain_retyped retyped] at plain
    obtain ⟨namedAfter, inScope, hasTypes⟩ := DerivesAll.checked operands plain noFunctions named
    obtain ⟨stack, types⟩ := resultInfo_stack recipe
    refine ⟨namedAfter, fun slots => ?_, fun isEmpty _ => types (stack.symm.trans isEmpty)⟩
    refine ⟨TreeKind.wellFormed_of_mem_candidates listed, ?_, stack, ?_,
      (inScope slots).retyped retyped⟩
    · rw [TypedExpr.settleAll_eq_map, length_map, ← retyped.length_eq]
      simpa [Callable.inputTypes, NodeRecipe.inputTypes] using fits
    · -- An argument without a value would have had no type to resolve the call with.
      intro settled member isEmpty
      rw [TypedExpr.settleAll_eq_map, mem_map] at member
      obtain ⟨_, member, rfl⟩ := member
      obtain ⟨original, origin, same⟩ := Retyped.exists_of_mem retyped member
      rw [TypedExpr.settle_stack, same.stack_eq] at isEmpty
      exact typed original origin (hasTypes original origin isEmpty middle)
  | _, _, _, .output _ _, plain, _, _ => by
    exact plain.elim

theorem DerivesAll.checked : ∀ {checker after exprs},
    DerivesAll checker exprs after → TypedExpr.AllPlain exprs → checker.functions = [] →
    checker.Named → CheckedAll checker exprs after
  | _, _, _, .nil, _, _, named => ⟨named, fun _ => by rw [TypedExpr.settleAll]; rfl, nofun⟩
  | _, _, _, .cons head tail, plain, noFunctions, named => by
    have first := Derives.checked head plain.1 noFunctions named
    have frame := head.frame
    have rest := DerivesAll.checked tail plain.2 (by obtain ⟨_, _, rfl⟩ := frame; exact noFunctions)
      first.named
    refine ⟨rest.named, fun slots => ?_, forall_mem_cons.mpr ⟨first.hasTypes, rest.hasTypes⟩⟩
    exact ⟨_, first.inScope slots, rest.inScope slots⟩

end

end Expressions

/-! ## Checked statements are scoped -/

section Statements

variable {after : Checker}

theorem checked_stmt (core : stmt.isCore = true) (noFunctions : checker.functions = [])
    (named : checker.Named) (done : checkStmt stmt checker = .ok answer after) :
    ∃ typed, answer = some typed ∧ after.functions = [] ∧ after.body = checker.body ∧
      after.Named ∧ ∀ slots, (typed.settle slots).Scoped checker.scope after.scope := by
  obtain ⟨typed, rfl, inner⟩ :
      ∃ typed, answer = some typed ∧ checkInner stmt checker = .ok typed after := by
    rcases checkStmt_eq_ok done with ⟨_, _, _, _, _, _, rfl, _⟩ | inner
    · cases core
    · exact inner
  have frame := (derives_checkInner inner).frame
  refine ⟨typed, rfl, ?_, ?_, ?_⟩
  · obtain ⟨_, _, _, rfl⟩ := frame
    exact noFunctions
  · obtain ⟨_, _, _, rfl⟩ := frame
    rfl
  match stmt with
  | .expr value =>
    obtain ⟨expr, checked, rfl⟩ := map_eq_ok inner
    have result :=
      (derives_checkExpr checked).checked (plain_checkExpr core checked) noFunctions named
    exact ⟨result.named, result.inScope⟩
  | .assign token [some target] value =>
    obtain ⟨derived, expr, _, checked, ⟨vars, rfl, sameIds, whole⟩ | ⟨noName, _⟩⟩ :=
      derives_checkAssign inner
    · have plain := plain_checkExpr core checked
      obtain ⟨var, rfl⟩ : ∃ var, vars = [some var] := by
        obtain ⟨_, rfl, isNamed⟩ := map_eq_singleton_iff.mp sameIds
        obtain ⟨var, rfl, _⟩ := Option.map_eq_some_iff.mp isNamed
        exact ⟨var, rfl⟩
      have format := (derives_checkExpr checked).hasFormat
      cases derived with
      | divided _ several => exact absurd several (Nat.lt_irrefl 1)
      | whole derived isStruct slotted isVar =>
        have result := derived.checked plain noFunctions named
        obtain ⟨_, rfl⟩ := structSlot_eq_ok slotted
        subst isVar
        refine ⟨named_bind result.named rfl (.inr rfl), fun slots => ?_⟩
        rw [TypedStmt.settle, if_pos rfl, TypedStmt.Scoped, TypedExpr.withTypes_stack,
          TypedExpr.settle_stack, isStruct]
        refine ⟨nofun, ?_, rfl, _, (result.inScope slots).withTypes _, scope_bind _ _ _⟩
        -- A struct is no constant, so its format is not in question.
        cases expr with
        | const info held => cases isStruct.symm.trans derived.of_const.2.1
        | _ =>
          exact nofun
      | bound derived _ fits binds =>
        have result := derived.checked plain noFunctions named
        have hasValue : expr.info.stack ≠ .empty := by
          intro isEmpty
          rw [result.hasTypes isEmpty] at fits
          cases fits
        generalize currentTypes _ expr = types at binds
        cases binds with
        | bind isNew others =>
          cases others
          subst isNew
          have isKept : expr.info.stack.kept = .socket :=
            if_neg fun isStruct => nomatch whole isStruct _ rfl
          refine ⟨named_bind result.named rfl (.inl rfl), fun slots => ?_⟩
          rw [TypedStmt.settle, if_neg nofun, TypedStmt.Scoped, TypedExpr.settle_stack, isKept]
          exact ⟨hasValue, format.settle slots, rfl, _, result.inScope slots, scope_bind _ _ _⟩
    · cases noName
  | .assign _ [] _ | .assign _ [none] _ | .assign _ (none :: _ :: _) _
  | .assign _ (some _ :: _ :: _) _ | .out .. | .definition .. | .loop .. | .missing => cases core

theorem checked_stmts (core : ∀ stmt ∈ stmts, stmt.isCore = true)
    (noFunctions : checker.functions = []) (named : checker.Named)
    (done : checkStmts stmts checker = .ok () after) :
    ∃ typed, after.body = checker.body ++ typed ∧ typed.length = stmts.length ∧
      ∀ slots, TypedStmt.ScopedAll (typed.map (TypedStmt.settle slots)) checker.scope
        after.scope := by
  induction stmts generalizing checker with
  | nil =>
    cases done
    exact ⟨[], by simp, rfl, fun _ => rfl⟩
  | cons stmt stmts ih =>
    obtain ⟨_, middle, first, rest⟩ := checkStmts_cons_eq_ok done
    obtain ⟨head, rfl, functions, sameBody, namedAfter, headScoped⟩ :=
      checked_stmt (core stmt mem_cons_self) noFunctions named first
    obtain ⟨tail, body, length, tailScoped⟩ :=
      @ih { middle with body := middle.body ++ [head] }
        (fun other member => core other (mem_cons_of_mem _ member)) functions namedAfter rest
    refine ⟨head :: tail, ?_, ?_, fun slots => ⟨_, headScoped slots, tailScoped slots⟩⟩
    · rw [body, sameBody]
      simp
    · rw [length_cons, length_cons, length]

theorem scoped_settledBody {kind reports}
    (core : ∀ stmt ∈ stmts, stmt.isCore = true)
    (done : checkStmts stmts { new kind [] with reports } = .ok () after) :
    TypedStmt.ScopedAll after.settledBody (fun _ => none) after.scope ∧
      after.settledBody.length = stmts.length := by
  have named : Named { new kind [] with reports } := by
    intro name var found
    cases found
  obtain ⟨typed, body, length, inScope⟩ := checked_stmts core rfl named done
  have settled : after.settledBody = typed.map (TypedStmt.settle after.slots) := by
    rw [settledBody, body]
    rfl
  rw [settled, length_map]
  exact ⟨inScope after.slots, length⟩

end Statements

end Checker

end NodeFormula
