import NodeFormula.Proofs.Refusals
import NodeFormula.Proofs.WellMade

/-!
# What a definition leaves behind

A definition that is accepted adds a function, which marks the results that its statements
name.  Each of them becomes one typed statement that sets these results, except where a vector is
divided among several.  One that is refused after its parameters came into scope leaves this scope
and its own results behind, and what was in scope around it is lost.
-/

namespace NodeFormula

open List Checker

namespace Checker

variable {after : Checker} {outputs : List Binding}

/-! ## Results -/

def places (outputs : List Binding) : Stmt → List (Option Nat)
  | .out _ targets _ => placesOf outputs targets
  | _ => []

/-- A statement of a function body with these results becomes a typed statement. -/
inductive Becomes (outputs : List Binding) : Stmt → TypedStmt → Prop
  | expr {value typed} : Becomes outputs (.expr value) (.expr typed)
  | assign {token targets value vars typed}
      (sameIds : vars.map (·.map (·.id)) = targets.map (·.map (·.id))) :
      Becomes outputs (.assign token targets value) (.assign vars typed)
  | unnamed {token value typed} :
      Becomes outputs (.assign token [none] value) (.expr typed)
  | out {token targets value typed} :
      Becomes outputs (.out token targets value) (.out (placesOf outputs targets) typed)
  | divided {token targets value typed}
      (several : 1 < targets.length) (noStruct : typed.info.stack ≠ .struct) :
      Becomes outputs (.out token targets value) (.expr typed)

theorem Becomes.settle (becomes : Becomes outputs stmt typed) (slots : SlotTable) :
    Becomes outputs stmt (typed.settle slots) := by
  cases becomes with
  | expr => exact .expr
  | unnamed => exact .unnamed
  | out => exact .out
  | divided several =>
    refine .divided several ?_
    rwa [TypedExpr.settle_stack]
  | assign sameIds =>
    obtain ⟨_, same⟩ := TypedStmt.settle_assign _ _ slots
    rw [same]
    exact .assign ((map_id_settle slots _).trans sameIds)

theorem DerivesStmt.used_of_assign {vars}
    (derived : DerivesStmt checker (.assign vars value) after) : after.used = checker.used := by
  cases derived with
  | divided derived _ _ _ _ _ binds | bound derived _ _ binds =>
    obtain ⟨_, _, rfl⟩ := derived.frame
    obtain ⟨_, _, rfl⟩ := binds.frame
    rfl
  | whole derived _ slotted =>
    obtain ⟨_, _, rfl⟩ := derived.frame
    obtain ⟨_, rfl⟩ := structSlot_eq_ok slotted
    rfl

theorem becomes_checkInner (done : checkInner stmt checker = .ok typed after) :
    Becomes checker.outputs stmt typed ∧
      after.used = mark checker.used (places checker.outputs stmt) := by
  cases stmt with
  | expr =>
    obtain ⟨expr, checked, rfl⟩ := map_eq_ok done
    obtain ⟨_, _, rfl⟩ := (derives_checkExpr checked).frame
    exact ⟨.expr, rfl⟩
  | assign =>
    obtain ⟨derived, _, _, checked, ⟨_, rfl, sameIds, _⟩ | ⟨rfl, rfl, rfl⟩⟩ :=
      derives_checkAssign done
    · exact ⟨.assign sameIds, derived.used_of_assign⟩
    · obtain ⟨_, _, rfl⟩ := (derives_checkExpr checked).frame
      exact ⟨.unnamed, rfl⟩
  | out =>
    obtain ⟨_, _, checked, becomes⟩ := derives_checkOut done
    obtain ⟨_, _, rfl⟩ := (derives_checkExpr checked).frame
    refine ⟨?_, rfl⟩
    rcases becomes with ⟨rfl, several, noStruct⟩ | rfl
    · exact .divided several noStruct
    · exact .out
  | loop => exact absurd done stop_ne_ok
  | definition kind =>
    cases kind <;> exact absurd done reject_ne_ok
  | missing => exact absurd done stop_ne_ok

theorem length_mark (used : List Bool) (places : List (Option Nat)) :
    (mark used places).length = used.length := by
  rw [mark]
  induction places.reduceOption generalizing used with
  | nil => rfl
  | cons _ _ ih => rw [foldl_cons, ih, length_set]

theorem getElem?_mark (used : List Bool) (places : List (Option Nat)) :
    (mark used places)[index]? = some true ↔
      used[index]? = some true ∨ some index ∈ places ∧ index < used.length := by
  rw [mark, ← reduceOption_mem_iff]
  induction places.reduceOption generalizing used with
  | nil => simp
  | cons place _ ih =>
    rw [foldl_cons, ih]
    by_cases here : place = index
    · subst here
      by_cases inside : place < used.length <;> simp [inside]
    · simp [here, Ne.symm here]

theorem becomes_checkBody {typed} (done : checkBody stmts checker = .ok typed after) :
    Forall₂ (Becomes checker.outputs) stmts typed ∧ after.used.length = checker.used.length ∧
      ∀ index, after.used[index]? = some true ↔ checker.used[index]? = some true ∨
        (∃ stmt ∈ stmts, some index ∈ places checker.outputs stmt) ∧
          index < checker.used.length := by
  induction stmts generalizing checker typed with
  | nil =>
    cases done
    exact ⟨.nil, rfl, by simp⟩
  | cons _ _ ih =>
    obtain ⟨_, _, headDone, remaining⟩ := bind_eq_ok done
    obtain ⟨_, tailDone, rfl⟩ := map_eq_ok remaining
    obtain ⟨becomes, marked⟩ := becomes_checkInner headDone
    obtain ⟨_, _, _, rfl⟩ := (derives_checkInner headDone).frame
    obtain ⟨others, sameLength, markedLater⟩ := ih tailDone
    rw [marked, length_mark] at sameLength markedLater
    refine ⟨.cons becomes others, sameLength, fun _ => ?_⟩
    rw [markedLater, getElem?_mark, or_assoc, ← or_and_right, exists_mem_cons_iff]

/-- Results that are named without being set are those of divided vectors. -/
theorem named_iff {typed} (becomes : Forall₂ (Becomes outputs) stmts typed) :
    (∃ stmt ∈ stmts, some index ∈ places outputs stmt) ↔ (∃ stmt ∈ typed, index ∈ stmt.results) ∨
      ∃ token targets value expr, (Stmt.out token targets value, TypedStmt.expr expr) ∈
        stmts.zip typed ∧ some index ∈ placesOf outputs targets := by
  induction becomes with
  | nil => simp
  | cons head _ ih =>
    rw [exists_mem_cons_iff, ih]
    cases head <;> simp [places, TypedStmt.results, reduceOption_mem_iff] <;> grind

end Checker

/--
The function that an accepted definition adds.  Its body has one typed statement for each
statement.  A result is marked as set exactly if a statement sets it, or if it is a target of one
that divides a vector, which sets none.
-/
theorem results_of_definition {form : DefinitionKind} {token : Token} {name : String}
    {args returns : List Param} {body : List Stmt} {checker after : Checker}
    {typed : Option TypedStmt}
    (accepted : Checker.checkStmt (.definition form token name args body returns) checker =
      .ok typed after) :
    ∃ function, after.functions = Checker.insertFunction checker.functions function ∧
      function.name = name ∧ function.outputs.map (·.name) = returns.map (·.name) ∧
      Forall₂ (Checker.Becomes function.outputs) body function.body ∧
      function.used.length = function.outputs.length ∧ ∀ index, function.used[index]? = some true ↔
        (∃ stmt ∈ function.body, index ∈ stmt.results) ∨
        ∃ token targets value expr, (Stmt.out token targets value, TypedStmt.expr expr) ∈
          body.zip function.body ∧ some index ∈ Checker.placesOf function.outputs targets := by
  obtain ⟨_, defined, rfl⟩ := map_eq_ok accepted
  obtain ⟨inputs, outputs, entered, stmts, inner, _, outputsDone, bound, checked, rfl⟩ :=
    checkDefinition_eq_ok defined
  obtain ⟨becomes, sameLength, marked⟩ := Checker.becomes_checkBody checked
  have functions : inner.functions = checker.functions := by
    obtain ⟨_, binds⟩ := binds_bindParams bound
    obtain ⟨_, _, rfl⟩ := binds.frame
    obtain ⟨_, _, _, rfl⟩ := (derives_checkBody checked).frame
    rfl
  have settled : Forall₂ (Checker.Becomes outputs) body
      (stmts.map (TypedStmt.settle inner.slots)) := by
    rw [forall₂_map_right_iff]
    exact becomes.imp fun _ _ becomes => becomes.settle _
  refine ⟨_, congrArg (insertFunction · _) functions, rfl,
    (checkParams_eq_ok outputsDone).2.1, settled, sameLength.trans (length_replicate ..),
    fun index => ?_⟩
  refine ((marked index).trans ⟨?_, fun named => .inr ⟨named, ?_⟩⟩).trans
    (Checker.named_iff settled)
  · rintro (already | named)
    · simp [entering, getElem?_replicate] at already
    · exact named.1
  · obtain ⟨stmt, _, named⟩ := named
    unfold Checker.places at named
    split at named
    · exact (length_replicate ..).symm ▸ lt_of_mem_placesOf named
    · cases named

def Stmt.dividing (second : String) : Stmt :=
  let token := Place.origin.endToken
  .out token [some ⟨token, "a"⟩, some ⟨token, second⟩] (.name token "v")

def Stmt.dividingDefinition (second : String) : Stmt :=
  let token := Place.origin.endToken
  .definition .function token "f" [⟨token, "v", .vec3, none⟩] [dividing second]
    [⟨token, "a", .float, none⟩, ⟨token, "b", .float, none⟩]

theorem results_of_dividing : ∃ typed after function,
      Checker.checkStmt (.dividingDefinition "b") (.new .geometry []) = .ok typed after ∧
      after.functions = Checker.insertFunction [] function ∧
      (function.used[1]? = some true ↔ (∃ stmt ∈ function.body, 1 ∈ stmt.results) ∨
        ∃ token targets value expr, (Stmt.out token targets value, TypedStmt.expr expr) ∈
          [Stmt.dividing "b"].zip function.body ∧
            some 1 ∈ Checker.placesOf function.outputs targets) := by
  obtain ⟨after, accepted⟩ : ∃ after,
      checkStmt (.dividingDefinition "b") (.new .geometry []) = .ok none after := ⟨_, rfl⟩
  obtain ⟨function, added, _, _, _, _, marked⟩ := results_of_definition accepted
  exact ⟨none, after, function, accepted, added, marked 1⟩

theorem dividing_sets_nothing : ∃ after function,
      Checker.checkStmt (.dividingDefinition "b") (.new .geometry []) = .ok none after ∧
      after.functions = [("f", [function])] ∧ function.used = [true, true] ∧
      ∀ stmt ∈ function.body, stmt.results = [] := by
  refine ⟨_, _, rfl, rfl, rfl, ?_⟩
  rintro stmt (_ | ⟨_, ⟨⟩⟩)
  rfl

/-! ## Refused definitions -/

namespace Checker

/--
The results to be set and the statements stay, and no name goes out of scope.  An exact step also
leaves each name its variable.
-/
structure Kept (exact : Prop) (before after : Checker) : Prop where
  outputs : after.outputs = before.outputs
  body : after.body = before.body
  vars : ∀ {id var}, before.vars.lookup id = some var →
    ∃ other, after.vars.lookup id = some other ∧ (exact → ∃ isFresh, other = { var with isFresh })

def Keeps (exact : Prop) (α : Type) (step : Check α) (before : Checker) : Prop :=
  match step before with
  | .ok _ after | .error _ after => Kept exact before after

theorem Kept.refl (exact : Prop) (checker : Checker) : Kept exact checker checker :=
  ⟨rfl, rfl, fun found => ⟨_, found, fun _ => ⟨_, rfl⟩⟩⟩

theorem Kept.trans {exact before middle after} (first : Kept exact before middle)
    (second : Kept exact middle after) : Kept exact before after := by
  refine ⟨second.outputs.trans first.outputs, second.body.trans first.body, fun found => ?_⟩
  obtain ⟨_, foundStill, same⟩ := first.vars found
  obtain ⟨other, foundAfter, sameAfter⟩ := second.vars foundStill
  refine ⟨other, foundAfter, fun isExact => ?_⟩
  obtain ⟨_, rfl⟩ := same isExact
  exact sameAfter isExact

theorem Kept.isSome {exact before after} {id : String} (kept : Kept exact before after)
    (inScope : (before.vars.lookup id).isSome) : (after.vars.lookup id).isSome := by
  obtain ⟨_, found⟩ := Option.isSome_iff_exists.1 inScope
  obtain ⟨other, foundAfter, _⟩ := kept.vars found
  exact Option.isSome_iff_exists.2 ⟨other, foundAfter⟩

theorem kept_bind {exact name var} (same : exact → ∀ old, checker.vars.lookup name = some old →
      ∃ isFresh, var = { old with isFresh }) : Keeps exact Unit (bind name var) checker := by
  refine ⟨rfl, rfl, fun {id old} found => ?_⟩
  show ∃ other, (Table.insert name var checker.vars).lookup id = some other ∧ _
  rw [Table.lookup_insert]
  split
  · rename_i isName
    exact ⟨var, rfl, fun isExact => same isExact old (isName ▸ found)⟩
  · exact ⟨old, found, fun _ => ⟨_, rfl⟩⟩

instance Keeps.watches (exact : Prop) : Watches (Keeps exact) where
  pure _ checker := .refl exact checker
  bind := by
    intro α β step next checker first rest
    unfold Keeps at *
    cases stepped : step checker with
    | error refusal after =>
      rw [stepped] at first
      rwa [bind_of_error stepped]
    | ok answer middle =>
      have remaining := rest answer middle stepped
      rw [stepped] at first
      rw [bind_of_ok stepped]
      split at remaining <;> exact first.trans remaining
  reject _ _ _ := ⟨rfl, rfl, fun found => ⟨_, found, fun _ => ⟨_, rfl⟩⟩⟩
  stop _ checker := .refl exact checker
  read _ rest := rest
  look rest := rest
  modify isLocal checker := by
    refine ⟨isLocal.outputs checker, isLocal.body checker, fun found => ?_⟩
    rw [isLocal.vars]
    exact ⟨_, found, fun _ => ⟨_, rfl⟩⟩
  bindName same := kept_bind fun _ => same

instance Keeps.assigns : Assigns (Keeps False) where
  rebind _ _ _ := kept_bind nofun

theorem Keeps.admits : Admits (Keeps exact) stops := fun _ => Kept.refl exact

theorem keeps_checkDefault (param : Param) : Always (Keeps True) (checkDefault param) := by
  unfold checkDefault
  split
  · exact Follows.pure _
  · refine Always.bind (fun checker => holds_checkExpr _ checker .admits fun _ token =>
      always_call _ _ token _) fun _ => ?_
    have refused : Always (Keeps True) (throw .rejected : Check (Option Value)) := Kept.refl True
    split
    · split
      · exact refused
      · split
        · exact Follows.pure _
        · exact refused
    · exact Follows.reject _ _

theorem keeps_checkParams (params : List Param) : Always (Keeps True) (checkParams params) := by
  induction params with
  | nil => exact Follows.pure _
  | cons param _ ih => exact (keeps_checkDefault param).bind fun _ => ih.map

theorem bindParams_eq (params : List Param) (checker : Checker) :
    ∃ bound, bindParams params checker = .ok () bound ∧ Kept False checker bound ∧
      ∀ param ∈ params, (bound.vars.lookup param.name).isSome := by
  induction params generalizing checker with
  | nil => exact ⟨checker, rfl, .refl False checker, nofun⟩
  | cons param _ ih =>
    let var : TypedVar := ⟨⟨.socket, [param.type], []⟩, checker.slots.length, param.name, false⟩
    let next : Checker := { checker with
      slots := checker.slots ++ [[param.type]]
      vars := Table.insert param.name var checker.vars }
    have kept : Kept False checker next := ((always_newSlot [param.type]).bind
      (fun _ => Assigns.rebind param.name var) : Always (Keeps False) _) checker
    obtain ⟨bound, done, others, inScope⟩ := ih next
    refine ⟨bound, done, kept.trans others, forall_mem_cons.2 ⟨others.isSome ?_, inScope⟩⟩
    rw [Table.lookup_insert, if_pos rfl]
    rfl

/-- What the inside of a definition leaves behind when it is refused. -/
theorem checkInside_eq_error {outputs body checker after}
    (refused : checkInside args outputs body checker = .error refusal after) :
    after.outputs = outputs ∧ after.body = checker.body ∧
      ∀ param ∈ args, (after.vars.lookup param.name).isSome := by
  obtain ⟨bound, done, kept, inScope⟩ := bindParams_eq args checker
  have inside : checkBody body (bound.entering outputs) = .error refusal after := by
    rw [checkInside, bind_of_ok done] at refused
    exact refused
  have keeps : Keeps False _ (checkBody body) (bound.entering outputs) :=
    holds_checkBody body _ (fun _ _ => .admits) fun _ token => always_call _ _ token _
  rw [Keeps, inside] at keeps
  exact ⟨keeps.outputs, keeps.body.trans kept.body,
    fun param member => keeps.isSome (inScope param member)⟩

end Checker

/--
The scope after a refused definition is the one around it only if a default was refused; a use in
the default may be the first one of a name.  Otherwise the results are those of the definition, its
parameters are still in scope, and nothing depends on what was in scope before.
-/
theorem scope_of_refused_definition {form : DefinitionKind} {token : Token} {name : String}
    {args returns : List Param} {body : List Stmt} {checker after : Checker} {refusal : Refusal}
    (refused : Checker.checkStmt (.definition form token name args body returns) checker =
      .error refusal after) :
    Checker.SameTables checker after ∧ after.body = checker.body ∧
      match args.mapM (·.binding? checker.kind), returns.mapM (·.binding? checker.kind) with
      | some _, some outputs => after.outputs = outputs ∧
        (∀ param ∈ args, (after.vars.lookup param.name).isSome) ∧
        ∀ vars, Checker.checkStmt (.definition form token name args body returns)
          { checker with vars } = .error refusal after
      | _, _ => after.outputs = checker.outputs ∧
        ∀ id var, checker.vars.lookup id = some var →
          ∃ isFresh, after.vars.lookup id = some { var with isFresh } := by
  have same : SameTables checker after := by
    cases concluded_of_eq refused with
    | refused refused => exact refused.same
  have leaves {params : List Param} (failed : Checker.checkParams params checker =
      .error refusal after) : after.body = checker.body ∧ after.outputs = checker.outputs ∧
        ∀ id var, checker.vars.lookup id = some var →
          ∃ isFresh, after.vars.lookup id = some { var with isFresh } := by
    have kept := Checker.keeps_checkParams params checker
    rw [Checker.Keeps, failed] at kept
    refine ⟨kept.body, kept.outputs, fun id var found => ?_⟩
    obtain ⟨_, foundStill, same⟩ := kept.vars found
    obtain ⟨isFresh, rfl⟩ := same trivial
    exact ⟨isFresh, foundStill⟩
  refine ⟨same, ?_⟩
  cases inputs : args.mapM (·.binding? checker.kind) with
  | none =>
    obtain ⟨_, last, failed, _⟩ := refused_checkParams (fun _ _ _ _ _ _ => trivial) inputs
    rw [checkStmt, checkDefinition] at refused
    simp only [Bind.bind, EStateM.bind, failed] at refused
    cases refused
    exact leaves failed
  | some found =>
    have inputsDone := checkParams_of_mapM inputs
    cases results : returns.mapM (·.binding? checker.kind) with
    | none =>
      obtain ⟨_, last, failed, _⟩ := refused_checkParams (fun _ _ _ _ _ _ => trivial) results
      rw [checkStmt, checkDefinition] at refused
      simp only [Bind.bind, EStateM.bind, inputsDone, failed] at refused
      cases refused
      exact leaves failed
    | some outputs =>
      rw [checkStmt_definition inputsDone (checkParams_of_mapM results)] at refused
      cases inside : Checker.checkInside args outputs body { checker with vars := [] } with
      | ok typed inner =>
        rw [inside] at refused
        cases refused
      | error _ last =>
        rw [inside] at refused
        cases refused
        obtain ⟨isOutputs, isBody, inScope⟩ := Checker.checkInside_eq_error inside
        refine ⟨isBody, isOutputs, inScope, fun vars => ?_⟩
        let other : Checker := { checker with vars }
        have inputsAgain : Checker.checkParams args other = .ok found other :=
          checkParams_of_mapM inputs
        have resultsAgain : Checker.checkParams returns other = .ok outputs other :=
          checkParams_of_mapM results
        exact (checkStmt_definition inputsAgain resultsAgain).trans (by rw [inside])

theorem scope_of_refused_dividing :
    ∃ refusal after, Checker.checkStmt (.dividingDefinition "c") (.new .geometry []) =
        .error refusal after ∧ after.outputs.map (·.name) = ["a", "b"] ∧
      (after.vars.lookup "v").isSome := by
  obtain ⟨refusal, after, refused⟩ : ∃ refusal after,
      checkStmt (.dividingDefinition "c") (.new .geometry []) = .error refusal after := ⟨_, _, rfl⟩
  obtain ⟨_, _, isOutputs, inScope, _⟩ := scope_of_refused_definition refused
  refine ⟨refusal, after, refused, ?_, inScope _ mem_cons_self⟩
  rw [isOutputs]
  rfl

theorem refused_definition_leaks :
    ((Checker.new .geometry []).check "fn f(v: vec3) -> r: float { out s = v; }").2 = .ok false ∧
      (((Checker.new .geometry []).check "fn f(v: vec3) -> r: float { out s = v; }").1.check
        "a, b = v;").2 = .ok true ∧
      ((Checker.new .geometry []).check "a, b = v;").2 = .ok false := by
  decide +kernel

end NodeFormula
