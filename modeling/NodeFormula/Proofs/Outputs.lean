import NodeFormula.Proofs.Derivation
import NodeFormula.Proofs.Sessions

/-!
# Outputs that are offered

Behind the dot of a call all sockets of the first node of its name are offered.  What can be read
there are the outputs in use of the node that the call is checked to, or the components of a single
one.
-/

namespace NodeFormula

open List

namespace Checker

variable {after : Checker}

theorem isEmpty_nodeCall (outputs : recipe.outputs ≠ []) :
    isEmpty (.nodeCall (resultInfo recipe.results) recipe args) = false := by
  unfold NodeRecipe.results resultInfo
  match isOutputs : recipe.outputs with
  | [] => exact absurd isOutputs outputs
  | [_] | _ :: _ :: _ => rfl

theorem readOutput_unknown (valued : isEmpty value = false) (unknown : attr ∉ value.info.names) :
    readOutput value attr token checker =
      .error .rejected (checker.reporting (unknownOutput attr value.info.names) token) := by
  have isUnknown : value.info.names.contains attr = false := by simpa using unknown
  simp only [readOutput, isUnknown, valued]
  rfl

theorem types_resultInfo (results : List (String × DataType)) :
    (resultInfo results).types = results.map (·.2) := by
  match results with
  | [] | [_] | _ :: _ :: _ => rfl

theorem readOutput_plain (plain : (resultInfo results).names = results.map (·.1))
    (listed : attr ∈ (resultInfo results).names) :
    ∃ typed, readOutput (.nodeCall (resultInfo results) recipe args) attr token checker =
      .ok typed checker := by
  have inside : (resultInfo results).names.idxOf attr < (resultInfo results).types.length := by
    rw [types_resultInfo, length_map, ← length_map (·.1), ← plain]
    exact idxOf_lt_length_of_mem listed
  obtain ⟨typed, reads⟩ : ∃ typed,
      outputAt attr (.nodeCall (resultInfo results) recipe args) checker = .ok typed checker := by
    simp only [outputAt, bind_of_ok (typesOf_eq checker _), TypedExpr.info, currentTypes,
      getElem?_eq_getElem inside]
    exact ⟨_, rfl⟩
  have isKnown := contains_iff_mem.2 listed
  refine ⟨typed, .trans ?_ reads⟩
  rcases results with _ | ⟨⟨name, type⟩, _ | _⟩
  · cases plain ▸ listed
  · simp only [readOutput, TypedExpr.info, isKnown]
    cases type with
    | vec3 | rgba => cases plain
    | _ => rfl
  · simp only [readOutput, TypedExpr.info, isKnown]
    rfl

end Checker
end NodeFormula

namespace NodeFormula.Editor

open List Checker

variable {checker after : Checker}

theorem info_of_nodeCall {call : Expr}
    (checked : checkExpr call checker = .ok (.nodeCall info recipe args) after) :
    info = resultInfo recipe.results := by
  cases derives_checkExpr checked with
  | @call _ _ _ _ _ callable _ _ _ _ _ _ isCall =>
    cases callable <;> cases isCall
    rfl

/--
Behind the dot of a call of a built-in function the sockets of its first node are offered.  Where
the call is checked to a node with outputs, a name that this node does not show is rejected as
unknown.  If it has no single output with components, the others are accepted, which are those of
its outputs in use.
-/
theorem offered_outputs [Evaluator] {call : Expr} {function : String} {offers : List String}
    {info : TypeInfo} {recipe : NodeRecipe} {args : List TypedExpr}
    (called : calledName? call = some function)
    (offered : builtinNames? checker.kind.label function = some offers)
    (checked : checkExpr call checker = .ok (.nodeCall info recipe args) after)
    (outputs : recipe.outputs ≠ []) :
    (∀ (editor : Editor) (library : Library) dot start parsed stmt owner attr,
      parse (String.ofList (editor.text.take (editor.lineOffset + start))) = .ok parsed →
      parsed.body.getLast? = some stmt →
      stmt.find? dot.line dot.col = some (.expr (.member owner call attr)) →
      editor.outputSuggestions library checker.kind.label dot start "" = .ok offers) ∧
    ∀ name ∈ offers, ∀ token,
      (name ∉ info.names → checkExpr (.member token call name) checker = .error .rejected
        (after.reporting (unknownOutput name info.names) token)) ∧
      (info.names = recipe.results.map (·.1) → name ∈ info.names →
        ∃ typed, checkExpr (.member token call name) checker = .ok typed after) := by
  obtain rfl := info_of_nodeCall checked
  refine ⟨?_, fun name _ token => ?_⟩
  · intro editor library dot start parsed stmt owner attr parses isLast found
    rw [outputSuggestions, parses]
    simp [Bind.bind, Except.bind, isLast, found, called, offered]
  · rw [checkExpr, bind_of_ok checked]
    exact ⟨readOutput_unknown (isEmpty_nodeCall outputs), readOutput_plain⟩

/-- The call makes a node with outputs, but none goes by this name. -/
def hidesOutput (name : String) : TypedExpr → Bool
  | .nodeCall info recipe _ => recipe.outputs ≠ [] ∧ name ∉ info.names
  | _ => false

theorem offered_outputs_position : let token : Token := ⟨.identifier, "position", 1, 0, 0, none⟩
    ∃ info : TypeInfo, ∃ after : Checker, "position" ∉ info.names ∧
      checkExpr (.member token (.call token token "position" [] []) "position")
        (.new .geometry []) =
        .error .rejected (after.reporting (unknownOutput "position" info.names) token) := by
  intro token
  have offered : builtinNames? (Checker.new .geometry []).kind.label "position" =
      some ["position"] := by
    decide +kernel
  obtain ⟨typed, after, checked, hides⟩ : ∃ typed after,
      checkExpr (.call token token "position" [] []) (.new .geometry []) = .ok typed after ∧
        hidesOutput "position" typed = true := by decide +kernel
  cases typed with
  | nodeCall info =>
    obtain ⟨outputs, unknown⟩ := of_decide_eq_true hides
    exact ⟨info, after, unknown,
      ((offered_outputs rfl offered checked outputs).2 "position" mem_cons_self token).1 unknown⟩
  | _ => cases hides

theorem position_offered_unknown :
    (session ⟨0, 0⟩ [.paste "position().".toList, .complete ⟨[], []⟩ "GeometryNodeTree"]).lines =
      ["position().position".toList] ∧
    ((Checker.new .geometry []).check "position().position;").2.toOption = some false := by
  decide +kernel

end NodeFormula.Editor
