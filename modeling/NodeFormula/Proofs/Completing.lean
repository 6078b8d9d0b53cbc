import NodeFormula.Proofs.Acceptance.Statements
import NodeFormula.Proofs.Sessions

/-!
# Completing behind a dot

Behind a dot the outputs of the call before it are offered, so the text up to the dot is read and
its last statement is searched for the dot.  Completing stops exactly where this reading comes to a
dead end, where there is no statement, and where something else than a dot stands at the place that
the token of the dot gives.
-/

namespace NodeFormula.Editor

open List NodeFormula.Parser

variable {editor next : Editor}

/--
The dot that completing looks for and the text up to there: the token at the cursor, if another one
stands before it, or the token before it.
-/
def Sought (editor : Editor) (before : Option Token) (token dot : Token)
    (text : List Char) : Prop :=
  if token.lexeme = "." then before ≠ none ∧ dot = token ∧
    text = editor.text.take (editor.lineOffset + (token.start + 1))
  else before = some dot ∧ dot.lexeme = "." ∧
    text = editor.text.take (editor.lineOffset + token.start)

/-- Nothing is offered yet, and a dot is looked for. -/
def Asks (editor : Editor) (dot : Token) (text : List Char) : Prop :=
  editor.suggestions = [] ∧ ∃ before token,
    tokenAtCursor editor.drawCol none (editor.tokens.getD editor.row []) = some (before, token) ∧
      editor.Sought before token dot text

/-- Why the dot cannot be found, with what is read where dead ends are reported. -/
def lost? [Evaluator] (dot : Token) (parsed : Parsed) : Option Fault :=
  match parsed.reports.findSome? deadEnd?, parsed.body.getLast? with
  | some fault, _ => some fault
  | none, none => some .listIndex
  | none, some stmt =>
    match stmt.find? dot.line dot.col with
    | none | some (.expr (.member ..)) => none
    | some _ => some (.broken "Dot token should be from attribute node")

theorem outputSuggestions_eq_error [Evaluator] :
    editor.outputSuggestions library kind dot start typed = .error fault ↔
      ∃ parsed, @Parser.parse _ forgiving
          (.ofSource (String.ofList (editor.text.take (editor.lineOffset + start)))) = .ok parsed ∧
        lost? dot parsed = some fault := by
  obtain ⟨parsed, forgiven, _, usual⟩ :=
    parse_eq_unlessDead (String.ofList (editor.text.take (editor.lineOffset + start)))
  rw [outputSuggestions, usual, forgiven, unlessDead]
  simp only [Except.ok.injEq, exists_eq_left', lost?]
  cases parsed.reports.findSome? deadEnd? with
  | some => simp [bind, Except.bind]
  | none =>
    simp only [bind, Except.bind]
    cases parsed.body.getLast? with
    | none => simp
    | some stmt =>
      simp only
      cases stmt.find? dot.line dot.col with
      | none => simp
      | some node =>
        cases node with
        | expr found =>
          cases found with
          | member _ value => cases isCalled : calledName? value <;> simp [isCalled]
          | _ => simp
        | _ => simp

theorem dotSuggestions_eq_error [Evaluator] :
    editor.dotSuggestions library kind before token = .error fault ↔
      ∃ dot text parsed, editor.Sought before token dot text ∧
        @Parser.parse _ forgiving (.ofSource (String.ofList text)) = .ok parsed ∧
        lost? dot parsed = some fault := by
  unfold Sought
  cases before with
  | none => simp [dotSuggestions]
  | some other =>
    rw [dotSuggestions]
    split_ifs with isDot behind
    · simp [outputSuggestions_eq_error]
    · simp [outputSuggestions_eq_error, behind]
    · simp_all

theorem complete_eq_error [Evaluator] : complete library kind editor = .error fault next ↔
    next = editor ∧ editor.suggestions = [] ∧ ∃ before token,
      tokenAtCursor editor.drawCol none (editor.tokens.getD editor.row []) = some (before, token) ∧
        editor.dotSuggestions library kind before token = .error fault := by
  rw [complete, bind_get]
  cases tokenAtCursor editor.drawCol none (editor.tokens.getD editor.row []) with
  | none => exact iff_of_false (by rintro ⟨⟩) (by simp)
  | some found =>
    obtain ⟨before, token⟩ := found
    cases editor.suggestions with
    | cons => exact iff_of_false (by rintro ⟨⟩) (by simp)
    | nil =>
      cases dotted : editor.dotSuggestions library kind before token with
      | error =>
        simp only [dotted]
        constructor
        · rintro ⟨⟩
          exact ⟨rfl, trivial, before, token, rfl, dotted⟩
        · rintro ⟨rfl, _, _, _, ⟨⟩, failed⟩
          cases dotted.symm.trans failed
          rfl
      | ok outputs =>
        refine iff_of_false ?_ (by simp [dotted])
        simp only [dotted]
        cases suggestionsFor outputs (functionNames library kind) token.lexeme <;> rintro ⟨⟩

/-- Completing stops exactly where its dot cannot be found, and changes nothing then. -/
theorem complete_stops_iff [Evaluator] (library : Library) (kind : String) (editor next : Editor)
    (fault : Fault) : complete library kind editor = .error fault next ↔ next = editor ∧
      ∃ dot text parsed, editor.Asks dot text ∧
        @Parser.parse _ forgiving (.ofSource (String.ofList text)) = .ok parsed ∧
        lost? dot parsed = some fault := by
  rw [complete_eq_error]
  simp only [dotSuggestions_eq_error, Asks]
  refine and_congr_right fun _ => ⟨?_, ?_⟩
  · rintro ⟨offersNone, before, token, found, dot, text, parsed, sought, fails⟩
    exact ⟨dot, text, parsed, ⟨offersNone, before, token, found, sought⟩, fails⟩
  · rintro ⟨dot, text, parsed, ⟨offersNone, before, token, found, sought⟩, fails⟩
    exact ⟨offersNone, before, token, found, dot, text, parsed, sought, fails⟩

theorem complete_stops_at_semicolon : ∃ last,
    complete .empty "GeometryNodeTree" (session ⟨0, 0⟩ [.paste "; .".toList]) =
      .error .listIndex last := by
  decide +kernel

end NodeFormula.Editor
