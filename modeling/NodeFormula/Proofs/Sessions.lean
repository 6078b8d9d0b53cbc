import NodeFormula.Calculation.Function
import NodeFormula.Proofs.Catalog
import NodeFormula.Proofs.Editing

/-!
# Sessions of the editor

A session performs commands in any order.  Every state it goes through is consistent, also where a
command stopped with a fault: the lines and their tokens agree, and the cursor stands in one of
the lines.  So typing, deleting and moving the cursor act on the text as on one flat piece of
it.  Pasting inserts a text as it is, if no blank line of it stops the indentation; where the text
ends with a line end, the rest of the line gives way to blanks.  A line is broken where the cursor
is drawn, but a brace that asks for more indentation is looked for where the cursor was put.

Completing writes names, and a name with a line end would break a line.  Those of the catalog have
none.
-/

namespace NodeFormula

open List Catalog

/-! ## The names that are offered -/

namespace Catalog

theorem unbroken_ofList (free : letters.elem '\n' = false) : Unbroken (String.ofList letters) := by
  simpa [Unbroken] using free

theorem unbroken_family (named : Unbroken name)
    (labelled : ∀ choice ∈ choices, ∀ setting ∈ choice.settings, Unbroken setting.label) :
    ∀ entry ∈ family name key inputs outputs choices, Unbroken entry.1 := by
  induction choices generalizing name inputs outputs with
  | nil => simpa [family] using named
  | cons choice choices ih =>
    obtain ⟨_, later⟩ := forall_mem_cons.1 labelled
    intro entry member
    simp only [family, mem_flatMap, mem_map] at member
    obtain ⟨setting, _, inner, within, rfl⟩ := member
    refine ih ?_ later inner within
    simp_all [Unbroken]

theorem unbroken_varied (named : Unbroken name)
    (labelled : ∀ variant ∈ variants, ∀ choice ∈ variant.2.2, ∀ setting ∈ choice.settings,
      Unbroken setting.label) : ∀ entry ∈ varied name key usual variants, Unbroken entry.1 := by
  refine forall_mem_cons.2 ⟨named, fun entry member => ?_⟩
  obtain ⟨variant, isVariant, within⟩ := mem_flatMap.1 member
  exact unbroken_family named (labelled variant isVariant) entry within

-- The tables are walked through entry by entry, down to the letters of the names.
theorem unbroken_aliases :
    ∀ tables ∈ [geometryAliasesAccumulateToFill, geometryAliasesFilletToSet,
      geometryAliasesSetToVolume, shaderAliasesAddToWorld, sharedAliasesBrickToWhite],
    ∀ table ∈ tables, ∀ entry ∈ table, Unbroken entry.1 := by
  repeat' first
    | exact unbroken_ofList rfl
    | apply unbroken_varied
    | refine forall_mem_cons.2 ⟨?_, ?_⟩
    | exact forall_mem_nil _

theorem unbroken_overloads :
    ∀ table ∈ [sharedOverloads, geometryOverloads, shaderOverloads],
    ∀ entry ∈ table, Unbroken entry.1 := by
  repeat' first
    | exact unbroken_ofList rfl
    | refine forall_mem_cons.2 ⟨?_, ?_⟩
    | exact forall_mem_nil _

theorem unbroken_outputs :
    ∀ table ∈ [functionShapes, geometryShapesAccumulateToImage, geometryShapesInputToReverse,
      geometryShapesRotateToVolume, shaderShapesAddToShader, shaderShapesSubsurfaceToWireframe],
    ∀ entry ∈ table, ∀ output ∈ entry.2.outputs, Unbroken output.1 := by
  repeat' first
    | exact unbroken_ofList rfl
    | refine forall_mem_cons.2 ⟨?_, ?_⟩
    | exact forall_mem_nil _

end Catalog

/-- No function of the user and no output of one has a line end in its name. -/
def Library.Unbroken (library : Library) : Prop :=
  ∀ kind, ∀ entry ∈ library.functions kind, NodeFormula.Unbroken entry.1 ∧
    ∀ function ∈ entry.2, ∀ output ∈ function.outputs, NodeFormula.Unbroken output.name

namespace Editor

variable {editor : Editor}

theorem unbroken_functionNames (unbroken : library.Unbroken) (kind : String) :
    ∀ name ∈ functionNames library kind, Unbroken name := by
  have overloads := Catalog.unbroken_overloads
  have aliases := Catalog.unbroken_aliases
  simp only [forall_mem_cons] at overloads aliases
  obtain ⟨sharedOverloads, geometryOverloads, shaderOverloads, _⟩ := overloads
  obtain ⟨first, second, third, shader, shared, _⟩ := aliases
  simp only [functionNames, forall_mem_append, forall_mem_map, sharedAliases,
    ofShader, forall_mem_flatten]
  refine ⟨⟨⟨⟨sharedOverloads, ?_⟩, fun entry member => (unbroken _ entry member).1⟩, shared⟩, ?_⟩
  · cases completionKind kind with
    | geometry => exact geometryOverloads
    | shader => exact shaderOverloads
  · cases completionKind kind with
    | geometry =>
      simp only [TreeKind.ownAliases, geometryAliases, forall_mem_flatten,
        forall_mem_append]
      exact ⟨⟨first, second⟩, third⟩
    | shader =>
      simp only [TreeKind.ownAliases, shaderAliases, ofShader, forall_mem_map,
        forall_mem_flatten]
      exact shader

theorem unbroken_outputNames (key : String) : ∀ name ∈ outputNames key, Unbroken name := by
  have outputs := Catalog.unbroken_outputs
  simp only [forall_mem_cons] at outputs
  obtain ⟨functions, first, second, third, fourth, fifth, _⟩ := outputs
  have named : ∀ entry ∈ shapes, ∀ output ∈ entry.2.outputs, Unbroken output.1 := by
    simp only [shapes, geometryShapes, shaderShapes, forall_mem_append]
    exact ⟨⟨functions, ⟨first, second⟩, third⟩, fourth, fifth⟩
  rw [outputNames]
  cases found : shape? key with
  | none => exact nofun
  | some shape =>
    exact forall_mem_map.2 (named (key, shape) (mem_of_lookup found))

theorem unbroken_candidateNames (known : candidateNames? tables candidate = some names) :
    ∀ name ∈ names, Unbroken name := by
  match candidate with
  | .direct recipe =>
    cases known
    exact unbroken_outputNames recipe.key
  | .alias _ =>
    obtain ⟨recipe, _, rfl⟩ := Option.map_eq_some_iff.1 known
    exact unbroken_outputNames recipe.key

theorem unbroken_builtinNames (known : builtinNames? kind function = some names) :
    ∀ name ∈ names, Unbroken name := by
  rw [builtinNames?] at known
  split at known
  · obtain ⟨_, _, named⟩ := Option.bind_eq_some_iff.1 known
    exact unbroken_candidateNames named
  · split at known
    · cases known
    · exact unbroken_candidateNames known

theorem unbroken_userNames (unbroken : library.Unbroken) (kind function : String) :
    ∀ name ∈ userNames library kind function, Unbroken name := by
  rw [userNames]
  split
  · exact nofun
  · split
    · rename_i kind _ _ first found
      obtain ⟨_, listed, head⟩ := Option.bind_eq_some_iff.1 found
      exact forall_mem_map.2
        ((unbroken kind _ (mem_of_lookup listed)).2 first (mem_of_head? head))
    · exact nofun

theorem unbroken_outputSuggestions [Evaluator] (unbroken : library.Unbroken)
    (offered : editor.outputSuggestions library kind dot start typed = .ok outputs) :
    ∀ name ∈ outputs, Unbroken name := by
  rw [outputSuggestions] at offered
  cases read : parse (String.ofList (editor.text.take (editor.lineOffset + start))) with
  | error fault => simp [read, bind, Except.bind] at offered
  | ok parsed =>
    simp only [read, bind, Except.bind] at offered
    split at offered
    · cases offered
    · split at offered
      · cases offered
        exact nofun
      · split at offered
        · cases offered
          exact nofun
        · rename_i function _
          cases offered
          intro name member
          have among := (mem_filter.1 member).1
          cases known : builtinNames? kind function with
          | some names => exact unbroken_builtinNames known name (by simpa [known] using among)
          | none =>
            exact unbroken_userNames unbroken kind function name (by simpa [known] using among)
      · cases offered

theorem unbroken_dotSuggestions [Evaluator] (unbroken : library.Unbroken)
    (offered : editor.dotSuggestions library kind before token = .ok outputs) :
    ∀ name ∈ outputs, Unbroken name := by
  cases before with
  | none =>
    cases offered
    exact nofun
  | some before =>
    rw [dotSuggestions] at offered
    split_ifs at offered
    · exact unbroken_outputSuggestions unbroken offered
    · exact unbroken_outputSuggestions unbroken offered
    · cases offered
      exact nofun

theorem unbroken_suggestionsFor (first : ∀ name ∈ outputs, Unbroken name)
    (second : ∀ name ∈ names, Unbroken name) (typed : String) :
    ∀ name ∈ suggestionsFor outputs names typed, Unbroken name := by
  intro name member
  rw [suggestionsFor] at member
  split_ifs at member
  · cases member
  · simp only [similarNames, mem_map, mem_mergeSort, mem_filter] at member
    obtain ⟨_, ⟨⟨other, listed, rfl⟩, _⟩, rfl⟩ := member
    exact second other listed
  · simp only [mem_mergeSort, mem_append, mem_filter] at member
    rcases member with output | ⟨function, _⟩
    · exact first name output
    · exact second name function

/-! ## Completing -/

namespace Cut

variable {text : List Char}

theorem offering (cut : editor.Cut above front back below)
    (unbroken : ∀ name ∈ names, Unbroken name) :
    Cut { editor with suggestions := names } above front back below :=
  ⟨cut.lines, cut.row, cut.drawCol, cut.unbroken, cut.tokens, unbroken⟩

theorem replaceToken (cut : editor.Cut above front back below) (token : Token)
    (unbroken : '\n' ∉ text) :
    (editor.replaceToken token text).Cut above (editor.line.take token.start ++ text)
      (editor.line.drop (token.start + token.lexeme.length)) below := by
  have line : '\n' ∉ editor.line := by simp [cut.line_eq, cut.unbroken_line]
  refine cut.rewrite ?_ rfl rfl
  simp only [mem_append, not_or]
  exact ⟨⟨fun first => line (mem_of_mem_take first), unbroken⟩,
    fun last => line (mem_of_mem_drop last)⟩

theorem insert (cut : editor.Cut above front back below) (unbroken : '\n' ∉ text) :
    (editor.insert text).Cut above (front ++ text) back below := by
  refine cut.rewrite ?_ (cut.lineWith_eq text) (by simp [cut.drawCol])
  simp [cut.lineWith_eq, cut.unbroken_line, unbroken]

end Cut

theorem unbroken_quotedName (unbroken : Unbroken name) : '\n' ∉ quotedName name := by
  rw [quotedName]
  split_ifs
  · simpa [Unbroken] using unbroken
  · exact unbroken

theorem Consistent.complete [Evaluator] (consistent : editor.Consistent)
    (unbroken : library.Unbroken) (kind : String) :
    Settles (fun _ => True) (fun _ next => next.Consistent)
      (Editor.complete library kind editor) := by
  obtain ⟨_, _, _, _, cut⟩ := consistent.cut
  have rotated {next : String} {rest : List String} (all : ∀ name ∈ next :: rest, Unbroken name) :
      ∀ name ∈ rest ++ [next], Unbroken name := by
    intro name member
    exact all name (by simpa [or_comm] using member)
  rw [Editor.complete, bind_get]
  cases tokenAtCursor editor.drawCol none (editor.tokens.getD editor.row []) with
  | none => exact consistent
  | some found =>
    obtain ⟨before, token⟩ := found
    cases offers : editor.suggestions with
    | cons next rest =>
      have all := offers ▸ cut.suggestions
      have replaced := cut.replaceToken token (unbroken_quotedName (all next (by simp)))
      exact (replaced.offering (rotated all)).consistent rfl
    | nil =>
      simp only
      cases dotted : editor.dotSuggestions library kind before token with
      | error fault => exact ⟨trivial, consistent⟩
      | ok outputs =>
        have all := unbroken_suggestionsFor (unbroken_dotSuggestions unbroken dotted)
          (unbroken_functionNames unbroken kind) token.lexeme
        simp only
        cases suggested : suggestionsFor outputs (functionNames library kind) token.lexeme with
        | nil => exact consistent
        | cons next rest =>
          rw [suggested] at all
          have name := all next (by simp)
          by_cases dot : token.lexeme = "."
          · simp only [dot]
            exact ((cut.insert name).offering (rotated all)).consistent rfl
          · simp only [dot]
            exact ((cut.replaceToken token name).offering (rotated all)).consistent rfl

/-! ## Sessions -/

/-- What the user of an editor can do. -/
inductive Command
  | type (char : Char)
  | paste (text : List Char)
  | newLine
  | deleteBefore
  | deleteAfter
  | up
  | down
  | left
  | right
  | home
  | toEnd
  | complete (library : Library) (kind : String)
  | replaceText (text : List Char)

namespace Command

def perform [Evaluator] : Command → Edit Unit
  | .type char => modify (Editor.type · [char])
  | .paste text => Editor.paste text
  | .newLine => Editor.newLine
  | .deleteBefore => modify Editor.deleteBefore
  | .deleteAfter => modify Editor.deleteAfter
  | .up => modify Editor.up
  | .down => modify Editor.down
  | .left => modify Editor.left
  | .right => modify Editor.right
  | .home => modify Editor.home
  | .toEnd => modify Editor.toEnd
  | .complete library kind => Editor.complete library kind
  | .replaceText text => Editor.replaceText text

/-- A line end is not typed, and no function of the user has one in a name. -/
def Allowed : Command → Prop
  | .type char => char ≠ '\n'
  | .complete library _ => library.Unbroken
  | _ => True

/-- The state after a command, also after one that stopped with a fault. -/
def after [Evaluator] (command : Command) (editor : Editor) : Editor :=
  match command.perform editor with
  | .ok _ next | .error _ next => next

end Command

def session [Evaluator] (pos : Point) (commands : List Command) : Editor :=
  commands.foldl (fun editor command => command.after editor) (.new pos)

theorem consistent_new (pos : Point) : (new pos).Consistent := by
  have none : lineTokens [] = [] := lineTokens_blanks 0
  have cut : (new pos).Cut [] [] [] [] :=
    ⟨rfl, rfl, rfl, by simp [new], by simp [new, none], nofun⟩
  exact cut.consistent rfl

theorem Consistent.after [Evaluator] (consistent : editor.Consistent) {command : Command}
    (allowed : command.Allowed) : (command.after editor).Consistent := by
  have settled {operation : Edit Unit} {stops : Fault → Prop} {good : Unit → Editor → Prop}
      (settles : Settles stops good (operation editor))
      (implies : ∀ value next, good value next → next.Consistent) :
      (match operation editor with | .ok _ next | .error _ next => next).Consistent := by
    revert settles
    cases operation editor with
    | ok value next => exact implies value next
    | error fault next => exact And.right
  obtain ⟨_, _, _, _, cut⟩ := consistent.cut
  obtain ⟨_, _, _, _, fresh⟩ := (consistent_new editor.pos).cut
  have pasted {buffer : Nat → Buffer} {found : Option Nat} : ∀ (_ : Unit) (next : Editor),
      (∃ indent, found = some indent ∧ next.Shows (buffer indent)) → next.Consistent := by
    rintro _ next ⟨indent, _, shows⟩
    exact shows.consistent
  cases command with
  | type char => exact (cut.shows_type allowed).consistent
  | paste text => exact settled (cut.paste text) pasted
  | newLine =>
    refine settled cut.newLine ?_
    rintro _ next ⟨indent, _, put, broken⟩
    exact broken.consistent (by rw [put, broken.drawCol, length_replicate])
  | deleteBefore => exact cut.shows_deleteBefore.consistent
  | deleteAfter => exact cut.shows_deleteAfter.consistent
  | up => exact consistent.up
  | down => exact consistent.down
  | left => exact cut.shows_left.consistent
  | right => exact cut.shows_right.consistent
  | home => exact cut.shows_home.consistent
  | toEnd => exact cut.shows_toEnd.consistent
  | complete library kind => exact settled (consistent.complete allowed kind) fun _ _ => id
  | replaceText text => exact settled (fresh.paste text) pasted

theorem consistent_session [Evaluator] (pos : Point)
    (allowed : ∀ command ∈ commands, command.Allowed) : (session pos commands).Consistent := by
  have run {editor : Editor} (consistent : editor.Consistent) :
      (commands.foldl (fun editor command => command.after editor) editor).Consistent := by
    induction commands generalizing editor with
    | nil => exact consistent
    | cons command commands ih =>
      obtain ⟨now, later⟩ := forall_mem_cons.1 allowed
      exact ih later (consistent.after now)
  exact run (consistent_new pos)

/--
In every state of a session the lines and their tokens go together and the cursor stands in one of
the lines, drawn where it was put or at the end of the line.
-/
theorem session_representation [Evaluator] (pos : Point) (commands : List Command)
    (allowed : ∀ command ∈ commands, command.Allowed) : let editor := session pos commands
    editor.tokens.length = editor.lines.length ∧ 1 ≤ editor.lines.length ∧
      (∀ line ∈ editor.lines, '\n' ∉ line) ∧ editor.row < editor.lines.length ∧
      editor.drawCol = min editor.col (editor.lineAt editor.row).length ∧
      ∀ row < editor.lines.length,
        (editor.tokens.getD row []).map Token.inLine = lineTokens (editor.lineAt row) := by
  have consistent := consistent_session pos allowed
  obtain ⟨above, front, back, below, cut⟩ := consistent.cut
  have inLines : (session pos commands).row < (session pos commands).lines.length := by
    simp [cut.row, cut.lines]
  refine ⟨?_, Nat.zero_lt_of_lt inLines, cut.unbroken, inLines, consistent.drawn, ?_⟩
  · simpa using congrArg List.length cut.tokens
  · exact fun row _ => cut.alike row

/-- Two lines are pasted, the first is divided behind a completed name, a letter is taken back. -/
def drafting : List Command :=
  [.paste "x = si\ny".toList, .up, .toEnd, .complete .empty "GeometryNodeTree", .newLine,
    .type 'z', .deleteBefore]

theorem allowed_drafting : ∀ command ∈ drafting, command.Allowed := by
  have unbroken : Library.empty.Unbroken := by rintro (_ | _) <;> exact nofun
  simp [drafting, Command.Allowed, unbroken]

theorem session_representation_drafting : let editor := session ⟨0, 0⟩ drafting
    editor.tokens.length = editor.lines.length ∧ 1 ≤ editor.lines.length ∧
      (∀ line ∈ editor.lines, '\n' ∉ line) ∧ editor.row < editor.lines.length ∧
      editor.drawCol = min editor.col (editor.lineAt editor.row).length ∧
      ∀ row < editor.lines.length,
        (editor.tokens.getD row []).map Token.inLine = lineTokens (editor.lineAt row) :=
  session_representation _ _ allowed_drafting

/--
In every state of a session typing, deleting and moving sideways act on the flat text and the place
of the cursor in it.  Moving up or down does not change the text.
-/
theorem session_refines_buffer [Evaluator] (pos : Point) (commands : List Command)
    (allowed : ∀ command ∈ commands, command.Allowed) (char : Char) (typed : char ≠ '\n') :
    let editor := session pos commands
    (editor.type [char]).buffer = editor.buffer.insert char ∧
      editor.deleteBefore.buffer = editor.buffer.deleteBefore ∧
      editor.deleteAfter.buffer = editor.buffer.deleteAfter ∧
      editor.left.buffer = editor.buffer.left ∧ editor.right.buffer = editor.buffer.right ∧
      editor.home.buffer = editor.buffer.toLineStart ∧
      editor.toEnd.buffer = editor.buffer.toLineEnd ∧
      editor.up.text = editor.text ∧ editor.down.text = editor.text := by
  obtain ⟨above, front, back, below, cut⟩ := (consistent_session pos allowed).cut
  refine ⟨(cut.shows_type typed).buffer_eq, cut.shows_deleteBefore.buffer_eq,
    cut.shows_deleteAfter.buffer_eq, cut.shows_left.buffer_eq, cut.shows_right.buffer_eq,
    cut.shows_home.buffer_eq, cut.shows_toEnd.buffer_eq, ?_, ?_⟩
  · rw [up]
    split_ifs <;> rfl
  · rw [down]
    split_ifs <;> rfl

theorem session_refines_buffer_drafting : let editor := session ⟨0, 0⟩ drafting
    (editor.type ['w']).buffer = editor.buffer.insert 'w' ∧
      editor.deleteBefore.buffer = editor.buffer.deleteBefore ∧
      editor.deleteAfter.buffer = editor.buffer.deleteAfter ∧
      editor.left.buffer = editor.buffer.left ∧ editor.right.buffer = editor.buffer.right ∧
      editor.home.buffer = editor.buffer.toLineStart ∧
      editor.toEnd.buffer = editor.buffer.toLineEnd ∧
      editor.up.text = editor.text ∧ editor.down.text = editor.text :=
  session_refines_buffer _ _ allowed_drafting 'w' (by decide)

/-- What pasting does to a flat text if the lines can be indented; otherwise it stops. -/
def Pastes (buffer : Buffer) (text : List Char) :
    Option Nat → EStateM.Result Fault Editor Unit → Prop
  | none, .error fault _ => fault = .textIndex
  | some indent, .ok _ next => next.buffer = buffer.pasteText text indent
  | _, _ => False

theorem Cut.pastes (cut : editor.Cut above front back below) (text : List Char) :
    Pastes editor.buffer text
      (lastIndent editor.col (splitLines (editor.line.take editor.drawCol ++ text)).dropLast)
      (Editor.paste text editor) := by
  have settles := cut.paste text
  revert settles
  rw [cut.line_eq, cut.drawCol, take_left]
  cases Editor.paste text editor with
  | ok _ next =>
    rintro ⟨indent, isIndent, shows⟩
    rw [isIndent]
    exact shows.buffer_eq
  | error fault next =>
    rintro ⟨⟨isFault, noIndent⟩, _⟩
    rw [noIndent]
    exact isFault

/--
In every state of a session a text is pasted as it is, unless it ends with a line end or breaks a
line that is empty up to there in the first column.
-/
theorem session_pastes [Evaluator] (pos : Point) (commands : List Command)
    (allowed : ∀ command ∈ commands, command.Allowed) (text : List Char) :
    let editor := session pos commands
    Pastes editor.buffer text
        (lastIndent editor.col (splitLines (editor.line.take editor.drawCol ++ text)).dropLast)
        (Editor.paste text editor) ∧
      Pastes ⟨[], 0⟩ text (lastIndent 0 (splitLines text).dropLast)
        (Editor.replaceText text editor) := by
  obtain ⟨_, _, _, _, cut⟩ := (consistent_session pos allowed).cut
  obtain ⟨_, _, _, _, fresh⟩ := (consistent_new (session pos commands).pos).cut
  exact ⟨cut.pastes text, fresh.pastes text⟩

theorem session_pastes_drafting : let editor := session ⟨0, 0⟩ drafting
    Pastes editor.buffer "\ta\n".toList (lastIndent editor.col
          (splitLines (editor.line.take editor.drawCol ++ "\ta\n".toList)).dropLast)
        (Editor.paste "\ta\n".toList editor) ∧
      Pastes ⟨[], 0⟩ "\ta\n".toList (some 1) (Editor.replaceText "\ta\n".toList editor) :=
  session_pastes _ _ allowed_drafting "\ta\n".toList

/-- A blank line stops the text of a formula, and a tab stays in it. -/
theorem replaceText_stops_at_blank :
    (match Editor.replaceText "a\n\nb".toList (.new ⟨0, 0⟩) with
      | .ok _ _ => none
      | .error fault _ => some fault) = some Fault.textIndex ∧
    (match Editor.replaceText "a\tb".toList (.new ⟨0, 0⟩) with
      | .ok _ next => next.text
      | .error _ _ => []) = "a\tb".toList := by
  decide +kernel

/-! ## Breaking lines -/

theorem Consistent.indent_iff (consistent : editor.Consistent)
    (cut : editor.Cut above front back below)
    (isNext : nextIndent editor.col editor.line = some indent) :
    indent = indentBelow editor.line front.getLast? ↔
      0 < editor.col ∧ editor.col ≤ editor.line.length ∨
        editor.line.getLast? ≠ some blockOpener := by
  have drawn := cut.drawCol.symm.trans consistent.drawn
  have whole := cut.line_eq
  rw [nextIndent] at isNext
  split_ifs at isNext with atStart
  · rw [atStart, Nat.zero_min, length_eq_zero_iff] at drawn
    obtain ⟨_, isLast, rfl⟩ := Option.map_eq_some_iff.1 isNext
    simp [drawn, isLast, atStart, indentBelow]
  · cases isNext
    rw [getLast?_eq_getElem?, drawn]
    rcases Nat.lt_or_ge editor.line.length editor.col with outside | inside
    · rw [Nat.min_eq_right (Nat.le_of_lt outside)] at drawn ⊢
      have same : front = editor.line := by
        rw [whole] at drawn ⊢
        have empty : back = [] := by
          rw [length_append] at drawn
          exact eq_nil_of_length_eq_zero (by omega)
        rw [empty, append_nil]
      rw [same, ← getLast?_eq_getElem?, getElem?_eq_none (by omega)]
      simp [indentBelow, Nat.not_le_of_lt outside]
    · rw [whole, getElem?_append_left (by omega)]
      simp [← whole, inside, Nat.pos_of_ne_zero atStart]

/--
In every state of a session: the line of the cursor is broken unless it is empty with the cursor
put into its first column.  What was behind the cursor is indented, and by as much as the line and
the character before the cursor ask for, unless the line ends with an opening brace and the cursor
was put into the first column or behind the end.
-/
theorem session_breaks_line [Evaluator] (pos : Point) (commands : List Command)
    (allowed : ∀ command ∈ commands, command.Allowed) :
    let editor := session pos commands
    ∃ above front back below, editor.lines = above ++ (front ++ back) :: below ∧
      editor.row = above.length ∧ editor.drawCol = front.length ∧
      (front ++ back = [] ∧ editor.col = 0 →
        newLine editor = .error .textIndex editor.withoutSuggestions) ∧
      (¬ (front ++ back = [] ∧ editor.col = 0) → ∃ indent next, newLine editor = .ok () next ∧
        nextIndent editor.col (front ++ back) = some indent ∧
        next.lines = above ++ front :: (replicate indent ' ' ++ back) :: below ∧
        next.row = editor.row + 1 ∧ next.col = indent ∧ next.drawCol = indent ∧
        (indent = indentBelow (front ++ back) front.getLast? ↔
          0 < editor.col ∧ editor.col ≤ (front ++ back).length ∨
            (front ++ back).getLast? ≠ some blockOpener)) := by
  intro editor
  have consistent := consistent_session pos allowed
  obtain ⟨above, front, back, below, cut⟩ := consistent.cut
  have whole := cut.line_eq
  refine ⟨above, front, back, below, cut.lines, cut.row, cut.drawCol, ?_, ?_⟩
  · rintro ⟨empty, atStart⟩
    rw [newLine_eq, nextIndent_eq_none.2 ⟨atStart, whole.trans empty⟩]
  · intro proper
    rw [← whole] at proper ⊢
    obtain ⟨indent, isNext⟩ := Option.ne_none_iff_exists'.1 fun none =>
      proper (nextIndent_eq_none.1 none).symm
    have broken := cut.withoutSuggestions.broken indent
    refine ⟨indent, editor.withoutSuggestions.broken indent, ?_, isNext, ?_, ?_, col_broken _ _, ?_,
      consistent.indent_iff cut isNext⟩
    · rw [newLine_eq, isNext]
    · rw [broken.lines, append_assoc, singleton_append]
    · rw [broken.row, length_append, cut.row, length_singleton]
    · rw [broken.drawCol, length_replicate]

theorem session_breaks_line_typed :
    ∃ indent next, newLine (session ⟨0, 0⟩ [.type 'a']) = .ok () next ∧ next.col = indent := by
  obtain ⟨_, front, back, _, _, _, _, _, breaks⟩ := session_breaks_line ⟨0, 0⟩ [.type 'a']
    (forall_mem_singleton.2 (by decide : 'a' ≠ '\n'))
  obtain ⟨indent, next, done, _, _, _, isCol, _⟩ := breaks fun stuck => nomatch stuck.2
  exact ⟨indent, next, done, isCol⟩

theorem newLine_stops_at_start :
    newLine (session ⟨0, 0⟩ []) = .error .textIndex (.new ⟨0, 0⟩) := rfl

end Editor

end NodeFormula
