import NodeFormula.Editor
import NodeFormula.Library
import NodeFormula.Syntax.Node

/-!
# Completing names

After a dot, completion offers the outputs of the call before it; otherwise the functions whose
names start with the token before the cursor, or are spelt nearly like it.  Asking again offers
the next one.
-/

namespace NodeFormula.Editor

variable [Evaluator]

def completionKind (kind : String) : TreeKind :=
  if kind = TreeKind.geometry.label then .geometry else .shader

def outputNames (key : String) : List String :=
  ((Catalog.shape? key).map fun shape => shape.outputs.map (·.1)).getD []

def candidateNames? (tables : List (List (String × NodeRecipe))) : Candidate → Option (List String)
  | .direct recipe => some (outputNames recipe.key)
  | .alias name =>
    (tables.findSome? fun table => table.lookup name).map fun recipe => outputNames recipe.key

def builtinNames? (kind : String) (name : String) : Option (List String) :=
  match Catalog.sharedOverloads.lookup name with
  | some candidates =>
    candidates.head?.bind fun candidate => candidateNames? [Catalog.sharedAliases] candidate
  | none =>
    match TreeKind.ofLabel kind with
    | .error _ => none
    | .ok kind =>
      let candidate := match kind.overloads.lookup name with
        | some candidates => candidates.headD (.alias name)
        | none => .alias name
      candidateNames? [Catalog.sharedAliases, kind.ownAliases] candidate

def userNames (library : Library) (kind : String) (name : String) : List String :=
  match TreeKind.ofLabel kind with
  | .error _ => []
  | .ok kind =>
    match ((library.functions kind).lookup name).bind (·.head?) with
    | some function => function.outputs.map (·.name)
    | none => []

def calledName? : Expr → Option String
  | .call _ _ id _ _ => some id
  | .method _ _ _ attr _ _ => some attr
  | _ => none

def lineOffset (editor : Editor) : Nat :=
  (editor.lines.take editor.row).foldr (·.length + 1 + ·) 0

def outputSuggestions (editor : Editor) (library : Library) (kind : String) (dot : Token)
    (start : Nat) (typed : String) : Except Fault (List String) := do
  let parsed ← parse (String.ofList (editor.text.take (editor.lineOffset + start)))
  match parsed.body.getLast? with
  | none => .error .listIndex
  | some stmt =>
    match stmt.find? dot.line dot.col with
    | none => .ok []
    | some (.expr (.member _ value _)) =>
      match calledName? value with
      | none => .ok []
      | some name =>
        let names := (builtinNames? kind name).getD (userNames library kind name)
        .ok (names.filter (·.startsWith typed))
    | some _ => .error (.broken "Dot token should be from attribute node")

def functionNames (library : Library) (kind : String) : List String :=
  let kind := completionKind kind
  Catalog.sharedOverloads.map (·.1) ++ kind.overloads.map (·.1) ++
    (library.functions kind).map (·.1) ++ Catalog.sharedAliases.map (·.1) ++
    kind.ownAliases.map (·.1)

def tokenAtCursor (col : Nat) (before : Option Token) : List Token → Option (Option Token × Token)
  | [] => none
  | token :: tokens =>
    if token.start < col && col ≤ token.start + token.lexeme.length then some (before, token)
    else tokenAtCursor col (some token) tokens

/-- The names that are nearly spelt like a text, nearest first. -/
def similarNames (names : List String) (text : String) : List String :=
  let measured := names.map fun name => (Text.editDistance name text, name)
  ((measured.filter (·.1 < 5)).mergeSort fun first second => first.1 ≤ second.1).map (·.2)

/-- A completion as it is written again: a name with blanks is quoted. -/
def quotedName (name : String) : List Char :=
  if name.contains ' ' then ("n'" ++ name ++ "'").toList else name.toList

/-- What a dot lets the user complete: the outputs of the call before it. -/
def dotSuggestions (editor : Editor) (library : Library) (kind : String) (before : Option Token)
    (token : Token) : Except Fault (List String) :=
  match before with
  | none => .ok []
  | some before =>
    if token.lexeme = "." then
      editor.outputSuggestions library kind token (token.start + 1) ""
    else if before.lexeme = "." then
      editor.outputSuggestions library kind before token.start token.lexeme
    else .ok []

def suggestionsFor (outputs names : List String) (typed : String) : List String :=
  let found := outputs ++ names.filter (·.startsWith typed)
  if found.isEmpty then
    if typed.length < 4 then [] else similarNames names typed
  else found.mergeSort fun first second => first.length ≤ second.length

def complete (library : Library) (kind : String) : Edit Unit := do
  let editor ← get
  match tokenAtCursor editor.drawCol none (editor.tokens.getD editor.row []) with
  | none => return ()
  | some (before, token) =>
    match editor.suggestions with
    | next :: rest =>
      set { editor.replaceToken token (quotedName next) with suggestions := rest ++ [next] }
    | [] =>
      match editor.dotSuggestions library kind before token with
      | .error fault => throw fault
      | .ok outputs =>
        match suggestionsFor outputs (functionNames library kind) token.lexeme with
        | [] => return ()
        | next :: rest =>
          let editor :=
            if token.lexeme = "." then editor.insert next.toList
            else editor.replaceToken token next.toList
          set { editor with suggestions := rest ++ [next] }

end NodeFormula.Editor
