import NodeFormula.Token

/-!
# Outlines

An outline is the printed shape of a tree.  With an indentation every nesting level starts a line
of its own, except that a node with at most three simple fields stays on one line.
-/

namespace NodeFormula

/-- The printed shape of a tree. -/
inductive Outline
  | node (name : String) (token : Option Token) (fields : List (String × Outline))
  | list (items : List Outline)
  | leaf (text : String)

namespace Outline

/-- The start of a nested line, the separator of nested lines. -/
structure Margin where
  opening : String
  separator : String

def margin (indent : Option String) (level : Nat) : Margin :=
  match indent with
  | some text =>
    let line := "\n" ++ String.join (List.replicate level text)
    ⟨line, "," ++ line⟩
  | none => ⟨"", ", "⟩

def blanks (count : Nat) : String := String.ofList (List.replicate count ' ')

mutual

def renderAt (indent : Option String) (level : Nat) : Outline → String × Bool
  | .leaf text => (text, true)
  | .list [] => ("[]", true)
  | .list items =>
    let margin := margin indent (level + 1)
    ("[" ++ margin.opening ++ margin.separator.intercalate (renderItems indent (level + 1) items) ++
      "]", false)
  | .node name _ fields =>
    let margin := margin indent (level + 1)
    let (texts, simple) := renderFields indent (level + 1) fields
    if simple && texts.length ≤ 3 then
      (name ++ "(" ++ ", ".intercalate texts ++ ")", texts.isEmpty)
    else (name ++ "(" ++ margin.opening ++ margin.separator.intercalate texts ++ ")", false)

def renderItems (indent : Option String) (level : Nat) : List Outline → List String
  | [] => []
  | item :: items => (renderAt indent level item).1 :: renderItems indent level items

/-- The texts of named fields and whether all of them are simple. -/
def renderFields (indent : Option String) (level : Nat) :
    List (String × Outline) → List String × Bool
  | [] => ([], true)
  | (name, value) :: fields =>
    let (text, simple) := renderAt indent level value
    let (texts, allSimple) := renderFields indent level fields
    ((name ++ "=" ++ text) :: texts, simple && allSimple)

end

def render (indent : Option String) (outline : Outline) : String :=
  (renderAt indent 0 outline).1

mutual

def flat : Outline → String
  | .leaf text => text
  | .list items => "[" ++ ", ".intercalate (flatItems items) ++ "]"
  | .node name token fields =>
    let texts := flatFields fields
    let texts := match token with
      | some token => ("token=" ++ token.brief) :: texts
      | none => texts
    name ++ "(" ++ ", ".intercalate texts ++ ")"

def flatItems : List Outline → List String
  | [] => []
  | item :: items => flat item :: flatItems items

def flatFields : List (String × Outline) → List String
  | [] => []
  | (name, value) :: fields => (name ++ "=" ++ flat value) :: flatFields fields

end

end Outline

end NodeFormula
