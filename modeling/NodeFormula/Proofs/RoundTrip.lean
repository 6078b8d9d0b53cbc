import NodeFormula.Calculation.Function
import NodeFormula.Proofs.Sequencing
import NodeFormula.Proofs.Writing.Statements

/-!
# Reading undoes writing

A formula made of names that the scanner takes for names, of texts that a quote can enclose, and
of types that have a word is written with tokens that are given by it, and reading the text gives
the formula back.
-/

namespace NodeFormula

open List

/-! ## Names and texts -/

/-- The scanner takes a text for one name. -/
def IsName (name : String) : Prop :=
  (scan name).map Token.unplaced = [.named name, .bare .endOfText ""]

instance (name : String) : Decidable (IsName name) :=
  inferInstanceAs (Decidable (_ = _))

/-- A text that neither closes its quotes nor ends the formula. -/
def Quotable (text : String) : Prop := '"' ∉ text.toList ∧ Char.ofNat 0 ∉ text.toList

instance (text : String) : Decidable (Quotable text) :=
  inferInstanceAs (Decidable (_ ∧ _))

theorem IsName.solid (isName : IsName name) : (Token.named name).Solid := by
  obtain ⟨_, _, isScan, each, _⟩ := solid_of_scan name
  rw [IsName, isScan, map_append] at isName
  obtain ⟨token, rfl, same⟩ := map_eq_singleton_iff.1 (append_inj_left' isName rfl)
  have isKind : token.kind = .identifier := congrArg Token.kind same
  rcases each token mem_cons_self with isError | ⟨isCalculation, _⟩ | solid
  · cases isKind.symm.trans isError
  · cases isKind.symm.trans isCalculation
  · exact solid.of_unplaced same

namespace Token

def quoted (text : String) : Token :=
  bare .text (String.ofList ('"' :: (text.toList ++ ['"'])))

def groupNamed (name : String) : Token :=
  bare .groupName (String.ofList ('n' :: '"' :: (name.toList ++ ['"'])))

theorem solid_quoted (quotable : Quotable text) : (quoted text).Solid := by
  refine ⟨nofun, ⟨nofun, nofun⟩, ?_, '"', text.toList ++ ['"'], String.toList_ofList, by decide,
    Lexeme.stable_text (by decide) quotable.1⟩
  rw [quoted, bare]
  simp [quotable.2]

theorem solid_groupNamed (quotable : Quotable name) : (groupNamed name).Solid := by
  refine ⟨nofun, ⟨nofun, nofun⟩, ?_, 'n', '"' :: (name.toList ++ ['"']),
    String.toList_ofList, by decide, Lexeme.stable_groupName (by decide) quotable.1⟩
  rw [groupNamed, bare]
  simp [quotable.2]

theorem inner_quoted (text : String) : Parser.inner 1 (quoted text).lexeme = text := by
  simp [Parser.inner, quoted, bare]

theorem inner_groupNamed (name : String) : Parser.inner 2 (groupNamed name).lexeme = name := by
  simp [Parser.inner, groupNamed, bare]

def ofCallee (callee : Token) (name : String) : Token :=
  if IsName name ∧ callee.kind ≠ .groupName then named name else groupNamed name

/-- The token of what is defined, in quotes where it is no name or was written so. -/
def ofDefinition (token : Token) (name : String) : Token :=
  if IsName name ∧ token.kind ≠ .text then named name else quoted name

end Token

/-! ## Formulas with the tokens that they say -/

/-- The token of a literal; decimal fractions are not written this way. -/
def Literal.spelled : Literal → Token
  | .int value => .ofNat value
  | .float _ => .bare .float ""
  | .bool value => .sign (if value then .true else .false)
  | .text value => .quoted value
  | .placeholder => .sign .underscore

def UnaryOp.kind : UnaryOp → TokenKind
  | .not => .not
  | .negate => .minus

def BinaryOp.kind : BinaryOp → TokenKind
  | .and => .and
  | .or => .or
  | .add => .plus
  | .div => .slash
  | .mod => .percent
  | .mult => .star
  | .pow => .starStar
  | .sub => .minus
  | .eq => .equalEqual
  | .gt => .greater
  | .gtE => .greaterEqual
  | .lt => .less
  | .ltE => .lessEqual
  | .notEq => .bangEqual

namespace Expr

mutual

/-- An expression with the tokens that it says. -/
def spelled : Expr → Expr
  | .constant _ literal => .constant literal.spelled literal
  | .unusable token shown => .unusable token shown
  | .vec3 _ x y z => .vec3 (.sign .leftBrace) x.spelled y.spelled z.spelled
  | .name _ id => .name (.named id) id
  | .unary _ op operand => .unary (.sign op.kind) op operand.spelled
  | .binary _ left op right => .binary (.sign op.kind) left.spelled op right.spelled
  | .member _ value attr => .member (.sign .dot) value.spelled attr
  | .keyword _ arg value => .keyword (.named arg) arg value.spelled
  | .call _ callee id args keywords =>
    let name := Token.ofCallee callee id
    .call (if name.kind = .groupName then name else .sign .leftParen) name id (spelledAll args)
      (spelledAll keywords)
  | .method _ _ receiver attr args keywords =>
    .method (.sign .leftParen) (.sign .dot) receiver.spelled attr (spelledAll args)
      (spelledAll keywords)
  | .missing => .missing

def spelledAll : List Expr → List Expr
  | [] => []
  | expr :: exprs => expr.spelled :: spelledAll exprs

end

mutual

/-- An expression that its tokens can be told from. -/
def Spellable : Expr → Prop
  | .constant _ (.float _) => False
  | .constant _ (.text value) => Quotable value
  | .constant _ _ => True
  | .unusable _ _ => False
  | .vec3 _ x y z => x.Spellable ∧ y.Spellable ∧ z.Spellable
  | .name _ id => IsName id
  | .unary _ _ operand => operand.Spellable
  | .binary _ left _ right => left.Spellable ∧ right.Spellable
  | .member _ value attr => value.Spellable ∧ IsName attr
  | .keyword _ _ _ => False
  | .call _ callee id args keywords =>
    (IsName id ∧ callee.kind ≠ .groupName ∨ Quotable id) ∧ AllSpellable args ∧
      KeywordsSpellable keywords
  | .method _ _ receiver attr args keywords =>
    receiver.Spellable ∧ IsName attr ∧ AllSpellable args ∧ KeywordsSpellable keywords
  | .missing => False

def AllSpellable : List Expr → Prop
  | [] => True
  | expr :: exprs => expr.Spellable ∧ AllSpellable exprs

def KeywordSpellable : Expr → Prop
  | .keyword _ arg value => IsName arg ∧ value.Spellable
  | _ => False

def KeywordsSpellable : List Expr → Prop
  | [] => True
  | expr :: exprs => expr.KeywordSpellable ∧ KeywordsSpellable exprs

end

end Expr

def Target.spelled : Option Target → Option Target :=
  Option.map fun target => { target with token := .named target.id }

def Target.Spellable (target : Option Target) : Prop := ∀ found ∈ target, IsName found.id

def Param.spelled (param : Param) : Param :=
  { param with token := .named param.name, default := param.default.map Expr.spelled }

def Param.Spellable (param : Param) : Prop :=
  IsName param.name ∧ param.type ≠ .unknown ∧ param.type ≠ .default ∧
    ∀ value ∈ param.default, value.Spellable

namespace Stmt

mutual

/-- A statement with the tokens that it says. -/
def spelled : Stmt → Stmt
  | .expr value => .expr value.spelled
  | .assign _ targets value =>
    .assign (.sign .equal) (targets.map Target.spelled) value.spelled
  | .out _ targets value => .out (.sign .out) (targets.map Target.spelled) value.spelled
  | .definition kind token name args body returns =>
    .definition kind (.ofDefinition token name) name (args.map Param.spelled) (spelledAll body)
      (returns.map Param.spelled)
  | .loop _ counter start stop body =>
    .loop (.sign .loop) (Target.spelled counter) start stop (spelledAll body)
  | .missing => .missing

def spelledAll : List Stmt → List Stmt
  | [] => []
  | stmt :: stmts => stmt.spelled :: spelledAll stmts

end

mutual

/-- A statement that its tokens can be told from. -/
def Spellable : Stmt → Prop
  | .expr value => value.Spellable
  | .assign _ targets value =>
    (∃ first others, targets = some first :: others) ∧
      (∀ target ∈ targets, Target.Spellable target) ∧ value.Spellable
  | .out _ targets value =>
    targets ≠ [] ∧ (∀ target ∈ targets, Target.Spellable target) ∧ value.Spellable
  | .definition _ token name args body returns =>
    (IsName name ∧ token.kind ≠ .text ∨ Quotable name) ∧ (∀ param ∈ args, param.Spellable) ∧
      AllSpellable body ∧ ∀ param ∈ returns, param.Spellable
  | .loop _ counter _ _ body => Target.Spellable counter ∧ AllSpellable body
  | .missing => False

def AllSpellable : List Stmt → Prop
  | [] => True
  | stmt :: stmts => stmt.Spellable ∧ AllSpellable stmts

end

end Stmt

namespace Module

/-- A formula with the tokens that it says. -/
def spelled (body : Module) : Module := Stmt.spelledAll body

def plain (body : Module) : Module := Stmt.mapTokensAll (fun _ => .bare .endOfText "") body

/-- A formula that its tokens can be told from. -/
def Spellable (body : Module) : Prop := Stmt.AllSpellable body

end Module

/-! ## What is spelled is readable -/

namespace Expr

theorem literal_spelled (token : Token) (spellable : (constant token literal).Spellable) :
    literal.spelled.Solid ∧ Parser.literal? literal.spelled = some literal := by
  cases literal with
  | int value =>
    refine ⟨Token.solid_ofNat value, congrArg (some ∘ Literal.int) ?_⟩
    rw [Literal.spelled, Token.ofNat, Token.bare, String.toList_ofList, Number.natOfDigits_digitsOf]
  | float value => exact spellable.elim
  | bool value =>
    cases value
    · exact ⟨Token.solid_sign (by decide), rfl⟩
    · exact ⟨Token.solid_sign (by decide), rfl⟩
  | text value =>
    exact ⟨Token.solid_quoted spellable, congrArg (some ∘ Literal.text) (Token.inner_quoted value)⟩
  | placeholder => exact ⟨Token.solid_sign (by decide), rfl⟩

theorem readable_callee {callee : Token} {id : String}
    (spellable : IsName id ∧ callee.kind ≠ .groupName ∨ Quotable id) :
    let name := Token.ofCallee callee id
    let opening := if name.kind = .groupName then name else .sign .leftParen
    name.Solid ∧
      (name.kind = .identifier ∧ name.lexeme = id ∧ opening.Solid ∧ opening.kind = .leftParen ∨
        name.kind = .groupName ∧ Parser.inner 2 name.lexeme = id ∧ opening = name) := by
  unfold Token.ofCallee
  split
  · rename_i named
    exact ⟨named.1.solid, .inl ⟨rfl, rfl, Token.solid_sign (by decide), rfl⟩⟩
  · rename_i unnamed
    have quotable := spellable.resolve_left unnamed
    exact ⟨Token.solid_groupNamed quotable, .inr ⟨rfl, Token.inner_groupNamed id, rfl⟩⟩

mutual

theorem readable_spelled : ∀ expr : Expr, expr.Spellable → expr.spelled.Readable False
  | .constant token _, spellable => .inl (literal_spelled token spellable)
  | .vec3 _ x y z, spellable =>
    ⟨⟨Token.solid_sign (by decide), rfl⟩, .inr ⟨readable_spelled x spellable.1,
      .inr ⟨readable_spelled y spellable.2.1, .inr (readable_spelled z spellable.2.2)⟩⟩⟩
  | .name _ _, spellable => ⟨IsName.solid spellable, rfl, rfl⟩
  | .unary _ op operand, spellable =>
    ⟨by cases op <;> exact Token.solid_sign (by decide), by cases op <;> rfl,
      readable_spelled operand spellable⟩
  | .binary _ left op right, spellable =>
    ⟨by cases op <;> exact Token.solid_sign (by decide), by cases op <;> rfl,
      readable_spelled left spellable.1, readable_spelled right spellable.2⟩
  | .member _ value _, spellable =>
    ⟨Token.solid_sign (by decide), rfl, readable_spelled value spellable.1, spellable.2.solid⟩
  | .call _ _ _ args keywords, spellable =>
    ⟨(readable_callee spellable.1).1, (readable_callee spellable.1).2,
      readable_spelledAll args spellable.2.1, readable_spelledKeywords keywords spellable.2.2⟩
  | .method _ _ receiver _ args keywords, spellable =>
    ⟨⟨Token.solid_sign (by decide), rfl⟩, ⟨Token.solid_sign (by decide), rfl⟩,
      readable_spelled receiver spellable.1, spellable.2.1.solid,
      readable_spelledAll args spellable.2.2.1,
      readable_spelledKeywords keywords spellable.2.2.2⟩

theorem readable_spelledAll : ∀ exprs : List Expr, AllSpellable exprs →
    AllReadable False (spelledAll exprs)
  | [], _ => trivial
  | expr :: exprs, spellable =>
    ⟨readable_spelled expr spellable.1, readable_spelledAll exprs spellable.2⟩

theorem readable_spelledKeyword : ∀ expr : Expr, expr.KeywordSpellable →
    expr.spelled.KeywordReadable False
  | .keyword _ _ value, spellable => by
    exact ⟨⟨spellable.1.solid, rfl, rfl⟩, readable_spelled value spellable.2⟩
  | .constant .., spellable | .unusable .., spellable | .vec3 .., spellable | .name .., spellable
  | .unary .., spellable | .binary .., spellable | .member .., spellable | .call .., spellable
  | .method .., spellable | .missing, spellable => by
    exact spellable.elim

theorem readable_spelledKeywords : ∀ exprs : List Expr, KeywordsSpellable exprs →
    KeywordsReadable False (spelledAll exprs)
  | [], _ => trivial
  | expr :: exprs, spellable =>
    ⟨readable_spelledKeyword expr spellable.1, readable_spelledKeywords exprs spellable.2⟩

end

end Expr

theorem Target.readable_spelled (spellable : Target.Spellable target) :
    Target.Readable (spelled target) := by
  cases target with
  | none => trivial
  | some target => exact ⟨(spellable target rfl).solid, rfl, rfl⟩

theorem Target.readable_spelledAll {targets : List (Option Target)}
    (spellable : ∀ target ∈ targets, Target.Spellable target) :
    ∀ target ∈ targets.map spelled, Target.Readable target :=
  forall_mem_map.2 fun target member => readable_spelled (spellable target member)

theorem Param.readable_spelled {param : Param} (spellable : param.Spellable) :
    param.spelled.Readable False := by
  obtain ⟨isName, known, written, default⟩ := spellable
  refine ⟨⟨isName.solid, rfl, rfl⟩, ?_, ?_⟩
  · unfold spelled
    cases type : param.type <;> first | exact absurd type known | exact absurd type written | decide
  · intro value member
    obtain ⟨original, isDefault, rfl⟩ := Option.map_eq_some_iff.1 member
    exact Expr.readable_spelled original (default original isDefault)

theorem Param.readable_spelledAll {params : List Param}
    (spellable : ∀ param ∈ params, param.Spellable) :
    ∀ param ∈ params.map spelled, param.Readable False :=
  forall_mem_map.2 fun param member => readable_spelled (spellable param member)

namespace Stmt

theorem readsName_ofDefinition (spellable : IsName name ∧ token.kind ≠ .text ∨ Quotable name) :
    (Token.ofDefinition token name).Solid ∧ Parser.ReadsName (.ofDefinition token name) name := by
  unfold Token.ofDefinition
  split
  · rename_i named
    exact ⟨named.1.solid, .plain rfl⟩
  · rename_i unnamed
    have reads : Parser.ReadsName (.quoted name) (Parser.inner 1 (Token.quoted name).lexeme) :=
      .quoted rfl
    rw [Token.inner_quoted] at reads
    exact ⟨Token.solid_quoted (spellable.resolve_left unnamed), reads⟩

mutual

theorem readable_spelled : ∀ stmt : Stmt, stmt.Spellable → stmt.spelled.Readable False
  | .expr value, spellable => Expr.readable_spelled value spellable
  | .assign _ targets value, spellable => by
    obtain ⟨⟨_, _, rfl⟩, targetsSpellable, valueSpellable⟩ := spellable
    exact ⟨⟨Token.solid_sign (by decide), rfl⟩, ⟨_, _, map_cons⟩,
      Target.readable_spelledAll targetsSpellable, Expr.readable_spelled value valueSpellable⟩
  | .out _ targets value, spellable =>
    ⟨⟨Token.solid_sign (by decide), rfl⟩, mt map_eq_nil_iff.1 spellable.1,
      Target.readable_spelledAll spellable.2.1, Expr.readable_spelled value spellable.2.2⟩
  | .definition _ _ _ _ body _, spellable =>
    ⟨readsName_ofDefinition spellable.1, Param.readable_spelledAll spellable.2.1,
      readable_spelledAll body spellable.2.2.1, Param.readable_spelledAll spellable.2.2.2⟩
  | .loop _ _ _ _ body, spellable =>
    ⟨⟨Token.solid_sign (by decide), rfl⟩, Target.readable_spelled spellable.1,
      readable_spelledAll body spellable.2⟩

theorem readable_spelledAll : ∀ stmts : List Stmt, AllSpellable stmts →
    AllReadable False (spelledAll stmts)
  | [], _ => trivial
  | stmt :: stmts, spellable =>
    ⟨readable_spelled stmt spellable.1, readable_spelledAll stmts spellable.2⟩

end

end Stmt

/-! ## Formulas without their tokens -/

section Spelled

variable (token : Token)

mutual

theorem Expr.mapTokens_spelled : ∀ expr : Expr,
    expr.spelled.mapTokens (fun _ => token) = expr.mapTokens fun _ => token
  | .constant _ _ | .unusable _ _ | .name _ _ | .missing => rfl
  | .vec3 _ x y z => by
    simp only [spelled, mapTokens, mapTokens_spelled x, mapTokens_spelled y,
      mapTokens_spelled z]
  | .unary _ _ operand => by
    simp only [spelled, mapTokens, mapTokens_spelled operand]
  | .binary _ left _ right => by
    simp only [spelled, mapTokens, mapTokens_spelled left,
      mapTokens_spelled right]
  | .member _ value _ => by
    simp only [spelled, mapTokens, mapTokens_spelled value]
  | .keyword _ _ value => by
    simp only [spelled, mapTokens, mapTokens_spelled value]
  | .call _ _ _ args keywords => by
    simp only [spelled, mapTokens, mapTokensAll_spelledAll args,
      mapTokensAll_spelledAll keywords]
  | .method _ _ receiver _ args keywords => by
    simp only [spelled, mapTokens, mapTokens_spelled receiver,
      mapTokensAll_spelledAll args, mapTokensAll_spelledAll keywords]

theorem Expr.mapTokensAll_spelledAll : ∀ exprs : List Expr,
    mapTokensAll (fun _ => token) (spelledAll exprs) =
      mapTokensAll (fun _ => token) exprs
  | [] => rfl
  | expr :: exprs => by
    simp only [spelledAll, mapTokensAll, mapTokens_spelled expr,
      mapTokensAll_spelledAll exprs]

end

theorem Target.mapTokens_spelled (target : Option Target) :
    mapTokens (fun _ => token) (spelled target) =
      mapTokens (fun _ => token) target := by
  cases target <;> rfl

theorem Param.mapTokens_spelled (param : Param) :
    param.spelled.mapTokens (fun _ => token) = param.mapTokens fun _ => token := by
  unfold mapTokens spelled
  cases param.default with
  | none => rfl
  | some value => simp only [Option.map_some, Expr.mapTokens_spelled token value]

mutual

theorem Stmt.mapTokens_spelled : ∀ stmt : Stmt,
    stmt.spelled.mapTokens (fun _ => token) = stmt.mapTokens fun _ => token
  | .expr value => by
    simp only [spelled, mapTokens, Expr.mapTokens_spelled token value]
  | .assign _ targets value | .out _ targets value => by
    simp only [spelled, mapTokens, map_map, Function.comp_def,
      Target.mapTokens_spelled, Expr.mapTokens_spelled token value]
  | .definition _ _ _ args body returns => by
    simp only [spelled, mapTokens, map_map, Function.comp_def,
      Param.mapTokens_spelled, mapTokensAll_spelledAll body]
  | .loop _ counter _ _ body => by
    simp only [spelled, mapTokens, Target.mapTokens_spelled,
      mapTokensAll_spelledAll body]
  | .missing => rfl

theorem Stmt.mapTokensAll_spelledAll : ∀ stmts : List Stmt,
    mapTokensAll (fun _ => token) (spelledAll stmts) =
      mapTokensAll (fun _ => token) stmts
  | [] => rfl
  | stmt :: stmts => by
    simp only [spelledAll, mapTokensAll, mapTokens_spelled stmt,
      mapTokensAll_spelledAll stmts]

end

end Spelled

/-! ## The round trip -/

/-- A formula is read back from the text that its own parts spell. -/
theorem parse_spelled [Evaluator] (body : Module) (spellable : body.Spellable) :
    ∃ again, parse body.spelled.write = .ok ⟨again, []⟩ ∧ again.plain = body.plain := by
  obtain ⟨again, parsed, alike⟩ := parse_write (fun _ => .bare .endOfText "")
    (Stmt.readable_spelledAll body spellable)
  refine ⟨again, parsed, ?_⟩
  calc again.plain = body.spelled.plain := alike
    _ = body.plain := Stmt.mapTokensAll_spelledAll _ body

/-- `fn "two words"(a: float) -> r: float { out r = (-(a + 1)) ** n"up"(a, k=_).x; }` -/
theorem parse_spelled_definition : let token := Token.bare .endOfText ""
    let sum := Expr.binary token (.name token "a") .add (.constant token (.int 1))
    let call := Expr.call token (.bare .groupName "") "up" [.name token "a"]
      [.keyword token "k" (.constant token .placeholder)]
    let power := Expr.binary token (.unary token .negate sum) .pow (.member token call "x")
    let body : Module := [.definition .function token "two words"
      [⟨token, "a", .float, none⟩] [.out token [some ⟨token, "r"⟩] power]
      [⟨token, "r", .float, none⟩]]
    body.Spellable ∧
      ∃ again, parse body.spelled.write = .ok ⟨again, []⟩ ∧ again.plain = body.plain := by
  intro token sum call power body
  have aName : IsName "a" := by decide +kernel
  have rName : IsName "r" := by decide +kernel
  have kName : IsName "k" := by decide +kernel
  have xName : IsName "x" := by decide +kernel
  have callSpellable : call.Spellable :=
    ⟨.inr (by decide), ⟨aName, trivial⟩, ⟨kName, trivial⟩, trivial⟩
  have powerSpellable : power.Spellable := ⟨⟨aName, trivial⟩, callSpellable, xName⟩
  have spellable : body.Spellable := by
    refine ⟨⟨.inr (by decide), ?_, ⟨⟨by simp, ?_, powerSpellable⟩, trivial⟩, ?_⟩, trivial⟩
    · simpa [Param.Spellable] using aName
    · simpa [Target.Spellable] using rName
    · simpa [Param.Spellable] using rName
  exact ⟨spellable, parse_spelled body spellable⟩

/-- A text that holds the character which ends formulas is not read back. -/
theorem nul_text_not_read_back : let text := String.ofList [Char.ofNat 0]
    let body : Module := [.expr (.constant (.bare .endOfText "") (.text text))]
    '"' ∉ text.toList ∧ ∀ again, parse body.spelled.write ≠ .ok ⟨again, []⟩ := by
  intro text body
  obtain ⟨parsed, read, reported⟩ : ∃ parsed, parse body.spelled.write = .ok parsed ∧
      parsed.reports ≠ [] := by decide +kernel
  refine ⟨by decide, fun again clean => ?_⟩
  cases read.symm.trans clean
  exact reported rfl

end NodeFormula
