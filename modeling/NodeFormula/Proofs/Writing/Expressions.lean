import NodeFormula.Proofs.Reading.Statements
import NodeFormula.Proofs.Scanning

/-!
# Writing expressions

An expression is written with the tokens that its nodes keep, and with parentheses where the
levels of the operators need them.  It is readable if its tokens are of the kinds that its nodes
are read from and stand alone; then it is read back wherever its tokens stand.
-/

namespace NodeFormula

open List

variable {kind : TokenKind}

/-! ## Tokens without a place -/

/-- The text of the kinds of tokens that are always written the same way. -/
@[simp]
def TokenKind.sign : TokenKind → String
  | .leftParen => "("
  | .rightParen => ")"
  | .leftBrace => "\x7b"
  | .rightBrace => "\x7d"
  | .leftSquareBracket => "["
  | .rightSquareBracket => "]"
  | .comma => ","
  | .dot => "."
  | .semicolon => ";"
  | .equal => "="
  | .minus => "-"
  | .plus => "+"
  | .percent => "%"
  | .slash => "/"
  | .hat => "^"
  | .greater => ">"
  | .less => "<"
  | .colon => ":"
  | .underscore => "_"
  | .star => "*"
  | .starStar => "**"
  | .arrow => "->"
  | .lessEqual => "<="
  | .greaterEqual => ">="
  | .equalEqual => "=="
  | .bangEqual => "!="
  | .out => "out"
  | .function => "fn"
  | .nodeGroup => "ng"
  | .loop => "loop"
  | .true => "true"
  | .false => "false"
  | .not => "not"
  | .or => "or"
  | .and => "and"
  | _ => ""

namespace Token

def bare (kind : TokenKind) (lexeme : String) : Token := ⟨kind, lexeme, 0, 0, 0, none⟩

/-- The token of a kind that is always written the same way. -/
def sign (kind : TokenKind) : Token := bare kind kind.sign

def named (name : String) : Token := bare .identifier name

def ofNat (n : Nat) : Token := bare .int (String.ofList (Number.digitsOf n))

def ofInt (n : Int) : List Token :=
  if n < 0 then [sign .minus, ofNat n.natAbs] else [ofNat n.natAbs]

theorem solid_of_read {inner : List Char} {lexeme : String} (chars : lexeme.toList = c :: inner)
    (noCalculation : c ≠ '#') (noBlank : Text.isBlank c = false)
    (noNul : Char.ofNat 0 ∉ lexeme.toList) (noError : kind ≠ .error)
    (whole : Lexeme.read c inner = .ok kind (c :: inner) []) : (bare kind lexeme).Solid := by
  obtain ⟨found, text, _, outcome⟩ : Lexeme.Cut c inner (.read c inner) :=
    Lexeme.cut_read noCalculation
  rw [whole] at text outcome
  obtain rfl : inner = found := tail_eq_of_cons_eq text
  rcases outcome with isError | ⟨_, ordinary, stable⟩
  · exact absurd isError noError
  · exact ⟨noError, ordinary, noNul, c, inner, chars, noBlank, stable⟩

theorem solid_sign (isSign : kind.sign ≠ "") : (sign kind).Solid := by
  cases kind <;> first
    | exact absurd rfl isSign
    | exact solid_of_read rfl (by decide) (by decide) (by decide) (by decide) (by decide)

@[simp]
theorem solid_sign_iff : (sign kind).Solid ↔ kind.sign ≠ "" := by
  refine ⟨fun ⟨_, _, _, c, inner, chars, _⟩ same => ?_, solid_sign⟩
  have chars : kind.sign.toList = c :: inner := chars
  rw [same] at chars
  cases chars

end Token

/-! ## Tokens of expressions -/

namespace Expr

/-- Whether an expression is a component of a vector that was left out. -/
def isLeftOut : Expr → Bool
  | .constant token .placeholder => token.kind == .leftBrace
  | _ => false

/-- A component of a vector after the first, with the comma before it. -/
def component (value : Expr) (written : List Token) : List Token :=
  if value.isLeftOut then [] else .sign .comma :: written

/-- Parentheses around what binds less tightly than its place asks for. -/
def grouped (tightness level : Nat) (written : List Token) : List Token :=
  if tightness < level then .sign .leftParen :: written ++ [Token.sign .rightParen] else written

/-- Arguments in parentheses, each with a comma, of which the first goes. -/
def enclosed (opening : Token) (written : List Token) : List Token :=
  opening :: written.tail ++ [Token.sign .rightParen]

mutual

/-- The tokens of an expression where operators have to bind as tightly as a level. -/
@[grind =]
def write (level : Nat) : Expr → List Token
  | .constant token _ => [token]
  | .unusable token _ => [token]
  | .vec3 brace x y z =>
    brace :: (if x.isLeftOut then [] else x.write Precedence.or) ++
      y.component (y.write Precedence.or) ++ z.component (z.write Precedence.or) ++
      [Token.sign .rightBrace]
  | .name token _ => [token]
  | .unary token _ operand =>
    grouped Precedence.unary level (token :: operand.write Precedence.unary)
  | .binary token left _ right =>
    let tightness := token.kind.precedence
    grouped tightness level (left.write tightness ++ token :: right.write (tightness + 1))
  | .member token value attr => value.write Precedence.member ++ [token, .named attr]
  | .keyword token _ value => token :: .sign .equal :: value.write Precedence.or
  | .call token callee _ args keywords =>
    let opening := if callee.kind = .groupName then .sign .leftParen else token
    callee :: enclosed opening (writeMore args ++ writeMore keywords)
  | .method token dot receiver attr args keywords =>
    receiver.write Precedence.member ++ [dot, .named attr] ++
      enclosed token (writeMore args ++ writeMore keywords)
  | .missing => []

def writeMore : List Expr → List Token
  | [] => []
  | expr :: exprs => .sign .comma :: expr.write Precedence.or ++ writeMore exprs

end

mutual

@[grind =]
def mapTokens (change : Token → Token) : Expr → Expr
  | .constant token literal => .constant (change token) literal
  | .unusable token shown => .unusable (change token) shown
  | .vec3 token x y z =>
    .vec3 (change token) (x.mapTokens change) (y.mapTokens change) (z.mapTokens change)
  | .name token id => .name (change token) id
  | .unary token op operand => .unary (change token) op (operand.mapTokens change)
  | .binary token left op right =>
    .binary (change token) (left.mapTokens change) op (right.mapTokens change)
  | .member token value attr => .member (change token) (value.mapTokens change) attr
  | .keyword token arg value => .keyword (change token) arg (value.mapTokens change)
  | .call token callee id args keywords =>
    .call (change token) (change callee) id (mapTokensAll change args)
      (mapTokensAll change keywords)
  | .method token dot receiver attr args keywords =>
    .method (change token) (change dot) (receiver.mapTokens change) attr
      (mapTokensAll change args) (mapTokensAll change keywords)
  | .missing => .missing

def mapTokensAll (change : Token → Token) : List Expr → List Expr
  | [] => []
  | expr :: exprs => expr.mapTokens change :: mapTokensAll change exprs

end

mutual

/--
An expression that writing does not garble: its tokens are of the kinds that its nodes are read
from, and each is read the same wherever it stands.  A calculation is not, where one may stand.
-/
def Readable (calculates : Prop) : Expr → Prop
  | .constant token literal =>
    token.Solid ∧ Parser.literal? token = some literal ∨ calculates ∧ token.kind = .calculation
  | .unusable _ _ => False
  | .vec3 brace x y z =>
    let origin := Expr.constant brace .placeholder
    (brace.Solid ∧ brace.kind = .leftBrace) ∧
      (x = origin ∧ y = origin ∧ z = origin ∨
        x.Readable calculates ∧ (y = origin ∧ z = origin ∨
          y.Readable calculates ∧ (z = origin ∨ z.Readable calculates)))
  | .name token id => token.Solid ∧ token.kind = .identifier ∧ token.lexeme = id
  | .unary token op operand =>
    token.Solid ∧ token.kind.prefixRule? = some (.unary op) ∧ operand.Readable calculates
  | .binary token left op right =>
    token.Solid ∧ token.kind.infixRule? = some (.binary op) ∧ left.Readable calculates ∧
      right.Readable calculates
  | .member token value attr =>
    token.Solid ∧ token.kind = .dot ∧ value.Readable calculates ∧ (Token.named attr).Solid
  | .keyword _ _ _ => False
  | .call token callee id args keywords =>
    callee.Solid ∧
      (callee.kind = .identifier ∧ callee.lexeme = id ∧ token.Solid ∧ token.kind = .leftParen ∨
        callee.kind = .groupName ∧ Parser.inner 2 callee.lexeme = id ∧ token = callee) ∧
      AllReadable calculates args ∧ KeywordsReadable calculates keywords
  | .method token dot receiver attr args keywords =>
    (token.Solid ∧ token.kind = .leftParen) ∧ (dot.Solid ∧ dot.kind = .dot) ∧
      receiver.Readable calculates ∧ (Token.named attr).Solid ∧ AllReadable calculates args ∧
      KeywordsReadable calculates keywords
  | .missing => False

def AllReadable (calculates : Prop) : List Expr → Prop
  | [] => True
  | expr :: exprs => expr.Readable calculates ∧ AllReadable calculates exprs

def KeywordReadable (calculates : Prop) : Expr → Prop
  | .keyword token arg value =>
    (token.Solid ∧ token.kind = .identifier ∧ token.lexeme = arg) ∧ value.Readable calculates
  | _ => False

def KeywordsReadable (calculates : Prop) : List Expr → Prop
  | [] => True
  | expr :: exprs => expr.KeywordReadable calculates ∧ KeywordsReadable calculates exprs

end

theorem Readable.notLeftOut {expr : Expr} (readable : expr.Readable False) :
    expr.isLeftOut = false := by
  cases expr with
  | constant token literal =>
    cases literal with
    | placeholder =>
      have isLiteral := (readable.resolve_right And.left).2
      by_contra isLeftOut
      have isBrace : token.kind = .leftBrace := by
        simpa [Expr.isLeftOut] using isLeftOut
      simp [Parser.literal?, isBrace] at isLiteral
    | _ => rfl
  | _ => rfl

end Expr

/-! ## Written tokens stand alone -/

/-- Every token is read the same way wherever it stands. -/
def AllSolid (tokens : List Token) : Prop := ∀ token ∈ tokens, token.Solid

@[simp]
theorem allSolid_nil : AllSolid [] := forall_mem_nil _

@[simp]
theorem allSolid_cons : AllSolid (token :: tokens) ↔ token.Solid ∧ AllSolid tokens :=
  forall_mem_cons

@[simp]
theorem allSolid_append : AllSolid (first ++ second) ↔ AllSolid first ∧ AllSolid second :=
  forall_mem_append

theorem AllSolid.tail (solid : AllSolid tokens) : AllSolid tokens.tail :=
  fun token member => solid token (mem_of_mem_tail member)

namespace Expr

theorem solid_grouped (solid : AllSolid written) : AllSolid (grouped tightness level written) := by
  unfold grouped
  split <;> simp [solid]

theorem solid_enclosed (opens : opening.Solid) (solid : AllSolid written) :
    AllSolid (enclosed opening written) := by
  simp [enclosed, opens, solid.tail]

theorem isLeftOut_origin (isBrace : brace.kind = .leftBrace) :
    (constant brace .placeholder).isLeftOut = true := by
  simp [isLeftOut, isBrace]

mutual

theorem solid_write : ∀ expr : Expr, expr.Readable False → ∀ level, AllSolid (expr.write level)
  | .constant _ _, readable, _ => by simpa [write] using (readable.resolve_right And.left).1
  | .vec3 brace x y z, readable, level => by
    obtain ⟨⟨solid, isBrace⟩, others⟩ := readable
    have absent := isLeftOut_origin isBrace
    have present {value : Expr} (readable : value.Readable False) := readable.notLeftOut
    rcases others with ⟨rfl, rfl, rfl⟩ | ⟨xReadable, ⟨rfl, rfl⟩ | ⟨yReadable, rfl | zReadable⟩⟩
    · simp [write, component, absent, solid]
    · simp [write, component, absent, solid, present xReadable, solid_write x xReadable]
    · simp [write, component, absent, solid, present xReadable, present yReadable,
        solid_write x xReadable, solid_write y yReadable]
    · simp [write, component, solid, present xReadable, present yReadable, present zReadable,
        solid_write x xReadable, solid_write y yReadable, solid_write z zReadable]
  | .name _ _, readable, _ => by simpa [write] using readable.1
  | .unary _ _ operand, readable, _ =>
    solid_grouped (by simp [readable.1, solid_write operand readable.2.2])
  | .binary _ left _ right, readable, _ =>
    solid_grouped (by simp [readable.1, solid_write left readable.2.2.1,
      solid_write right readable.2.2.2])
  | .member _ value _, readable, _ => by
    simp [write, readable.1, readable.2.2.2, solid_write value readable.2.2.1]
  | .call token callee id args keywords, readable, level => by
    obtain ⟨solid, kinds, argsReadable, keywordsReadable⟩ := readable
    have opens : (if callee.kind = .groupName then .sign .leftParen else token : Token).Solid := by
      rcases kinds with ⟨isName, _, opens, _⟩ | ⟨isGroup, _⟩
      · rwa [if_neg (by rw [isName]; decide)]
      · rw [if_pos isGroup]
        exact Token.solid_sign (by decide)
    exact forall_mem_cons.2 ⟨solid, solid_enclosed opens (allSolid_append.2
      ⟨solid_writeArgs args argsReadable, solid_writeKeywords keywords keywordsReadable⟩)⟩
  | .method _ _ receiver _ args keywords, readable, _ => by
    obtain ⟨⟨opens, _⟩, ⟨dot, _⟩, isReceiver, attr, argsReadable, keywordsReadable⟩ := readable
    have inside := solid_enclosed opens (allSolid_append.2
      ⟨solid_writeArgs args argsReadable, solid_writeKeywords keywords keywordsReadable⟩)
    simp [write, dot, attr, inside, solid_write receiver isReceiver]

theorem solid_writeArgs : ∀ args : List Expr, AllReadable False args → AllSolid (writeMore args)
  | [], _ => allSolid_nil
  | arg :: args, readable => by
    simp [writeMore, solid_write arg readable.1, solid_writeArgs args readable.2]

theorem solid_writeKeyword (keyword : Expr) (readable : keyword.KeywordReadable False) :
    AllSolid (keyword.write Precedence.or) := by
  cases keyword with
  | keyword token name value =>
    simp [write, readable.1.1, solid_write value readable.2]
  | _ => exact readable.elim

theorem solid_writeKeywords : ∀ keywords : List Expr, KeywordsReadable False keywords →
    AllSolid (writeMore keywords)
  | [], _ => allSolid_nil
  | first :: others, readable => by
    simp [writeMore, solid_writeKeyword first readable.1, solid_writeKeywords others readable.2]

end

end Expr

/-! ## The same tokens elsewhere -/

/-- Two lists of tokens that agree up to their places. -/
def Moved (tokens written : List Token) : Prop :=
  tokens.map Token.unplaced = written.map Token.unplaced

namespace Moved

theorem nil (moved : Moved tokens []) : tokens = [] := map_eq_nil_iff.1 moved

theorem cons (moved : Moved tokens (token :: first)) : ∃ found others, tokens = found :: others ∧
    (found.kind = token.kind ∧ found.lexeme = token.lexeme) ∧ Moved others first := by
  obtain ⟨found, others, rfl, same, moved⟩ := map_eq_cons_iff.1 moved
  exact ⟨found, others, rfl, Token.unplaced_inj.1 same, moved⟩

theorem single (moved : Moved tokens [token]) :
    ∃ found, tokens = [found] ∧ found.kind = token.kind ∧ found.lexeme = token.lexeme := by
  obtain ⟨found, _, rfl, same, moved⟩ := moved.cons
  obtain rfl := moved.nil
  exact ⟨found, rfl, same⟩

theorem append (moved : Moved tokens (first ++ second)) : ∃ before after,
    tokens = before ++ after ∧ Moved before first ∧ Moved after second := by
  rw [Moved, map_append] at moved
  exact map_eq_append_iff.1 moved

theorem concat (moved : Moved tokens (first ++ [token])) :
    ∃ (before : List Token) (found : Token), tokens = before ++ [found] ∧
      Moved before first ∧ found.kind = token.kind := by
  obtain ⟨before, _, rfl, movedBefore, moved⟩ := moved.append
  obtain ⟨found, rfl, same⟩ := moved.single
  exact ⟨before, found, rfl, movedBefore, same.1⟩

theorem head (moved : Moved tokens written) (isHead : token ∈ (tokens ++ second).head?) :
    ∃ other ∈ (written ++ second).head?, token.kind = other.kind := by
  cases written with
  | nil =>
    obtain rfl := moved.nil
    exact ⟨token, isHead, rfl⟩
  | cons other written =>
    obtain ⟨found, _, rfl, same, _⟩ := moved.cons
    obtain rfl := Option.some.inj isHead
    exact ⟨other, rfl, same.1⟩

theorem heads (moved : Moved tokens (token :: first)) :
    ∀ found ∈ (tokens ++ second).head?, found.kind = token.kind := by
  rintro found isHead
  obtain ⟨_, isOther, same⟩ := moved.head isHead
  obtain rfl := Option.some.inj isOther
  exact same

theorem length_eq (moved : Moved tokens written) : tokens.length = written.length := by
  simpa using congrArg length moved

end Moved

namespace Parser

/-- A change of tokens that does not look at their places. -/
class Placeless (change : Token → Token) : Prop where
  same {left right} : left.kind = right.kind ∧ left.lexeme = right.lexeme →
    change left = change right

instance : Placeless Token.unplaced := ⟨Token.unplaced_inj.2⟩

instance : Placeless fun _ => token := ⟨fun _ => rfl⟩

variable {change : Token → Token} {args keywords : List Expr}

/-- Some arguments up to a change of their tokens. -/
def SameArgs (change : Token → Token) (args again : List Expr) : Prop :=
  Expr.mapTokensAll change again = Expr.mapTokensAll change args

theorem sameArgs_nil : SameArgs change [] [] := rfl

theorem SameArgs.cons (alike : again.mapTokens change = arg.mapTokens change)
    (same : SameArgs change args others) : SameArgs change (arg :: args) (again :: others) := by
  unfold SameArgs at same ⊢
  rw [Expr.mapTokensAll, same]
  exact congrArg (· :: _) alike

theorem or_le_of_binary (isBinary : kind.infixRule? = some (.binary op)) :
    Precedence.or ≤ kind.precedence := by
  cases kind <;> first | decide | cases isBinary

theorem none_of_writeMore (nothing : Expr.writeMore args ++ Expr.writeMore keywords = []) :
    args = [] ∧ keywords = [] := by
  cases args <;> cases keywords <;> first | exact ⟨rfl, rfl⟩ | cases nothing

theorem comma_of_writeMore
    (shape : Expr.writeMore args ++ Expr.writeMore keywords = comma :: written) :
    comma = .sign .comma := by
  cases args <;> cases keywords <;> first | exact (cons.inj shape).1.symm | cases shape

variable [Evaluator]

/-- Tokens are read as an expression that a change makes the same as another. -/
def ReadsAlike (change : Token → Token) (level : Nat) (tokens : List Token) (expr : Expr) : Prop :=
  ∃ first more again, tokens = first :: more ∧ Reads level first more again ∧
    again.mapTokens change = expr.mapTokens change

def ReadBack (change : Token → Token) (expr : Expr) : Prop :=
  ∀ level tokens, Moved tokens (expr.write level) → ReadsAlike change level tokens expr

/-- What is read where it fits is read everywhere once parentheses stand around it. -/
theorem readsAlike_grouped (loosest : Precedence.or ≤ tightness)
    (fits : ∀ level tokens, level ≤ tightness → Moved tokens written →
      ReadsAlike change level tokens expr)
    (moved : Moved tokens (Expr.grouped tightness level written)) :
    ReadsAlike change level tokens expr := by
  unfold Expr.grouped at moved
  split at moved
  · obtain ⟨opening, _, rfl, isOpening, moved⟩ := moved.cons
    obtain ⟨inside, closing, rfl, movedInside, isClosing⟩ := moved.concat
    obtain ⟨first, more, again, rfl, reads, alike⟩ := fits _ inside loosest movedInside
    exact ⟨opening, first :: more ++ [closing], again, rfl,
      reads_grouping isOpening.1 isClosing reads, alike⟩
  · rename_i tight
    exact fits level tokens (Nat.le_of_not_lt tight) moved

section Placeless

variable [Placeless change]

theorem readBack_constant (isLiteral : literal? token = some literal) :
    ReadBack change (.constant token literal) := by
  intro level tokens moved
  obtain ⟨found, rfl, same⟩ := moved.single
  refine ⟨found, [], .constant found literal, rfl, reads_constant ?_, ?_⟩
  · rw [literal?, same.1, same.2]
    exact isLiteral
  · simp only [Expr.mapTokens, Placeless.same same]

theorem readBack_name (isName : token.kind = .identifier) :
    ReadBack change (.name token token.lexeme) := by
  intro level tokens moved
  obtain ⟨found, rfl, same⟩ := moved.single
  refine ⟨found, [], .name found found.lexeme, rfl, reads_name (same.1.trans isName), ?_⟩
  simp only [Expr.mapTokens, Placeless.same same, same.2]

theorem readBack_unary {op : UnaryOp} {operand : Expr}
    (isUnary : token.kind.prefixRule? = some (.unary op)) (inside : ReadBack change operand) :
    ReadBack change (.unary token op operand) := by
  intro level tokens moved
  refine readsAlike_grouped (by decide) ?_ moved
  intro level tokens tight moved
  obtain ⟨found, _, rfl, same, moved⟩ := moved.cons
  obtain ⟨first, more, again, rfl, reads, alike⟩ := inside _ _ moved
  refine ⟨found, first :: more, .unary found op again, rfl,
    reads_unary tight (same.1 ▸ isUnary) reads, ?_⟩
  simp only [Expr.mapTokens, Placeless.same same] at alike ⊢
  rw [alike]

theorem readBack_binary (isBinary : token.kind.infixRule? = some (.binary op))
    (leftBack : ReadBack change left) (rightBack : ReadBack change right) :
    ReadBack change (.binary token left op right) := by
  intro level tokens moved
  refine readsAlike_grouped (or_le_of_binary isBinary) ?_ moved
  intro level tokens tight moved
  obtain ⟨_, _, rfl, movedLeft, moved⟩ := moved.append
  obtain ⟨found, _, rfl, same, movedRight⟩ := moved.cons
  rw [← same.1] at movedLeft movedRight isBinary tight
  obtain ⟨first, more, leftAgain, rfl, leftReads, leftAlike⟩ := leftBack _ _ movedLeft
  obtain ⟨second, others, rightAgain, rfl, rightReads, rightAlike⟩ := rightBack _ _ movedRight
  refine ⟨first, more ++ found :: second :: others, .binary found leftAgain op rightAgain, rfl,
    leftReads.extend (Nat.le_refl _) (extends_binary isBinary tight rightReads), ?_⟩
  simp only [Expr.mapTokens, Placeless.same same] at leftAlike rightAlike ⊢
  rw [leftAlike, rightAlike]

theorem member_readBack (isDot : dot.kind = .dot) (inside : ReadBack change value)
    (moved : Moved tokens (value.write Precedence.member ++ [dot, .named attr])) :
    ∃ first more found again, tokens = first :: more ∧
      (∀ level, Reads level first more (.member found again attr)) ∧
      change found = change dot ∧ again.mapTokens change = value.mapTokens change := by
  obtain ⟨_, _, rfl, movedValue, moved⟩ := moved.append
  obtain ⟨found, _, rfl, same, moved⟩ := moved.cons
  obtain ⟨name, rfl, isName⟩ := moved.single
  obtain ⟨first, more, again, rfl, reads, alike⟩ := inside _ _ movedValue
  have below : found.kind.precedence ≤ Precedence.member := by rw [same.1, isDot]; decide
  refine ⟨first, more ++ [found, name], found, again, rfl, fun level => ?_, Placeless.same same,
    alike⟩
  obtain rfl : name.lexeme = attr := isName.2
  exact reads.extend below (extends_member (same.1.trans isDot) isName.1)

theorem readBack_member (isDot : dot.kind = .dot) (inside : ReadBack change value) :
    ReadBack change (.member dot value attr) := by
  intro level tokens moved
  obtain ⟨first, more, found, again, rfl, reads, sameDot, alike⟩ :=
    member_readBack isDot inside moved
  refine ⟨first, more, .member found again attr, rfl, reads level, ?_⟩
  simp only [Expr.mapTokens, sameDot] at alike ⊢
  rw [alike]

/-! ## Reading vectors back -/

theorem component_readBack (isBrace : brace.kind = .leftBrace)
    (same : found.kind = brace.kind ∧ found.lexeme = brace.lexeme)
    (written : value = .constant brace .placeholder ∨ value.Readable False ∧ ReadBack change value)
    (moved : Moved tokens (value.component (value.write Precedence.or))) :
    ∃ again, ReadsComponent found tokens again ∧ again.mapTokens change = value.mapTokens change ∧
      (value.isLeftOut = true ↔ tokens = []) := by
  rcases written with rfl | ⟨readable, back⟩
  · have isLeftOut := Expr.isLeftOut_origin isBrace
    rw [Expr.component, if_pos isLeftOut] at moved
    obtain rfl := moved.nil
    refine ⟨.constant found .placeholder, .leftOut, ?_, iff_of_true isLeftOut rfl⟩
    simp only [Expr.mapTokens, Placeless.same same]
  · rw [Expr.component, if_neg (by simp [readable.notLeftOut])] at moved
    obtain ⟨_, _, rfl, isComma, moved⟩ := moved.cons
    obtain ⟨_, _, again, rfl, reads, alike⟩ := back _ _ moved
    exact ⟨again, .written isComma.1 reads, alike, by simp [readable.notLeftOut]⟩

theorem readBack_origin (isBrace : brace.kind = .leftBrace) :
    ReadBack change (.vec3 brace (.constant brace .placeholder) (.constant brace .placeholder)
      (.constant brace .placeholder)) := by
  intro level tokens moved
  have isLeftOut := Expr.isLeftOut_origin isBrace
  rw [Expr.write, if_pos isLeftOut, Expr.component, if_pos isLeftOut] at moved
  obtain ⟨found, _, rfl, same, moved⟩ := moved.cons
  obtain ⟨closing, rfl, isClosing⟩ := moved.single
  refine ⟨found, [closing], _, rfl, reads_origin (same.1.trans isBrace) isClosing.1, ?_⟩
  simp only [Expr.mapTokens, Placeless.same same]

theorem readBack_vec3 (isBrace : brace.kind = .leftBrace) (xReadable : x.Readable False)
    (xBack : ReadBack change x)
    (yWritten : y = .constant brace .placeholder ∨ y.Readable False ∧ ReadBack change y)
    (zWritten : z = .constant brace .placeholder ∨ z.Readable False ∧ ReadBack change z)
    (inOrder : y.isLeftOut = true → z.isLeftOut = true) : ReadBack change (.vec3 brace x y z) := by
  intro level tokens moved
  rw [Expr.write, if_neg (by simp [xReadable.notLeftOut])] at moved
  obtain ⟨before, closing, rfl, movedBefore, isClosing⟩ := moved.concat
  obtain ⟨before, third, rfl, movedBefore, movedThird⟩ := movedBefore.append
  obtain ⟨before, second, rfl, movedBefore, movedSecond⟩ := movedBefore.append
  obtain ⟨found, _, rfl, same, movedFirst⟩ := movedBefore.cons
  obtain ⟨first, more, xAgain, rfl, xReads, xAlike⟩ := xBack _ _ movedFirst
  obtain ⟨yAgain, yReads, yAlike, yNone⟩ := component_readBack isBrace same yWritten movedSecond
  obtain ⟨zAgain, zReads, zAlike, zNone⟩ := component_readBack isBrace same zWritten movedThird
  refine ⟨found, first :: more ++ second ++ third ++ [closing], .vec3 found xAgain yAgain zAgain,
    rfl, reads_vec3 (same.1.trans isBrace) isClosing xReads yReads zReads
      (fun none => zNone.1 (inOrder (yNone.2 none))), ?_⟩
  simp only [Expr.mapTokens, Placeless.same same] at xAlike yAlike zAlike ⊢
  rw [xAlike, yAlike, zAlike]

end Placeless

/-! ## Reading arguments back -/

def KeywordReadBack (change : Token → Token) (keyword : Expr) : Prop :=
  ∀ tokens, Moved tokens (keyword.write Precedence.or) → ∃ name equal first more value,
    tokens = name :: equal :: first :: more ∧ name.kind = .identifier ∧ equal.kind = .equal ∧
      Reads Precedence.or first more value ∧
      (Expr.keyword name name.lexeme value).mapTokens change = keyword.mapTokens change

theorem keywords_readBack (back : ∀ keyword ∈ keywords, KeywordReadBack change keyword)
    (moved : Moved tokens (Expr.writeMore keywords)) :
    ∃ again, ReadsKeywords tokens again ∧ SameArgs change keywords again := by
  induction keywords generalizing tokens with
  | nil =>
    obtain rfl := moved.nil
    exact ⟨[], readsKeywords_nil, sameArgs_nil⟩
  | cons keyword keywords ih =>
    obtain ⟨_, _, rfl, isComma, moved⟩ := moved.cons
    obtain ⟨_, _, rfl, movedKeyword, movedOthers⟩ := moved.append
    obtain ⟨firstBack, othersBack⟩ := forall_mem_cons.1 back
    obtain ⟨name, _, _, _, value, rfl, isName, isEqual, reads, alike⟩ :=
      firstBack _ movedKeyword
    obtain ⟨again, readsMore, sameArgs⟩ := ih othersBack movedOthers
    exact ⟨.keyword name name.lexeme value :: again,
      readsKeywords_cons isComma.1 isName isEqual reads readsMore, .cons alike sameArgs⟩

section Calls

variable (argsBack : ∀ arg ∈ args, ReadBack change arg)
  (keywordsBack : ∀ keyword ∈ keywords, KeywordReadBack change keyword)
include argsBack keywordsBack

theorem args_readBack (shape : Expr.writeMore args ++ Expr.writeMore keywords = comma :: written)
    (moved : Moved tokens written) : ∃ first more argsAgain keywordsAgain, tokens = first :: more ∧
      ReadsArgs first more argsAgain keywordsAgain ∧ SameArgs change args argsAgain ∧
      SameArgs change keywords keywordsAgain := by
  induction args generalizing comma written tokens with
  | nil =>
    cases keywords with
    | nil => cases shape
    | cons keyword keywords =>
      obtain ⟨rfl, rfl⟩ := cons.inj shape
      obtain ⟨written, others, rfl, movedKeyword, movedOthers⟩ := moved.append
      obtain ⟨firstBack, othersBack⟩ := forall_mem_cons.1 keywordsBack
      obtain ⟨name, _, first, more, value, rfl, isName, isEqual, reads, alike⟩ :=
        firstBack _ movedKeyword
      obtain ⟨again, readsMore, sameArgs⟩ := keywords_readBack othersBack movedOthers
      exact ⟨name, _, [], .keyword name name.lexeme value :: again, rfl,
        readsArgs_keyword isName isEqual reads readsMore, sameArgs_nil, .cons alike sameArgs⟩
  | cons arg args ih =>
    rw [Expr.writeMore, cons_append, cons_append, append_assoc] at shape
    obtain ⟨rfl, rfl⟩ := cons.inj shape
    obtain ⟨_, _, rfl, movedArg, movedOthers⟩ := moved.append
    obtain ⟨firstBack, othersBack⟩ := forall_mem_cons.1 argsBack
    obtain ⟨first, more, again, rfl, reads, alike⟩ := firstBack _ _ movedArg
    cases others : Expr.writeMore args ++ Expr.writeMore keywords with
    | nil =>
      obtain ⟨rfl, rfl⟩ := none_of_writeMore others
      obtain rfl := movedOthers.nil
      exact ⟨first, more ++ [], [again], [], rfl, readsArgs_positional reads readsMore_nil,
        .cons alike sameArgs_nil, sameArgs_nil⟩
    | cons comma written =>
      rw [others] at movedOthers
      obtain ⟨found, _, rfl, same, movedArgs⟩ := movedOthers.cons
      obtain ⟨second, rest, argsAgain, keywordsAgain, rfl, readsArgs, sameArgs, sameKeywords⟩ :=
        ih othersBack others movedArgs
      obtain rfl := comma_of_writeMore others
      exact ⟨first, more ++ found :: second :: rest, again :: argsAgain, keywordsAgain, rfl,
        readsArgs_positional reads (readsMore_cons same.1 readsArgs),
        .cons alike sameArgs, sameKeywords⟩

theorem call_readBack (moved : Moved tokens
      (Expr.enclosed opening (Expr.writeMore args ++ Expr.writeMore keywords))) :
    ∃ (found : Token) (inside : List Token) (closing : Token) (argsAgain keywordsAgain : List Expr),
      tokens = found :: inside ++ [closing] ∧
      (found.kind = opening.kind ∧ found.lexeme = opening.lexeme) ∧ closing.kind = .rightParen ∧
      ReadsCall inside argsAgain keywordsAgain ∧ SameArgs change args argsAgain ∧
      SameArgs change keywords keywordsAgain := by
  obtain ⟨found, _, rfl, same, moved⟩ := moved.cons
  obtain ⟨inside, closing, rfl, movedInside, isClosing⟩ := moved.concat
  cases written : Expr.writeMore args ++ Expr.writeMore keywords with
  | nil =>
    rw [written] at movedInside
    obtain rfl := movedInside.nil
    obtain ⟨rfl, rfl⟩ := none_of_writeMore written
    exact ⟨found, [], closing, [], [], rfl, same, isClosing, .empty, sameArgs_nil, sameArgs_nil⟩
  | cons comma others =>
    rw [written] at movedInside
    obtain ⟨first, more, argsAgain, keywordsAgain, rfl, reads, sameArgs, sameKeywords⟩ :=
      args_readBack argsBack keywordsBack written movedInside
    exact ⟨found, first :: more, closing, argsAgain, keywordsAgain, rfl, same, isClosing,
      .filled reads, sameArgs, sameKeywords⟩

variable [Placeless change]

theorem readBack_call {id : String}
    (kinds : callee.kind = .identifier ∧ callee.lexeme = id ∧ token.kind = .leftParen ∨
      callee.kind = .groupName ∧ inner 2 callee.lexeme = id ∧ token = callee) :
    ReadBack change (.call token callee id args keywords) := by
  intro level tokens moved
  obtain ⟨name, _, rfl, isName, movedArgs⟩ := moved.cons
  obtain ⟨opening, inside, closing, argsAgain, keywordsAgain, rfl, isOpening, closes,
    call, sameArgs, sameKeywords⟩ := call_readBack argsBack keywordsBack movedArgs
  have alike : ∀ {found}, change found = change token →
      (Expr.call found name id argsAgain keywordsAgain).mapTokens change =
        (Expr.call token callee id args keywords).mapTokens change := by
    intro found sameToken
    unfold SameArgs at sameArgs sameKeywords
    simp only [Expr.mapTokens, sameToken, Placeless.same isName, sameArgs, sameKeywords]
  rcases kinds with ⟨isIdentifier, rfl, isParen⟩ | ⟨isGroup, rfl, rfl⟩
  · rw [if_neg (by rw [isIdentifier]; decide)] at isOpening
    have opens := isOpening.1.trans isParen
    refine ⟨name, opening :: inside ++ [closing],
      .call opening name callee.lexeme argsAgain keywordsAgain, rfl, ?_,
      alike (Placeless.same isOpening)⟩
    have nameReads : Reads Precedence.call name [] (.name name name.lexeme) :=
      reads_name (isName.1.trans isIdentifier)
    rw [← isName.2]
    exact nameReads.extend (by rw [opens]; decide) (extends_call opens closes call)
  · rw [if_pos isGroup] at isOpening
    refine ⟨name, opening :: inside ++ [closing],
      .call name name (inner 2 token.lexeme) argsAgain keywordsAgain, rfl, ?_,
      alike (Placeless.same isName)⟩
    rw [← isName.2]
    exact reads_groupCall isOpening.1 closes call (isName.1.trans isGroup)

theorem readBack_method (isParen : token.kind = .leftParen) (isDot : dot.kind = .dot)
    (inside : ReadBack change receiver) :
    ReadBack change (.method token dot receiver attr args keywords) := by
  intro level tokens moved
  obtain ⟨_, _, rfl, movedMember, movedArgs⟩ := moved.append
  obtain ⟨opening, written, closing, argsAgain, keywordsAgain, rfl, isOpening, closes, call,
    sameArgs, sameKeywords⟩ := call_readBack argsBack keywordsBack movedArgs
  obtain ⟨first, more, found, again, rfl, reads, sameDot, alike⟩ :=
    member_readBack isDot inside movedMember
  have opens := isOpening.1.trans isParen
  refine ⟨first, more ++ opening :: (written ++ [closing]),
    .method opening found again attr argsAgain keywordsAgain, rfl,
    (reads Precedence.call).extend (by rw [opens]; decide) (extends_method opens closes call), ?_⟩
  unfold SameArgs at sameArgs sameKeywords
  simp only [Expr.mapTokens, sameDot, Placeless.same isOpening, sameArgs, sameKeywords] at alike ⊢
  rw [alike]

end Calls

/-! ## Reading expressions back -/

variable (change)

mutual

theorem readBack_of_readable [Placeless change] :
    ∀ expr : Expr, expr.Readable False → ReadBack change expr
  | .constant _ _, readable => readBack_constant (readable.resolve_right And.left).2
  | .vec3 brace x y z, readable => by
    obtain ⟨⟨_, isBrace⟩, ⟨rfl, rfl, rfl⟩ | ⟨xReadable, others⟩⟩ := readable
    · exact readBack_origin isBrace
    · have xBack := readBack_of_readable x xReadable
      rcases others with ⟨rfl, rfl⟩ | ⟨yReadable, rfl | zReadable⟩
      · exact readBack_vec3 isBrace xReadable xBack (.inl rfl) (.inl rfl) id
      · have yBack := readBack_of_readable y yReadable
        exact readBack_vec3 isBrace xReadable xBack (.inr ⟨yReadable, yBack⟩) (.inl rfl)
          (fun isLeftOut => absurd isLeftOut (by simp [yReadable.notLeftOut]))
      · have yBack := readBack_of_readable y yReadable
        have zBack := readBack_of_readable z zReadable
        exact readBack_vec3 isBrace xReadable xBack (.inr ⟨yReadable, yBack⟩)
          (.inr ⟨zReadable, zBack⟩)
          (fun isLeftOut => absurd isLeftOut (by simp [yReadable.notLeftOut]))
  | .name token id, readable => by
    obtain ⟨_, isName, rfl⟩ := readable
    exact readBack_name isName
  | .unary _ _ operand, readable =>
    readBack_unary readable.2.1 (readBack_of_readable operand readable.2.2)
  | .binary _ left _ right, readable =>
    readBack_binary readable.2.1 (readBack_of_readable left readable.2.2.1)
      (readBack_of_readable right readable.2.2.2)
  | .member _ value _, readable =>
    readBack_member readable.2.1 (readBack_of_readable value readable.2.2.1)
  | .call token callee id args keywords, readable => by
    obtain ⟨_, kinds, argsReadable, keywordsReadable⟩ := readable
    exact readBack_call (readBack_of_allReadable args argsReadable)
      (readBack_of_keywordsReadable keywords keywordsReadable)
      (kinds.imp_left fun named => ⟨named.1, named.2.1, named.2.2.2⟩)
  | .method _ _ receiver _ args keywords, readable =>
    readBack_method (readBack_of_allReadable args readable.2.2.2.2.1)
      (readBack_of_keywordsReadable keywords readable.2.2.2.2.2) readable.1.2 readable.2.1.2
      (readBack_of_readable receiver readable.2.2.1)

theorem readBack_of_allReadable [Placeless change] : ∀ args : List Expr,
    Expr.AllReadable False args → ∀ arg ∈ args, ReadBack change arg
  | [], _ => fun _ none => absurd none not_mem_nil
  | arg :: args, readable => forall_mem_cons.2
      ⟨readBack_of_readable arg readable.1, readBack_of_allReadable args readable.2⟩

theorem readBack_of_keywordReadable [Placeless change] (keyword : Expr)
    (readable : keyword.KeywordReadable False) :
    KeywordReadBack change keyword := by
  cases keyword with
  | keyword token name value =>
    obtain ⟨⟨_, isName, rfl⟩, valueReadable⟩ := readable
    intro tokens moved
    obtain ⟨found, _, rfl, same, moved⟩ := moved.cons
    obtain ⟨equal, _, rfl, isEqual, moved⟩ := moved.cons
    obtain ⟨first, more, again, rfl, reads, alike⟩ :=
      readBack_of_readable value valueReadable _ _ moved
    refine ⟨found, equal, first, more, again, rfl, same.1.trans isName, isEqual.1, reads, ?_⟩
    simp only [Expr.mapTokens, Placeless.same same, same.2] at alike ⊢
    rw [alike]
  | _ => exact readable.elim

theorem readBack_of_keywordsReadable [Placeless change] : ∀ keywords : List Expr,
    Expr.KeywordsReadable False keywords → ∀ keyword ∈ keywords, KeywordReadBack change keyword
  | [], _ => fun _ none => absurd none not_mem_nil
  | keyword :: keywords, readable => forall_mem_cons.2
      ⟨readBack_of_keywordReadable keyword readable.1,
        readBack_of_keywordsReadable keywords readable.2⟩

end

end Parser

end NodeFormula
