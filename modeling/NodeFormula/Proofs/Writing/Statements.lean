import NodeFormula.Proofs.Writing.Expressions

/-!
# Writing formulas

A formula is written as its statements one after the other with blanks between the
tokens.  Reading the text of a readable formula makes no report and gives the same formula back,
up to the places of its tokens.
-/

namespace NodeFormula

open List Token

variable {target : Option Target} {param : Param}

/-! ## Tokens of statements -/

namespace DataType

variable {type : DataType}

/-- The word of a type; the types of what was not assigned or left out have none. -/
def word : DataType → String
  | .unknown => ""
  | .default => ""
  | .bool => "bool"
  | .int => "int"
  | .float => "float"
  | .rgba => "rgba"
  | .vec3 => "vec3"
  | .geometry => "geo"
  | .string => "str"
  | .shader => "shader"
  | .object => "obj"
  | .image => "img"
  | .collection => "collection"
  | .texture => "tex"
  | .material => "mat"

theorem ofWord_word (spelled : type.word ≠ "") : ofWord? type.word = some type := by
  cases type <;> first | rfl | exact absurd rfl spelled

theorem solid_word (spelled : type.word ≠ "") : (named type.word).Solid := by
  cases type <;> first
    | exact absurd rfl spelled
    | exact solid_of_read rfl (by decide) (by decide) (by decide) (by decide) (by decide)

end DataType

namespace Target

def write : Option Target → Token
  | some target => target.token
  | none => .sign .underscore

def writeMore : List (Option Target) → List Token
  | [] => []
  | target :: targets => .sign .comma :: write target :: writeMore targets

def mapTokens (change : Token → Token) : Option Target → Option Target :=
  Option.map fun target => { target with token := change target.token }

/-- A target that writing does not garble. -/
def Readable : Option Target → Prop
  | some target =>
    target.token.Solid ∧ target.token.kind = .identifier ∧ target.token.lexeme = target.id
  | none => True

end Target

namespace Param

def write (param : Param) : List Token :=
  param.token :: .sign .colon :: .named param.type.word ::
    match param.default with
    | some value => .sign .equal :: value.write Precedence.or
    | none => []

/-- Parameters behind commas, but for another sign that may be before the first. -/
def writeFrom (opening : TokenKind) : List Param → List Token
  | [] => []
  | param :: params => .sign opening :: param.write ++ writeFrom .comma params

def mapTokens (change : Token → Token) (param : Param) : Param :=
  { param with
    token := change param.token
    default := param.default.map (Expr.mapTokens change) }

/-- A parameter that writing does not garble. -/
def Readable (calculates : Prop) (param : Param) : Prop :=
  (param.token.Solid ∧ param.token.kind = .identifier ∧ param.token.lexeme = param.name) ∧
    param.type.word ≠ "" ∧ ∀ value ∈ param.default, value.Readable calculates

end Param

namespace Parser

def definitionKeyword : DefinitionKind → TokenKind
  | .function => .function
  | .nodeGroup => .nodeGroup

/-- A token is read as the name of a definition. -/
inductive ReadsName : Token → String → Prop
  | plain {token} (isName : token.kind = .identifier) : ReadsName token token.lexeme
  | quoted {token} (isText : token.kind = .text) : ReadsName token (inner 1 token.lexeme)

end Parser

namespace Stmt

def writeCounter : Option Target → List Token
  | some target => [target.token, .sign .equal]
  | none => []

mutual

def write : Stmt → List Token
  | .expr value => value.write Precedence.or ++ [sign .semicolon]
  | .assign token targets value =>
    (Target.writeMore targets).tail ++ token :: value.write Precedence.or ++ [sign .semicolon]
  | .out token targets value =>
    token :: (Target.writeMore targets).tail ++ .sign .equal :: value.write Precedence.or ++
      [sign .semicolon]
  | .definition kind token _ args body returns =>
    .sign (Parser.definitionKeyword kind) :: token :: .sign .leftParen ::
      (Param.writeFrom .comma args).tail ++ .sign .rightParen :: Param.writeFrom .arrow returns ++
      .sign .leftBrace :: writeAll body ++ [sign .rightBrace]
  | .loop token counter start stop body =>
    token :: writeCounter counter ++ ofInt start ++ .sign .arrow :: ofInt stop ++
      .sign .leftBrace :: writeAll body ++ [sign .rightBrace]
  | .missing => []

def writeAll : List Stmt → List Token
  | [] => []
  | stmt :: stmts => stmt.write ++ writeAll stmts

end

mutual

def mapTokens (change : Token → Token) : Stmt → Stmt
  | .expr value => .expr (value.mapTokens change)
  | .assign token targets value =>
    .assign (change token) (targets.map (Target.mapTokens change)) (value.mapTokens change)
  | .out token targets value =>
    .out (change token) (targets.map (Target.mapTokens change)) (value.mapTokens change)
  | .definition kind token name args body returns =>
    .definition kind (change token) name (args.map (Param.mapTokens change))
      (mapTokensAll change body) (returns.map (Param.mapTokens change))
  | .loop token counter start stop body =>
    .loop (change token) (Target.mapTokens change counter) start stop (mapTokensAll change body)
  | .missing => .missing

def mapTokensAll (change : Token → Token) : List Stmt → List Stmt
  | [] => []
  | stmt :: stmts => stmt.mapTokens change :: mapTokensAll change stmts

end

mutual

/-- A statement that writing does not garble. -/
def Readable (calculates : Prop) : Stmt → Prop
  | .expr value => value.Readable calculates
  | .assign token targets value =>
    (token.Solid ∧ token.kind = .equal) ∧ (∃ first others, targets = some first :: others) ∧
      (∀ target ∈ targets, Target.Readable target) ∧ value.Readable calculates
  | .out token targets value =>
    (token.Solid ∧ token.kind = .out) ∧ targets ≠ [] ∧
      (∀ target ∈ targets, Target.Readable target) ∧ value.Readable calculates
  | .definition _ token name args body returns =>
    (token.Solid ∧ Parser.ReadsName token name) ∧ (∀ param ∈ args, param.Readable calculates) ∧
      AllReadable calculates body ∧ ∀ param ∈ returns, param.Readable calculates
  | .loop token counter _ _ body =>
    (token.Solid ∧ token.kind = .loop) ∧ Target.Readable counter ∧ AllReadable calculates body
  | .missing => False

def AllReadable (calculates : Prop) : List Stmt → Prop
  | [] => True
  | stmt :: stmts => stmt.Readable calculates ∧ AllReadable calculates stmts

end

end Stmt

namespace Module

def write (body : Module) : String := joined (Stmt.writeAll body)

/-- A formula up to the places of its tokens. -/
def unplaced (body : Module) : Module := Stmt.mapTokensAll Token.unplaced body

/-- A formula that writing does not garble. -/
def Readable (body : Module) : Prop := Stmt.AllReadable False body

end Module

/-! ## Numbers -/

namespace Number

variable {c : Char}

theorem isDigit_bounds (digit : c.isDigit = true) : 48 ≤ c.toNat ∧ c.toNat ≤ 57 := by
  simp only [Char.isDigit, Bool.and_eq_true, decide_eq_true_eq] at digit
  exact ⟨UInt32.le_iff_toNat_le.1 digit.1, UInt32.le_iff_toNat_le.1 digit.2⟩

theorem isDigit_of_ascii (digit : c.isDigit = true) : Text.isDigit c = true := by
  have bounds := isDigit_bounds digit
  rw [Text.isDigit, if_pos (by omega), digit]

theorem digitValue_of_ascii (digit : c.isDigit = true) :
    Text.digitValue? c = some (c.toNat - '0'.toNat) := by
  have bounds := isDigit_bounds digit
  rw [Text.digitValue?, if_pos (by omega), if_pos digit]
  rfl

theorem isDigit_digitsOf (member : c ∈ digitsOf n) : c.isDigit = true :=
  Nat.isDigit_of_mem_toDigits (by decide) (by decide) member

theorem natOfDigits_digitsOf (n : Nat) : natOfDigits (digitsOf n) = n := by
  have agree : ∀ digits start, (∀ c ∈ digits, c.isDigit = true) →
      digits.foldl (fun value c => 10 * value + (Text.digitValue? c).getD 0) start =
        Nat.ofDigitChars 10 digits start := by
    intro digits
    induction digits with
    | nil => intro start _; rfl
    | cons c digits ih =>
      intro start areDigits
      obtain ⟨digit, others⟩ := forall_mem_cons.1 areDigits
      rw [foldl_cons, ih _ others, digitValue_of_ascii digit]
      rfl
  rw [natOfDigits, agree _ 0 fun c => isDigit_digitsOf]
  exact Nat.ofDigitChars_toDigits (by decide) (by decide)

end Number

theorem Token.solid_ofNat (n : Nat) : (ofNat n).Solid := by
  have nonempty : Number.digitsOf n ≠ [] := ne_nil_of_length_pos Nat.length_toDigits_pos
  obtain ⟨c, digits, shape⟩ := exists_cons_of_ne_nil nonempty
  have areDigits : ∀ d ∈ c :: digits, d.isDigit = true := fun d member =>
    Number.isDigit_digitsOf (shape ▸ member)
  have digit := areDigits c mem_cons_self
  have bounds := Number.isDigit_bounds digit
  have stable := Lexeme.stable_int digits (by omega) (Number.isDigit_of_ascii digit)
  rw [takeWhile_eq_self_iff.2 fun d member =>
    Number.isDigit_of_ascii (areDigits d (mem_cons_of_mem _ member))] at stable
  have chars : (ofNat n).lexeme.toList = c :: digits := by
    rw [ofNat, bare, String.toList_ofList, shape]
  refine ⟨nofun, ⟨nofun, nofun⟩, ?_, c, digits, chars, ?_, stable⟩
  · rw [chars]
    exact fun member => absurd (areDigits _ member) (by decide)
  · simp only [Text.isBlank, if_pos (show c.toNat < 128 by omega), Bool.or_eq_false_iff,
      Bool.and_eq_false_iff, decide_eq_false_iff_not]
    omega

theorem Token.solid_ofInt (n : Int) : AllSolid (ofInt n) := by
  unfold ofInt
  split <;> simp [solid_ofNat]

/-! ## Written tokens stand alone -/

theorem Target.solid_write (readable : Target.Readable target) : (write target).Solid := by
  cases target with
  | none => exact solid_sign (by decide)
  | some target => exact readable.1

theorem Target.solid_writeMore (readable : ∀ target ∈ targets, Target.Readable target) :
    AllSolid (writeMore targets) := by
  induction targets with
  | nil => exact allSolid_nil
  | cons target targets ih =>
    obtain ⟨first, others⟩ := forall_mem_cons.1 readable
    simp [writeMore, solid_write first, ih others]

namespace Param

theorem solid_write (readable : param.Readable False) : AllSolid param.write := by
  obtain ⟨⟨solid, _⟩, spelled, default⟩ := readable
  cases written : param.default with
  | none => simp [write, written, solid, DataType.solid_word spelled]
  | some value =>
    simp [write, written, solid, DataType.solid_word spelled,
      Expr.solid_write value (default value written)]

theorem solid_writeFrom (isSign : opening.sign ≠ "")
    (readable : ∀ param ∈ params, param.Readable False) : AllSolid (writeFrom opening params) := by
  induction params generalizing opening with
  | nil => exact allSolid_nil
  | cons param params ih =>
    obtain ⟨first, others⟩ := forall_mem_cons.1 readable
    have more := ih (show TokenKind.comma.sign ≠ "" by decide) others
    exact allSolid_cons.2 ⟨solid_sign isSign, allSolid_append.2 ⟨solid_write first, more⟩⟩

end Param

namespace Stmt

theorem solid_writeCounter (readable : Target.Readable counter) :
    AllSolid (writeCounter counter) := by
  cases counter with
  | none => exact allSolid_nil
  | some target => simp [writeCounter, readable.1]

mutual

theorem solid_write : ∀ stmt : Stmt, stmt.Readable False → AllSolid stmt.write
  | .expr value, readable => by simp [write, Expr.solid_write value readable]
  | .assign _ _ value, readable => by
    simp [write, (Target.solid_writeMore readable.2.2.1).tail, readable.1.1,
      Expr.solid_write value readable.2.2.2]
  | .out _ _ value, readable => by
    simp [write, (Target.solid_writeMore readable.2.2.1).tail, readable.1.1,
      Expr.solid_write value readable.2.2.2]
  | .definition kind _ _ _ body _, readable => by
    have args := Param.solid_writeFrom (show TokenKind.comma.sign ≠ "" by decide) readable.2.1
    have returns := Param.solid_writeFrom (show TokenKind.arrow.sign ≠ "" by decide) readable.2.2.2
    cases kind <;> simp [write, Parser.definitionKeyword, readable.1.1, args.tail, returns,
      solid_writeAll body readable.2.2.1]
  | .loop _ _ start stop body, readable => by
    simp [write, readable.1.1, solid_writeCounter readable.2.1, solid_ofInt,
      solid_writeAll body readable.2.2]

theorem solid_writeAll : ∀ stmts : List Stmt, AllReadable False stmts → AllSolid (writeAll stmts)
  | [], _ => allSolid_nil
  | stmt :: stmts, readable => by
    simp [writeAll, solid_write stmt readable.1, solid_writeAll stmts readable.2]

end

end Stmt

/-! ## Reading written tokens -/

theorem Stmt.mapTokensAll_eq (change : Token → Token) (stmts : List Stmt) :
    mapTokensAll change stmts = stmts.map (mapTokens change) := by
  induction stmts with
  | nil => rfl
  | cons stmt stmts ih => rw [mapTokensAll, ih, map_cons]

namespace Parser

section Written

variable {token previous : Token} {kind : TokenKind} {operand : Option Expr} {next : α → Step β}
  {holds : β → Token → Option Expr → Prop} {view : α → γ}

/-- Wherever the written tokens stand, a step takes them. -/
def EatsWritten {α : Type} (previous : Token) (operand : Option Expr) (step : Step α)
    (written rest : List Token) (holds : α → Token → Option Expr → Prop) : Prop :=
  ∀ tokens, Moved tokens written → Eats previous operand step tokens rest holds

theorem written_pure (isHeld : holds answer previous operand) :
    EatsWritten previous operand (pure answer) [] rest holds := by
  intro tokens moved
  obtain rfl := moved.nil
  exact eats_pure isHeld

theorem EatsWritten.then
    (eats : ∀ others, Moved others more →
      EatsWritten previous operand step written (others ++ rest) (Alike view value))
    (following : ∀ found, view found = view value →
      ∀ last after, EatsWritten last after (next found) more rest holds) :
    EatsWritten previous operand (step >>= next) (written ++ more) rest holds := by
  intro tokens moved
  obtain ⟨_, others, rfl, movedFirst, movedOthers⟩ := moved.append
  exact (eats others movedOthers _ movedFirst).then fun found alike last after =>
    following found alike last after _ movedOthers

theorem EatsWritten.first
    (eats : ∀ rest, EatsWritten previous operand step [token] rest (Alike view value))
    (following : ∀ found, view found = view value →
      ∀ last after, EatsWritten last after (next found) more rest holds) :
    EatsWritten previous operand (step >>= next) (token :: more) rest holds :=
  .then (fun _ _ => eats _) following

theorem EatsWritten.last (eats : EatsWritten previous operand step written rest (Alike view value))
    (following : ∀ found, view found = view value →
      ∀ last after, EatsWritten last after (next found) [] rest holds) :
    EatsWritten previous operand (step >>= next) written rest holds :=
  fun tokens moved => (eats tokens moved).last fun found last after alike =>
    following found alike last after [] rfl

theorem written_check (found : Bool) {next : Bool → Step β}
    (same : ∀ token ∈ (written ++ rest).head?, (token.kind == kind) = found)
    (others : EatsWritten previous operand (next found) written rest holds) :
    EatsWritten previous operand (check kind >>= next) written rest holds :=
  fun tokens moved => eats_check found (fun _ isHead => by
    obtain ⟨_, isOther, alike⟩ := moved.head isHead
    exact alike ▸ same _ isOther) (others tokens moved)

theorem written_accept {next : Bool → Step β} (same : token.kind = kind)
    (taken : ∀ found, found.kind = token.kind ∧ found.lexeme = token.lexeme →
      EatsWritten found operand (next true) written rest holds) :
    EatsWritten previous operand (accept kind >>= next) (token :: written) rest holds := by
  intro tokens moved
  obtain ⟨found, _, rfl, alike, moved⟩ := moved.cons
  exact eats_accept (alike.1.trans same) (taken found alike _ moved)

theorem written_refuse {next : Bool → Step β}
    (other : ∀ token ∈ (written ++ rest).head?, token.kind ≠ kind)
    (skipped : EatsWritten previous operand (next false) written rest holds) :
    EatsWritten previous operand (accept kind >>= next) written rest holds :=
  fun tokens moved => eats_refuse (fun _ isHead => by
    obtain ⟨_, isOther, alike⟩ := moved.head isHead
    exact alike ▸ other _ isOther) (skipped tokens moved)

theorem written_consume {next : Unit → Step β} (same : token.kind = kind)
    (others : ∀ found, found.kind = token.kind ∧ found.lexeme = token.lexeme →
      EatsWritten found operand (next ()) written rest holds) :
    EatsWritten previous operand (consume kind message >>= next) (token :: written) rest holds := by
  intro tokens moved
  obtain ⟨found, _, rfl, alike, moved⟩ := moved.cons
  exact eats_consume (alike.1.trans same) (others found alike _ moved)

theorem written_get {next : Parser → Step β} (others : ∀ tokens,
      EatsWritten previous operand (next (facing previous tokens operand)) written rest holds) :
    EatsWritten previous operand (get >>= next) written rest holds :=
  fun tokens moved => eats_get (others _ tokens moved)

theorem written_set {next : Unit → Step β}
    (others : EatsWritten previous found (next ()) written rest holds) :
    EatsWritten previous operand (setOperand found >>= next) written rest holds :=
  fun tokens moved => eats_set (others tokens moved)

end Written

variable {previous token : Token} {operand : Option Expr} {name : String}

theorem written_int (n : Int) :
    EatsWritten previous operand parseInt (ofInt n) rest (Alike id n) := by
  have digits {found : Token} (same : found.lexeme = (ofNat n.natAbs).lexeme) :
      Number.natOfDigits found.lexeme.toList = n.natAbs := by
    rw [same, ofNat, bare, String.toList_ofList, Number.natOfDigits_digitsOf]
  unfold ofInt
  split
  · refine written_accept rfl fun _ _ => written_consume rfl fun found same =>
      written_get fun _ => written_pure ?_
    show -(Number.natOfDigits found.lexeme.toList : Int) = n
    rw [digits same.2]
    omega
  · refine written_refuse (by simp [ofNat, bare]) (written_consume rfl fun found same =>
      written_get fun _ => written_pure ?_)
    show (Number.natOfDigits found.lexeme.toList : Int) = n
    rw [digits same.2]
    omega

theorem written_bounds (start stop : Int) : EatsWritten previous operand loopBounds
    (ofInt start ++ sign .arrow :: ofInt stop) rest (Alike id (start, stop)) := by
  refine .then (fun _ _ => written_int start) fun found same _ _ => ?_
  obtain rfl : found = start := same
  exact written_accept rfl fun _ _ => (written_int stop).last fun _ same _ _ =>
    written_pure (congrArg (Prod.mk found) same)

theorem kind_write (readable : Target.Readable target) : (Target.write target).kind ≠ .equal := by
  cases target with
  | none => decide
  | some target =>
    obtain ⟨_, isName, _⟩ := readable
    simp [Target.write, isName]

/-- What ends a parameter. -/
def EndsParam (tokens : List Token) : Prop :=
  ∀ token ∈ tokens.head?, token.kind.precedence < Precedence.or ∧ token.kind ≠ .equal

theorem endsParam_of_kind {kind : TokenKind} (same : ∀ token ∈ rest.head?, token.kind = kind)
    (ends : kind.precedence < Precedence.or ∧ kind ≠ .equal) : EndsParam rest :=
  fun token isHead => same token isHead ▸ ends

theorem endsParam_of_moved (moved : Moved others (Param.writeFrom .comma params))
    (ends : EndsParam rest) :
    EndsParam (others ++ rest) := by
  intro token isHead
  obtain ⟨written, isWritten, same⟩ := moved.head isHead
  rw [same]
  cases params with
  | nil => exact ends written isWritten
  | cons param params =>
    obtain rfl := Option.some.inj isWritten
    exact ⟨by decide, by decide⟩

variable (change : Token → Token)

section Bodies

variable [Evaluator]

/-- A written statement is read back wherever its tokens stand. -/
def StmtReadBack (change : Token → Token) (stmt : Stmt) : Prop :=
  ∀ tokens, Moved tokens stmt.write → ∃ first more, tokens = first :: more ∧
    ReadsStmt (Stmt.mapTokens change) first more stmt

def BodyReadBack (change : Token → Token) (stmts : List Stmt) : Prop :=
  ∀ tokens, Moved tokens (Stmt.writeAll stmts) → ReadsBody (Stmt.mapTokens change) tokens stmts

theorem readBack_of_eats (shape : stmt.write = token :: written)
    (starts : token.kind ≠ .endOfText ∧ token.kind ≠ .rightBrace)
    (eats : ∀ {previous rest fuel operand}, 8 * (written.length + 1) + 7 ≤ fuel →
      EatsWritten previous operand (declaration (fuel + 1)) (token :: written) rest
        (Alike (Option.map (Stmt.mapTokens change)) (some stmt))) : StmtReadBack change stmt := by
  intro tokens moved
  rw [shape] at moved
  obtain ⟨found, others, rfl, same, movedOthers⟩ := moved.cons
  rw [← same.1] at starts
  refine ⟨found, others, rfl, starts, fun enough => ?_⟩
  rw [movedOthers.length_eq] at enough
  exact eats enough _ moved

theorem written_braced {make : List Stmt → β} {look : β → δ} {result : β}
    (bodyBack : BodyReadBack change body) (enough : 8 * (Stmt.writeAll body).length + 9 ≤ fuel)
    (alike : ∀ found, found.map (Stmt.mapTokens change) = body.map (Stmt.mapTokens change) →
      look (make found) = look result) :
    EatsWritten previous operand (do
      consume .leftBrace message
      let body ← block fuel
      consume .rightBrace "Expect closing \"\x7d\"."
      setOperand none
      return make body) (sign .leftBrace :: (Stmt.writeAll body ++ [sign .rightBrace])) rest
      (Alike look result) := by
  obtain _ | less := fuel
  · omega
  refine written_consume rfl fun _ _ => .then (fun others movedOthers tokens moved =>
    block_of_reads (bodyBack tokens moved) ?_ (by rw [moved.length_eq]; omega))
      fun found same _ _ => ?_
  · exact movedOthers.heads
  · exact written_consume rfl fun _ _ => written_set (written_pure (alike found same))

end Bodies

section Statements

variable [Placeless change]

theorem written_name (reads : ReadsName token name) : EatsWritten previous operand
    (definitionName message) [token] rest (Alike (Prod.map change id) (token, name)) := by
  intro tokens moved
  obtain ⟨found, rfl, same⟩ := moved.single
  have alike : change found = change token := Placeless.same same
  cases reads with
  | plain isName =>
    exact eats_accept (same.1.trans isName)
      (eats_get (eats_pure (by simp [Alike, same, isName, alike])))
  | quoted isText =>
    exact eats_refuse (by simp [same, isText]) (eats_accept (same.1.trans isText)
      (eats_get (eats_pure (by simp [Alike, same, isText, alike]))))

/-! ### Targets -/

theorem target_alike {target : Target} (readable : Target.Readable (some target))
    (same : found.kind = target.token.kind ∧ found.lexeme = target.token.lexeme) :
    Target.mapTokens change (some ⟨found, found.lexeme⟩) = Target.mapTokens change
      (some target) := by
  simp only [Target.mapTokens, Option.map_some, Placeless.same same, same.2, readable.2.2]

theorem written_target (readable : Target.Readable target) :
    EatsWritten previous operand (Parser.target message) [Target.write target] rest
      (Alike (map (Target.mapTokens change)) [target]) := by
  cases target with
  | none =>
    exact written_refuse (by simp [Target.write, sign, bare])
      (written_accept rfl fun _ _ => written_pure rfl)
  | some target =>
    exact written_accept readable.2.1 fun found same => written_get fun _ =>
      written_pure (congrArg ([·]) (target_alike change readable same))

theorem written_targetList (isEqual : ∀ token ∈ rest.head?, token.kind = .equal)
    (readable : ∀ one ∈ target :: targets, Target.Readable one)
    (enough : (Target.writeMore targets).length ≤ fuel) :
    EatsWritten previous operand (targetList message (fuel + 1))
      (Target.write target :: Target.writeMore targets) rest
      (Alike (map (Target.mapTokens change)) (target :: targets)) := by
  induction targets generalizing target previous fuel operand with
  | nil =>
    obtain ⟨first, _⟩ := forall_mem_cons.1 readable
    refine written_check false (by simpa using kind_write first)
      (.first (fun _ => written_target change first) fun found alike _ _ => ?_)
    exact written_refuse (fun _ isHead => by simp [isEqual _ isHead]) (written_pure alike)
  | cons next targets ih =>
    obtain ⟨first, others⟩ := forall_mem_cons.1 readable
    obtain _ | less := fuel
    · simp [Target.writeMore] at enough
    refine written_check false (by simpa using kind_write first)
      (.first (fun _ => written_target change first) fun found alike _ _ => ?_)
    refine written_accept rfl fun _ _ =>
      (ih others (by simp only [Target.writeMore, length_cons] at enough; omega)).last
      fun more same _ _ => written_pure ?_
    rw [Alike, map_append, alike, same]
    rfl

theorem written_counter (readable : Target.Readable counter)
    (noName : ∀ token ∈ rest.head?, token.kind ≠ .identifier) :
    EatsWritten previous operand loopCounter (Stmt.writeCounter counter) rest
      (Alike (Target.mapTokens change) counter) := by
  cases counter with
  | none => exact written_refuse noName (written_pure rfl)
  | some target =>
    exact written_accept readable.2.1 fun name same => written_get fun _ =>
      written_consume rfl fun _ _ => written_pure (target_alike change readable same)

/-! ### Values and parameters -/

variable [Evaluator]

theorem written_value (readable : value.Readable False) (ends : Ends Precedence.or rest)
    (enough : 8 * (value.write Precedence.or).length + 3 ≤ fuel) :
    EatsWritten previous operand (expression fuel) (value.write Precedence.or) rest
      (Alike (Option.map (Expr.mapTokens change)) (some value)) := by
  intro tokens moved flawless nonempty
  rw [← moved.length_eq] at enough
  obtain ⟨_, _, again, rfl, reads, alike⟩ := readBack_of_readable change value readable _ _ moved
  obtain ⟨_, last, after, run, rfl, _⟩ := reads.expression ends enough flawless nonempty
  exact ⟨_, last, after, run, congrArg some alike⟩

theorem written_param (readable : param.Readable False) (ends : EndsParam rest)
    (enough : 8 * param.write.length ≤ fuel) : EatsWritten previous operand (parseParam fuel)
      param.write rest (Alike (Param.mapTokens change) param) := by
  obtain ⟨⟨_, isName, isId⟩, spelled, defaultReadable⟩ := readable
  refine written_consume isName fun name sameName => written_get fun _ => ?_
  simp only [parseType, bind_assoc]
  refine written_consume rfl fun _ _ => written_accept rfl fun word same => ?_
  simp only [if_true, bind_assoc]
  refine written_get fun _ => ?_
  have isType : DataType.ofWord? word.lexeme = some param.type := by
    rw [same.2]
    exact DataType.ofWord_word spelled
  have alike (found : Option Expr)
      (same : found.map (Expr.mapTokens change) = param.default.map (Expr.mapTokens change)) :
      Param.mapTokens change ⟨name, name.lexeme, param.type, found⟩ = param.mapTokens change := by
    simp only [Param.mapTokens, Placeless.same sameName, sameName.2, isId, same]
  simp only [previous_facing, isType, pure_bind]
  rw [Param.write] at enough
  cases written : param.default with
  | none =>
    exact written_refuse (fun token isHead => (ends token isHead).2)
      (written_pure (alike none (by rw [written])))
  | some value =>
    rw [written] at enough
    simp only [length_cons] at enough
    refine written_accept rfl fun _ _ => (written_value change (defaultReadable value written)
      (fun token isHead => (ends token isHead).1) (by omega)).last fun found same _ _ => ?_
    exact written_pure (alike found (by rw [same, written]))

theorem written_results (readable : ∀ param ∈ params, param.Readable False)
    (isBrace : ∀ token ∈ rest.head?, token.kind = .leftBrace) (opens : opening ≠ .leftBrace)
    (enough : 8 * (Param.writeFrom opening params).length ≤ fuel) :
    EatsWritten previous operand (results (fuel + 1) opening) (Param.writeFrom opening params) rest
      (Alike (map (Param.mapTokens change)) params) := by
  induction params generalizing previous fuel operand opening with
  | nil =>
    exact written_refuse (fun _ isHead => isBrace _ isHead ▸ opens.symm) (written_pure rfl)
  | cons param params ih =>
    obtain ⟨first, others⟩ := forall_mem_cons.1 readable
    simp only [Param.writeFrom, length_cons, cons_append, length_append] at enough
    obtain _ | less := fuel
    · omega
    refine written_accept rfl fun _ _ => .then (fun _ moved => written_param change first
      (endsParam_of_moved moved (endsParam_of_kind isBrace (by decide))) (by omega))
      fun found alike _ _ => ?_
    exact (ih others (by decide) (by omega)).last fun more same _ _ =>
      written_pure (cons_eq_cons.2 ⟨alike, same⟩)

theorem written_parameters (readable : ∀ param ∈ params, param.Readable False)
    (closes : ∀ token ∈ rest.head?, token.kind = .rightParen)
    (enough : 8 * (Param.writeFrom .comma params).length ≤ fuel + 8) :
    EatsWritten previous operand (parameters (fuel + 1)) (Param.writeFrom .comma params).tail rest
      (Alike (map (Param.mapTokens change)) params) := by
  induction params generalizing previous fuel operand with
  | nil => exact written_check true (fun _ isHead => by simp [closes _ isHead]) (written_pure rfl)
  | cons param params ih =>
    obtain ⟨first, others⟩ := forall_mem_cons.1 readable
    simp only [Param.writeFrom, Param.write, length_cons, cons_append, length_append] at enough
    obtain _ | less := fuel
    · omega
    refine written_check false (by simp [Param.writeFrom, Param.write, first.1.2.1])
      (.then (fun _ moved => written_param change first (endsParam_of_moved moved
        (endsParam_of_kind closes (by decide))) (by simp only [Param.write, length_cons]; omega))
      fun found alike _ _ => ?_)
    cases params with
    | nil =>
      exact written_refuse (fun _ isHead => by simp [closes _ isHead])
        (written_pure (congrArg ([·]) alike))
    | cons next params =>
      exact written_accept rfl fun _ _ => (ih others (by omega)).last fun more same _ _ =>
        written_pure (cons_eq_cons.2 ⟨alike, same⟩)

/-! ### Statements -/

theorem readBack_expr (readable : value.Readable False) : StmtReadBack change (.expr value) := by
  intro tokens moved
  obtain ⟨_, semicolon, rfl, movedValue, isSemicolon⟩ := moved.concat
  obtain ⟨first, more, again, rfl, reads, alike⟩ :=
    readBack_of_readable change value readable _ _ movedValue
  refine ⟨first, more ++ [semicolon], rfl, readsStmt_expr reads isSemicolon ?_⟩
  rw [Stmt.mapTokens, Stmt.mapTokens, alike]

theorem written_assigned (isEqual : token.kind = .equal)
    (alike : found.map (Target.mapTokens change) = targets.map (Target.mapTokens change))
    (readable : value.Readable False) (ends : ∀ token ∈ rest.head?, token.kind = .semicolon)
    (enough : 8 * (value.write Precedence.or).length + 3 ≤ fuel) :
    EatsWritten previous operand (assignment (expression fuel) found)
      (token :: value.write Precedence.or) rest
      (Alike (Option.map (Stmt.mapTokens change)) (some (.assign token targets value))) := by
  refine written_consume isEqual fun equal same => written_get fun _ =>
    (written_value change readable (fun token isHead => by rw [ends token isHead]; decide)
      enough).last fun found isFound _ _ => ?_
  obtain ⟨again, rfl, sameValue⟩ := Option.map_eq_some_iff.1 isFound
  refine written_pure (congrArg some ?_)
  simp only [Stmt.mapTokens, previous_facing, Placeless.same same, alike, sameValue]

theorem readBack_assign {target} (isEqual : token.kind = .equal)
    (targetsReadable : ∀ other ∈ some target :: targets, Target.Readable other)
    (valueReadable : value.Readable False) :
    StmtReadBack change (.assign token (some target :: targets) value) := by
  have isName := (targetsReadable _ mem_cons_self).2.1
  refine readBack_of_eats change (show Stmt.write _ = target.token ::
    ((Target.writeMore targets ++ token :: value.write Precedence.or) ++ [sign .semicolon]) by
      simp [Stmt.write, Target.writeMore, Target.write]) (by simp [isName]) ?_
  intro previous rest fuel operand enough tokens moved
  simp only [length_append, length_cons] at enough
  obtain ⟨less, rfl⟩ := Nat.exists_eq_add_of_le' (show 3 ≤ fuel by omega)
  obtain ⟨name, others, rfl, same, moved⟩ := moved.cons
  have isRule : name.kind.prefixRule? = some .name := by
    rw [same.1, isName]
    rfl
  have sameTarget := target_alike change (targetsReadable _ mem_cons_self) same
  have assigned (rest : List Token) (ends : ∀ token ∈ rest.head?, token.kind = .semicolon) :
      EatsWritten name operand (applyPrefix (less + 3) .name true)
        (Target.writeMore targets ++ token :: value.write Precedence.or) rest
        (Alike (Option.map (Stmt.mapTokens change))
          (some (.assign token (some target :: targets) value))) := by
    show EatsWritten _ _ (nameOrAssignment (less + 2) name true) _ _ _
    cases targets with
    | nil =>
      refine written_check true (by simp [Target.writeMore, isEqual]) ?_
      simp only [pure_bind, if_true, moreTargets, targetList, bind_assoc]
      refine written_check true (by simp [Target.writeMore, isEqual]) ?_
      exact (written_assigned change isEqual
        (congrArg ([·]) sameTarget) valueReadable ends (by omega))
    | cons next targets =>
      simp only [Target.writeMore, length_cons] at enough
      refine written_check false (by simp [Target.writeMore, sign, bare])
        (written_accept rfl fun _ _ =>
        .then (fun _ moved => written_targetList change (fun token isHead =>
          (moved.heads token isHead).trans isEqual)
            (forall_mem_cons.1 targetsReadable).2 (by omega))
        fun found alike _ _ => ?_)
      exact written_assigned change isEqual (cons_eq_cons.2 ⟨sameTarget, alike⟩) valueReadable ends
        (by omega)
  refine declaration_statement isRule (eats_advance (eats_get ?_))
  simp only [previous_facing, isRule]
  refine EatsWritten.then (fun _ movedEnd => assigned _ movedEnd.heads) (fun found alike _ _ => ?_)
    _ moved
  obtain ⟨stmt, rfl, _⟩ := Option.map_eq_some_iff.1 alike
  refine written_refuse (by simp [sign, bare]) ?_
  simp only [Bool.false_eq_true, if_false, pure_bind]
  exact written_accept rfl fun _ _ => written_set (written_pure alike)

theorem readBack_out (isOut : token.kind = .out)
    (targetsReadable : ∀ other ∈ target :: targets, Target.Readable other)
    (valueReadable : value.Readable False) :
    StmtReadBack change (.out token (target :: targets) value) := by
  refine readBack_of_eats change (show Stmt.write _ = token ::
    ((Target.write target :: Target.writeMore targets) ++ sign .equal ::
      (value.write Precedence.or ++ [sign .semicolon])) by simp [Stmt.write, Target.writeMore])
    (by simp [isOut]) ?_
  intro previous rest fuel operand enough
  simp only [length_append, length_cons] at enough
  obtain _ | less := fuel
  · omega
  refine written_accept isOut fun keyword same => written_get fun _ => .then (fun _ moved =>
    written_targetList change moved.heads targetsReadable (by omega)) fun found alike _ _ => ?_
  refine written_consume rfl fun _ _ => ?_
  obtain _ | ⟨one, found⟩ := found
  · cases alike
  refine .then (fun _ moved => written_value change valueReadable (fun token isHead => by
    rw [moved.heads token isHead]; decide) (by omega)) fun found isFound _ _ => ?_
  obtain ⟨again, rfl, sameValue⟩ := Option.map_eq_some_iff.1 isFound
  refine written_accept rfl fun _ _ => written_set (written_pure (congrArg some ?_))
  simp only [Stmt.mapTokens, previous_facing, Placeless.same same, alike, sameValue]

section Definitions

variable {args returns : List Param} (nameReads : ReadsName token name)
  (argsReadable : ∀ param ∈ args, param.Readable False)
  (returnsReadable : ∀ param ∈ returns, param.Readable False) (bodyBack : BodyReadBack change body)
include nameReads argsReadable returnsReadable bodyBack

theorem written_definition (kind : DefinitionKind) (enough : 8 *
      ((Param.writeFrom .comma args).length + (Param.writeFrom .arrow returns).length +
        (Stmt.writeAll body).length) + 10 ≤ fuel) :
    EatsWritten previous operand (definition kind message (structureOf fuel))
    (token :: sign .leftParen :: ((Param.writeFrom .comma args).tail ++ sign .rightParen ::
      (Param.writeFrom .arrow returns ++ sign .leftBrace ::
        (Stmt.writeAll body ++ [sign .rightBrace]))))
    rest (Alike (Option.map (Stmt.mapTokens change))
      (some (Stmt.definition kind token name args body returns))) := by
  obtain ⟨_, rfl⟩ := Nat.exists_eq_add_of_le' (show 2 ≤ fuel by omega)
  refine .first (fun _ => written_name change nameReads) fun found sameName _ _ => ?_
  simp only [structureOf, bind_assoc, pure_bind]
  refine written_consume rfl fun _ _ => .then (fun _ moved =>
    written_parameters change argsReadable moved.heads (by omega)) fun argsAgain sameArgs _ _ => ?_
  refine written_consume rfl fun _ _ => .then (fun _ moved =>
    written_results change returnsReadable moved.heads (by decide) (by omega))
    fun again sameReturns _ _ => ?_
  refine written_braced change bodyBack (by omega) fun bodyAgain sameBody => congrArg some ?_
  obtain ⟨sameToken, sameId⟩ := Prod.mk.inj sameName
  simp only [Stmt.mapTokens, Stmt.mapTokensAll_eq, sameToken, sameArgs, sameReturns, sameBody]
  exact congrArg (Stmt.definition kind _ · _ _ _) sameId

theorem readBack_definition {kind} :
    StmtReadBack change (.definition kind token name args body returns) := by
  refine readBack_of_eats change (by rw [Stmt.write]; simp only [append_assoc, cons_append]; rfl)
    (by cases kind <;> decide) ?_
  intro previous rest fuel operand enough
  simp only [length_append, length_cons, length_tail] at enough
  cases kind with
  | function =>
    exact written_refuse (by simp [sign, bare, definitionKeyword]) (written_accept rfl fun _ _ =>
      written_definition change nameReads argsReadable returnsReadable bodyBack _ (by omega))
  | nodeGroup =>
    exact written_refuse (by simp [sign, bare, definitionKeyword]) (written_refuse
      (by simp [sign, bare, definitionKeyword]) (written_accept rfl fun _ _ =>
      written_definition change nameReads argsReadable returnsReadable bodyBack _ (by omega)))

end Definitions

theorem readBack_loop {start stop} (isLoop : token.kind = .loop)
    (counterReadable : Target.Readable counter) (bodyBack : BodyReadBack change body) :
    StmtReadBack change (.loop token counter start stop body) := by
  refine readBack_of_eats change (show Stmt.write _ = token :: (Stmt.writeCounter counter ++
    ((ofInt start ++ sign .arrow :: ofInt stop) ++ (sign .leftBrace :: (Stmt.writeAll body ++
      [sign .rightBrace])))) by simp [Stmt.write]) (by simp [isLoop]) ?_
  intro previous rest fuel operand enough
  simp only [length_append, length_cons] at enough
  obtain _ | less := fuel
  · omega
  refine written_refuse (by simp [isLoop]) (written_refuse (by simp [isLoop]) (written_refuse
    (by simp [isLoop]) (written_accept isLoop fun keyword same => written_get fun _ => ?_)))
  refine .then (fun _ moved => written_counter change counterReadable fun token isHead => ?_)
    fun found sameCounter _ _ => ?_
  · obtain ⟨_, isWritten, sameKind⟩ := moved.head isHead
    unfold ofInt at isWritten
    rw [sameKind]
    split at isWritten <;> cases isWritten <;> exact nofun
  refine .then (fun _ _ => written_bounds start stop) fun bounds sameBounds _ _ => ?_
  obtain rfl : bounds = (start, stop) := sameBounds
  refine written_braced change bodyBack (by omega) fun bodyAgain sameBody => congrArg some ?_
  simp only [Stmt.mapTokens, Stmt.mapTokensAll_eq, previous_facing, Placeless.same same,
    sameCounter, sameBody]

end Statements

variable [Evaluator]

mutual

theorem readBack_of_readableStmt [Placeless change] :
    ∀ stmt : Stmt, stmt.Readable False → StmtReadBack change stmt
  | .expr _, readable => readBack_expr change readable
  | .assign _ targets _, readable => by
    obtain ⟨⟨_, isEqual⟩, ⟨first, others, rfl⟩, targetsReadable, valueReadable⟩ := readable
    exact readBack_assign change isEqual targetsReadable valueReadable
  | .out _ targets _, readable => by
    obtain ⟨⟨_, isOut⟩, nonempty, targetsReadable, valueReadable⟩ := readable
    obtain ⟨first, others, rfl⟩ := exists_cons_of_ne_nil nonempty
    exact readBack_out change isOut targetsReadable valueReadable
  | .definition _ _ _ _ body _, readable =>
    readBack_definition change readable.1.2 readable.2.1 readable.2.2.2
      (readBack_of_readableBody body readable.2.2.1)
  | .loop _ _ _ _ body, readable =>
    readBack_loop change readable.1.2 readable.2.1 (readBack_of_readableBody body readable.2.2)

theorem readBack_of_readableBody [Placeless change] :
    ∀ stmts : List Stmt, Stmt.AllReadable False stmts → BodyReadBack change stmts
  | [], _ => by
    intro tokens moved
    obtain rfl := moved.nil
    exact .nil
  | stmt :: stmts, readable => by
    intro tokens moved
    obtain ⟨_, _, rfl, movedStmt, movedOthers⟩ := moved.append
    obtain ⟨_, _, rfl, reads⟩ := readBack_of_readableStmt stmt readable.1 _ movedStmt
    exact .cons reads (readBack_of_readableBody stmts readable.2 _ movedOthers)

end

end Parser

/-- A readable formula is read back from its own text, without a report. -/
theorem parse_write [Evaluator] (change : Token → Token) [Parser.Placeless change] {body : Module}
    (readable : body.Readable) : ∃ again, parse body.write = .ok ⟨again, []⟩ ∧
      Stmt.mapTokensAll change again = Stmt.mapTokensAll change body := by
  have solid := Stmt.solid_writeAll body readable
  obtain ⟨found, _, scanned, moved, isEnd⟩ := scan_joined solid
  have flawless : Parser.Flawless found := by
    intro token member isError
    have same : token.unplaced ∈ (Stmt.writeAll body).map unplaced :=
      moved ▸ mem_map_of_mem member
    obtain ⟨written, memberWritten, sameToken⟩ := mem_map.1 same
    exact (solid written memberWritten).noError ((unplaced_inj.1 sameToken).1.trans isError)
  rw [parse, Parser.ofSource, Module.write, scanned]
  simp only [Stmt.mapTokensAll_eq]
  exact Parser.parse_of_reads (Parser.readBack_of_readableBody change body readable found moved)
    isEnd flawless

end NodeFormula
