import NodeFormula.Syntax.Parser

/-!
# What reading takes from its tokens

Which tokens reading without a mistake takes, and which tree it makes of them.  There is one rule
for each way to write an expression or an argument list, and it speaks of the tokens of its parts
only through the rules for these parts.

An expression is read at a level: operators that bind less tightly end it.  The rules hold for any
fuel that is large enough for the number of tokens, and say how much of it is left for those that
follow.
-/

namespace NodeFormula

open List

variable {kind : TokenKind} {closing previous opening : Token} {operand : Option Expr}

namespace Parser

/-! ## Steps -/

/-- A reader that has found no mistake, in front of some tokens. -/
def facing (previous : Token) (tokens : List Token) (operand : Option Expr) : Parser :=
  ⟨previous, tokens.headD previous, tokens.tail, false, [], operand⟩

def Flawless (tokens : List Token) : Prop := ∀ token ∈ tokens, token.kind ≠ .error

theorem flawless_cons : Flawless (token :: tokens) ↔ token.kind ≠ .error ∧ Flawless tokens :=
  forall_mem_cons

theorem flawless_append {first} :
    Flawless (first ++ second) ↔ Flawless first ∧ Flawless second :=
  forall_mem_append

section Steps

theorem bind_of_ok {parser after : Parser} {next : α → Step β}
    (done : step parser = .ok (answer, after)) : (step >>= next) parser = next answer after := by
  show (step parser >>= _) = _
  rw [done]
  rfl

theorem bind_get (next : Parser → Step β) (parser : Parser) :
    (get >>= next) parser = next parser parser := rfl

end Steps

section Facing

theorem advance_facing (fine : following.kind ≠ .error) :
    advance (facing previous (token :: following :: tokens) operand) =
      .ok ((), facing token (following :: tokens) operand) := by
  show Except.ok ((), next _) = _
  simp only [next, facing, advanceOver, headD_cons, tail_cons, if_neg fine]

theorem check_facing : check kind (facing previous (token :: tokens) operand) =
      .ok (token.kind == kind, facing previous (token :: tokens) operand) := rfl

@[simp]
theorem previous_facing : (facing previous tokens operand).previous = previous := rfl

@[simp]
theorem current_facing : (facing previous (token :: tokens) operand).current = token := rfl

end Facing

/-- In front of some tokens and others behind them, a step takes the first ones. -/
def Eats {α : Type} (previous : Token) (operand : Option Expr) (step : Step α)
    (tokens rest : List Token) (holds : α → Token → Option Expr → Prop) : Prop :=
  Flawless (tokens ++ rest) → rest ≠ [] → ∃ answer last after,
    step (facing previous (tokens ++ rest) operand) = .ok (answer, facing last rest after) ∧
      holds answer last after

/-- A step answered what looks like a value. -/
def Alike {α β : Type} (view : α → β) (value : α) : α → Token → Option Expr → Prop :=
  fun answer _ _ => view answer = view value

section Eats

variable {next : α → Step β} {holds : β → Token → Option Expr → Prop}

theorem eats_pure (isHeld : holds answer previous operand) :
    Eats previous operand (pure answer) [] rest holds :=
  fun _ _ => ⟨answer, previous, operand, rfl, isHeld⟩

theorem Eats.bind (eats : Eats previous operand step tokens (more ++ rest) mid)
    (others : ∀ found last after, mid found last after →
      Eats last after (next found) more rest holds) :
    Eats previous operand (step >>= next) (tokens ++ more) rest holds := by
  intro flawless nonempty
  rw [append_assoc] at flawless ⊢
  obtain ⟨found, last, after, run, isHeld⟩ := eats flawless (by simp [nonempty])
  rw [bind_of_ok run]
  exact others found last after isHeld (flawless_append.mp flawless).2 nonempty

theorem Flawless.following (flawless : Flawless (token :: tokens ++ rest)) (nonempty : rest ≠ []) :
    ∃ following others, tokens ++ rest = following :: others ∧ following.kind ≠ .error := by
  obtain ⟨following, others, same⟩ := exists_cons_of_ne_nil
    (show tokens ++ rest ≠ [] by simp [nonempty])
  exact ⟨following, others, same, flawless following (by simp [same])⟩

theorem eats_advance {next : Unit → Step β}
    (others : Eats token operand (next ()) tokens rest holds) :
    Eats previous operand (advance >>= next) (token :: tokens) rest holds := by
  intro flawless nonempty
  obtain ⟨following, _, shape, fine⟩ := flawless.following nonempty
  have run := others (flawless_cons.mp flawless).2 nonempty
  rw [shape] at run
  rw [cons_append, shape, bind_of_ok (advance_facing fine)]
  exact run

theorem eats_check (found : Bool) {next : Bool → Step β}
    (same : ∀ token ∈ (tokens ++ rest).head?, (token.kind == kind) = found)
    (others : Eats previous operand (next found) tokens rest holds) :
    Eats previous operand (check kind >>= next) tokens rest holds := by
  intro flawless nonempty
  have run := others flawless nonempty
  obtain ⟨following, _, shape⟩ := exists_cons_of_ne_nil
    (show tokens ++ rest ≠ [] by simp [nonempty])
  rw [shape] at run same ⊢
  rw [bind_of_ok check_facing, same following rfl]
  exact run

theorem eats_accept {next : Bool → Step β} (same : token.kind = kind)
    (taken : Eats token operand (next true) tokens rest holds) :
    Eats previous operand (accept kind >>= next) (token :: tokens) rest holds := by
  rw [accept, bind_assoc]
  refine eats_check true (by simp [same]) ?_
  simp only [if_true, bind_assoc]
  exact eats_advance taken

theorem eats_refuse {next : Bool → Step β}
    (other : ∀ token ∈ (tokens ++ rest).head?, token.kind ≠ kind)
    (skipped : Eats previous operand (next false) tokens rest holds) :
    Eats previous operand (accept kind >>= next) tokens rest holds := by
  rw [accept, bind_assoc]
  refine eats_check false (fun token isHead => by simp [other token isHead]) ?_
  exact skipped

theorem eats_consume {next : Unit → Step β} (same : token.kind = kind)
    (others : Eats token operand (next ()) tokens rest holds) :
    Eats previous operand (consume kind message >>= next) (token :: tokens) rest holds := by
  rw [consume, bind_assoc]
  refine eats_check true (by simp [same]) ?_
  exact eats_advance others

theorem Eats.last (eats : Eats previous operand step tokens rest mid)
    (others : ∀ found last after, mid found last after →
      Eats last after (next found) [] rest holds) :
    Eats previous operand (step >>= next) tokens rest holds := by
  rw [← append_nil tokens]
  exact eats.bind others

theorem Eats.then {view : α → γ} {value : α}
    (eats : Eats previous operand step tokens (more ++ rest) (Alike view value))
    (others : ∀ found, view found = view value →
      ∀ last after, Eats last after (next found) more rest holds) :
    Eats previous operand (step >>= next) (tokens ++ more) rest holds :=
  eats.bind fun found last after alike => others found alike last after

theorem eats_get {next : Parser → Step β}
    (others : Eats previous operand (next (facing previous (tokens ++ rest) operand)) tokens rest
      holds) : Eats previous operand (get >>= next) tokens rest holds := others

theorem eats_set {next : Unit → Step β} (others : Eats previous found (next ()) tokens rest holds) :
    Eats previous operand (setOperand found >>= next) tokens rest holds := others

end Eats

/-! ## Expressions -/

def literal? (token : Token) : Option Literal :=
  match token.kind with
  | .int => some (.int (Number.natOfDigits token.lexeme.toList))
  | .float => some (.float (.ofPoint token.lexeme.toList))
  | .underscore => some .placeholder
  | .text => some (.text (inner 1 token.lexeme))
  | .true | .false => some (.bool (token.lexeme == "true"))
  | _ => none

/-- The first of the tokens behind an expression does not continue it at a level. -/
def Ends (level : Nat) (tokens : List Token) : Prop :=
  ∀ stop ∈ tokens.head?, stop.kind.precedence < level

theorem ends_cons (same : stop.kind = kind) (ends : kind.precedence < level) :
    Ends level (stop :: others) := by
  rintro _ ⟨⟩
  rw [same]
  exact ends

def Ready {α : Type} (answer : α) (expr : Expr) : α → Token → Option Expr → Prop :=
  fun found last operand => found = answer ∧ operand = some expr ∧ last.kind ≠ .leftParen

theorem precedence_ne_unary (kind : TokenKind) : kind.precedence ≠ Precedence.unary := by
  cases kind <;> decide

theorem precedence_of_binary (isBinary : kind.infixRule? = some (.binary op)) :
    kind.precedence < Precedence.member := by
  cases kind <;> first | decide | cases isBinary

def Separated (tokens : List Token) : Prop := ∀ token ∈ tokens.head?, token.kind = .comma

theorem separated_cons (isComma : comma.kind = .comma) : Separated (comma :: tokens) := by
  rintro _ ⟨⟩
  exact isComma

theorem Separated.ends (separated : Separated tokens) (ends : Ends Precedence.or rest) :
    Ends Precedence.or (tokens ++ rest) := by
  cases tokens with
  | nil => exact ends
  | cons comma tokens => exact ends_cons (separated comma rfl) (by decide)

theorem ends_closing (closes : closing.kind = .rightParen) :
    Ends Precedence.or (closing :: rest) := ends_cons closes (by decide)

variable [Evaluator]

/--
Tokens are read as an expression at a level: whatever loop started to read, it goes on behind them.
-/
structure Reads (level : Nat) (first : Token) (more : List Token) (expr : Expr) : Prop where
  /-- The tokens are not taken for the start of an assignment or for a named argument. -/
  noTarget : first.kind = .identifier → ∀ token ∈ more.head?,
    token.kind ≠ .equal ∧ token.kind ≠ .comma
  reads : ∃ rule, first.kind.prefixRule? = some rule ∧
    ∀ loop rest fuel spare operand, loop ≤ level → loop ≤ Precedence.member →
      Ends (level + 1) rest → Flawless (more ++ rest) → rest ≠ [] →
      8 * (more.length + 1) + spare ≤ fuel → ∃ middle last left, spare ≤ left ∧
        last.kind ≠ .leftParen ∧
        applyPrefix fuel rule false (facing first (more ++ rest) operand) = .ok (none, middle) ∧
        continueWith fuel loop middle = continueWith left loop (facing last rest (some expr))

section Reads

/-- Tokens that a rule reads whatever follows them are read at every level. -/
theorem reads_of_eats (isRule : first.kind.prefixRule? = some rule)
    (noTarget : first.kind ≠ .identifier ∨ more = [])
    (eats : ∀ rest fuel operand, Ends (level + 1) rest → 8 * (more.length + 1) ≤ fuel + 1 →
      Eats first operand (applyPrefix (fuel + 1) rule false) more rest (Ready none expr)) :
    Reads level first more expr := by
  refine ⟨?_, rule, isRule, ?_⟩
  · rcases noTarget with other | rfl
    · exact fun same => absurd same other
    · exact nofun
  intro loop rest fuel spare operand _ _ ends flawless nonempty enough
  obtain _ | less := fuel
  · omega
  obtain ⟨_, last, _, run, rfl, rfl, isLast⟩ :=
    eats rest less operand ends (by omega) flawless nonempty
  exact ⟨_, last, less + 1, by omega, isLast, run, rfl⟩

theorem reads_constant (isLiteral : literal? token = some literal) :
    Reads level token [] (.constant token literal) := by
  have kinds : token.kind ≠ .identifier ∧ token.kind ≠ .leftParen := by
    constructor <;> intro same <;> simp [literal?, same] at isLiteral
  obtain ⟨rule, isRule, applied⟩ : ∃ rule, token.kind.prefixRule? = some rule ∧
      ∀ fuel rest operand, Eats token operand (applyPrefix (fuel + 1) rule false) [] rest
        (Ready none (.constant token literal)) := by
    unfold literal? at isLiteral
    split at isLiteral
    all_goals cases isLiteral
    all_goals rename_i same
    all_goals exact ⟨_, by rw [same]; rfl, fun _ _ _ _ _ => ⟨_, _, _, rfl, rfl, rfl, kinds.2⟩⟩
  exact reads_of_eats isRule (.inr rfl) fun rest fuel operand _ _ => applied fuel rest operand

theorem reads_name (isName : token.kind = .identifier) :
    Reads level token [] (.name token token.lexeme) := by
  refine reads_of_eats (by rw [isName]; rfl) (.inr rfl) fun rest fuel operand _ enough => ?_
  obtain _ | less := fuel
  · simp at enough
  exact fun _ _ => ⟨_, _, _, rfl, rfl, rfl, by simp [isName]⟩

theorem continueWith_stops {loop : Nat} (ends : parser.current.kind.precedence < loop) :
    continueWith (fuel + 1) loop parser = .ok ((), parser) := by
  rw [continueWith, bind_get, if_neg (by omega)]
  rfl

theorem Reads.first_ne (reads : Reads level first more expr) (noRule : kind.prefixRule? = none) :
    first.kind ≠ kind := by
  obtain ⟨_, isRule, _⟩ := reads.reads
  rintro rfl
  cases noRule.symm.trans isRule

theorem Reads.parseAdvanced (reads : Reads level first more expr)
    (small : level ≤ Precedence.member) (ends : Ends level rest)
    (enough : 8 * (more.length + 1) + 2 ≤ fuel) :
    Eats first operand (parsePrecedence fuel level true) more rest
      (Ready (some expr) expr) := by
  obtain ⟨rule, isRule, run⟩ := reads.reads
  intro flawless nonempty
  obtain _ | less := fuel
  · omega
  obtain ⟨middle, last, _, positive, isLast, applied, continued⟩ :=
    run level rest less 1 operand (Nat.le_refl _) small
      (fun stop isHead => Nat.lt_succ_of_lt (ends stop isHead)) flawless nonempty (by omega)
  obtain ⟨_, rfl⟩ := Nat.exists_eq_add_of_le' positive
  obtain ⟨stop, others, rfl⟩ := exists_cons_of_ne_nil nonempty
  refine ⟨some expr, last, some expr, ?_, rfl, rfl, isLast⟩
  have stopped : continueWith less level middle =
      .ok ((), facing last (stop :: others) (some expr)) := by
    rw [continued, continueWith_stops (ends stop rfl)]
  rw [parsePrecedence]
  simp only [Bool.not_true, Bool.false_eq_true, if_false]
  rw [bind_get, previous_facing, isRule]
  show (applyPrefix less rule false >>= _) _ = _
  rw [bind_of_ok applied, bind_of_ok stopped]
  rfl

theorem Reads.parsePrecedence (reads : Reads level first more expr)
    (small : level ≤ Precedence.member) (ends : Ends level rest)
    (enough : 8 * (more.length + 1) + 2 ≤ fuel) :
    Eats previous operand (parsePrecedence fuel level false) (first :: more) rest
      (Ready (some expr) expr) := by
  obtain _ | less := fuel
  · omega
  have run : Eats first operand _ _ _ _ := reads.parseAdvanced small ends enough
  exact eats_advance run

theorem Reads.expression (reads : Reads Precedence.or first more expr)
    (ends : Ends Precedence.or rest) (enough : 8 * (more.length + 1) + 3 ≤ fuel) :
    Eats previous operand (expression fuel) (first :: more) rest
      (Ready (some expr) expr) := by
  obtain _ | less := fuel
  · omega
  exact reads.parsePrecedence (by decide) ends (by omega)

end Reads

theorem reads_grouping (opens : opening.kind = .leftParen) (closes : closing.kind = .rightParen)
    (inside : Reads Precedence.or first more expr) :
    Reads level opening (first :: more ++ [closing]) expr := by
  refine reads_of_eats (by rw [opens]; rfl) (.inl (by simp [opens])) ?_
  intro rest fuel operand _ enough
  simp only [length_append, length_cons] at enough
  refine eats_get ((inside.expression (ends_cons closes (by decide)) (by omega)).bind ?_)
  rintro _ last _ ⟨rfl, rfl, _⟩
  exact eats_set (eats_consume closes (eats_pure ⟨rfl, rfl, by simp [closes]⟩))

theorem reads_unary {op} (tight : level ≤ Precedence.unary)
    (isUnary : token.kind.prefixRule? = some (.unary op))
    (inside : Reads Precedence.unary first more expr) :
    Reads level token (first :: more) (.unary token op expr) := by
  have other : token.kind ≠ .identifier := by
    intro same
    rw [same] at isUnary
    cases isUnary
  refine reads_of_eats isUnary (.inl other) fun rest fuel operand ends enough => ?_
  simp only [length_cons] at enough
  have below : Ends Precedence.unary rest := fun stop isHead =>
    Nat.lt_of_le_of_ne (Nat.le_trans (Nat.lt_succ_iff.mp (ends stop isHead)) tight)
      (precedence_ne_unary _)
  refine eats_get ((inside.parsePrecedence (by decide) below (by omega)).last ?_)
  rintro _ last _ ⟨rfl, rfl, isLast⟩
  exact eats_set (eats_pure ⟨rfl, rfl, isLast⟩)

/-- A token that continues an expression, and what belongs to it. -/
structure Extends (level : Nat) (token : Token) (following : List Token) (operand expr : Expr) :
    Prop where
  isInfix : ∃ rule, token.kind.infixRule? = some rule
  tight : min level Precedence.member ≤ token.kind.precedence
  reads : ∀ rest fuel, Ends (level + 1) rest → 8 * following.length + 6 ≤ fuel →
    Eats token (some operand) (applyInfix (fuel + 1)) following rest (Ready () expr)

theorem Reads.extend {inner operand} (inside : Reads inner first more operand)
    (below : token.kind.precedence ≤ inner)
    (extends_ : Extends level token following operand expr) :
    Reads level first (more ++ token :: following) expr := by
  obtain ⟨rule, isRule, run⟩ := inside.reads
  obtain ⟨⟨_, isInfix⟩, _, apply⟩ := extends_
  constructor
  · intro isName other isHead
    cases more with
    | nil =>
      obtain rfl := Option.some.inj isHead
      constructor <;> intro same <;> rw [same] at isInfix <;> cases isInfix
    | cons second more => exact inside.noTarget isName other isHead
  refine ⟨rule, isRule, ?_⟩
  intro loop rest fuel spare operand' small inMember ends flawless nonempty enough
  simp only [length_append, length_cons] at enough
  simp only [append_assoc] at flawless ⊢
  have flawlessRest := (flawless_append.mp flawless).2
  obtain ⟨middle, _, remaining, _, _, applied, continued⟩ :=
    run loop (token :: (following ++ rest)) fuel (8 * (following.length + 1) + spare) operand'
      (by omega) inMember (ends_cons rfl (Nat.lt_succ_of_le below)) flawless (by simp) (by omega)
  obtain ⟨less, rfl⟩ := Nat.exists_eq_add_of_le' (show 2 ≤ remaining by omega)
  obtain ⟨_, last, _, extended, _, rfl, isLast⟩ :=
    apply rest less ends (by omega) (flawless_cons.mp flawlessRest).2 nonempty
  refine ⟨middle, last, less + 1, by omega, isLast, applied, ?_⟩
  obtain ⟨_, _, shape, fine⟩ := flawlessRest.following nonempty
  rw [shape] at continued extended
  rw [continued, continueWith, bind_get, current_facing, if_pos (by omega),
    bind_of_ok (advance_facing fine), bind_of_ok extended]

theorem extends_binary (isBinary : token.kind.infixRule? = some (.binary op))
    (tight : level ≤ token.kind.precedence)
    (inside : Reads (token.kind.precedence + 1) first more right) :
    Extends level token (first :: more) left (.binary token left op right) := by
  refine ⟨⟨_, isBinary⟩, by omega, fun rest fuel ends enough => ?_⟩
  simp only [length_cons] at enough
  have below : Ends (token.kind.precedence + 1) rest := fun stop isHead =>
    Nat.lt_of_lt_of_le (ends stop isHead) (by omega)
  refine eats_get ?_
  simp only [previous_facing, isBinary]
  refine eats_get
    ((inside.parsePrecedence (precedence_of_binary isBinary) below (by omega)).last ?_)
  rintro _ last _ ⟨rfl, rfl, isLast⟩
  exact fun _ _ => ⟨(), last, _, rfl, rfl, rfl, isLast⟩

theorem extends_member (isDot : dot.kind = .dot) (isName : attr.kind = .identifier) :
    Extends level dot [attr] value (.member dot value attr.lexeme) := by
  refine ⟨⟨.dot, by rw [isDot]; rfl⟩, by rw [isDot]; exact Nat.min_le_right _ _, ?_⟩
  intro rest fuel _ _
  refine eats_get ?_
  simp only [previous_facing, isDot]
  exact eats_consume isName fun _ _ => ⟨(), attr, _, rfl, rfl, rfl, by simp [isName]⟩

/-! ## Arguments -/

def Leaves {α : Type} (answer : α) : α → Token → Option Expr → Prop :=
  fun found last _ => found = answer ∧ last.kind ≠ .leftParen

/-- With fuel enough, a step takes some tokens in front of a closing parenthesis. -/
def Takes {α : Type} (step : Nat → Step α) (need : Nat) (tokens : List Token) (answer : α) :
    Prop :=
  ∀ {previous closing rest fuel operand}, previous.kind ≠ .leftParen →
    closing.kind = .rightParen → need ≤ fuel →
    Eats previous operand (step fuel) tokens (closing :: rest) (Leaves answer)

/-- Tokens are read as named arguments, each after a comma. -/
structure ReadsKeywords (tokens : List Token) (keywords : List Expr) : Prop where
  separated : Separated tokens
  takes : Takes keywordLoop (8 * tokens.length + 1) tokens (some keywords)

/-- Tokens are read as arguments, each after a comma. -/
structure ReadsMore (tokens : List Token) (args keywords : List Expr) : Prop where
  separated : Separated tokens
  takes : Takes argLoop (8 * tokens.length + 1) tokens (some (args, keywords))

/-- Tokens are read as arguments with commas between them, after a separator. -/
structure ReadsArgs (first : Token) (more : List Token) (args keywords : List Expr) : Prop where
  starts : first.kind ≠ .comma ∧ first.kind ≠ .rightParen
  takes : ∀ {previous closing rest fuel operand}, closing.kind = .rightParen →
    8 * (more.length + 1) + 4 ≤ fuel →
    Eats previous operand (argument fuel) (first :: more) (closing :: rest)
      (Leaves (some (args, keywords)))

theorem readsKeywords_nil : ReadsKeywords [] [] := by
  refine ⟨nofun, fun {previous closing rest fuel operand} notOpening closes enough => ?_⟩
  obtain _ | less := fuel
  · omega
  exact eats_refuse (by simp [closes]) (eats_pure ⟨rfl, notOpening⟩)

theorem readsMore_nil : ReadsMore [] [] [] := by
  refine ⟨nofun, fun {previous closing rest fuel operand} notOpening closes enough => ?_⟩
  obtain _ | less := fuel
  · omega
  refine eats_refuse (by simp [closes]) (eats_get ?_)
  rw [previous_facing, beq_eq_false_iff_ne.mpr notOpening]
  exact eats_pure ⟨rfl, notOpening⟩

theorem readsMore_cons (isComma : comma.kind = .comma)
    (inside : ReadsArgs first more args keywords) :
    ReadsMore (comma :: first :: more) args keywords := by
  refine ⟨separated_cons isComma, fun {previous closing rest fuel operand} _ closes enough => ?_⟩
  simp only [length_cons] at enough
  obtain _ | less := fuel
  · omega
  exact eats_accept isComma (eats_get (inside.takes closes (by omega)))

theorem readsKeywords_cons (isComma : comma.kind = .comma) (isName : name.kind = .identifier)
    (isEqual : equal.kind = .equal) (inside : Reads Precedence.or first more value)
    (following : ReadsKeywords tokens keywords) :
    ReadsKeywords (comma :: name :: equal :: first :: more ++ tokens)
      (.keyword name name.lexeme value :: keywords) := by
  refine ⟨separated_cons isComma, fun {previous closing rest fuel operand} _ closes enough => ?_⟩
  simp only [length_cons, length_append] at enough
  obtain _ | less := fuel
  · omega
  refine eats_accept isComma (eats_consume isName (eats_get (eats_consume isEqual ?_)))
  refine (inside.expression (following.separated.ends (ends_closing closes)) (by omega)).bind ?_
  rintro _ last _ ⟨rfl, rfl, isLast⟩
  refine (following.takes isLast closes (by omega)).last ?_
  rintro _ last _ ⟨rfl, isLast⟩
  exact eats_pure ⟨rfl, isLast⟩

theorem readsArgs_keyword (isName : name.kind = .identifier) (isEqual : equal.kind = .equal)
    (inside : Reads Precedence.or first more value) (following : ReadsKeywords tokens keywords) :
    ReadsArgs name (equal :: first :: more ++ tokens) []
      (.keyword name name.lexeme value :: keywords) := by
  refine ⟨by simp [isName], fun {previous closing rest fuel operand} closes enough => ?_⟩
  simp only [length_cons, length_append] at enough
  obtain _ | less := fuel
  · omega
  refine eats_accept isName (eats_get (eats_check true (by simp [isEqual]) (eats_advance ?_)))
  refine (inside.expression (following.separated.ends (ends_closing closes)) (by omega)).bind ?_
  rintro _ last _ ⟨rfl, rfl, isLast⟩
  refine (following.takes isLast closes (by omega)).last ?_
  rintro _ last _ ⟨rfl, isLast⟩
  refine (readsMore_nil.takes isLast closes (by simp; omega)).last ?_
  rintro _ last _ ⟨rfl, isLast⟩
  exact eats_pure ⟨by simp, isLast⟩

theorem readsArgs_positional (inside : Reads Precedence.or first more arg)
    (following : ReadsMore tokens args keywords) :
    ReadsArgs first (more ++ tokens) (arg :: args) keywords := by
  refine ⟨⟨inside.first_ne rfl, inside.first_ne rfl⟩,
    fun {previous closing rest fuel operand} closes enough => ?_⟩
  simp only [length_append] at enough
  obtain ⟨less, rfl⟩ := Nat.exists_eq_add_of_le' (show 2 ≤ fuel by omega)
  have ends : Ends Precedence.or (tokens ++ closing :: rest) :=
    following.separated.ends (ends_closing closes)
  -- What follows an argument does not depend on how the argument was read.
  have goesOn (found : Option Expr) (last : Token) (after : Option Expr)
      (isRead : Ready (some arg) arg found last after) :
      Eats last after (positional (less + 1) found) tokens (closing :: rest)
        (Leaves (some (arg :: args, keywords))) := by
    obtain ⟨rfl, rfl, isLast⟩ := isRead
    refine (following.takes isLast closes (by omega)).last ?_
    rintro _ last _ ⟨rfl, isLast⟩
    exact eats_pure ⟨rfl, isLast⟩
  by_cases isName : first.kind = .identifier
  · have other : ∀ token ∈ (more ++ tokens ++ closing :: rest).head?,
        (token.kind == .equal) = false := by
      intro token isHead
      rw [beq_eq_false_iff_ne]
      cases more with
      | cons second more => exact (inside.noTarget isName token isHead).1
      | nil =>
        cases tokens with
        | nil => cases isHead; simp [closes]
        | cons comma tokens => cases isHead; simp [following.separated token rfl]
    refine eats_accept isName (eats_get (eats_check false other ?_))
    exact (inside.parseAdvanced (by decide) ends (by omega)).bind goesOn
  · refine eats_refuse (by simpa using isName) ?_
    exact (inside.expression ends (by omega)).bind goesOn

/-- The arguments of a call, from its opening to its closing parenthesis. -/
inductive ReadsCall : List Token → List Expr → List Expr → Prop
  | empty : ReadsCall [] [] []
  | filled {first more args keywords}
      (inside : ReadsArgs first more args keywords) : ReadsCall (first :: more) args keywords

section Calls

variable (opens : opening.kind = .leftParen) (closes : closing.kind = .rightParen)
  (call : ReadsCall tokens args keywords)
include opens closes call

theorem eats_callArgs (enough : 8 * tokens.length + 6 ≤ fuel) :
    Eats opening operand (callArgs fuel) (tokens ++ [closing]) rest
      (Leaves (some (args, keywords))) := by
  obtain ⟨less, rfl⟩ := Nat.exists_eq_add_of_le' (show 2 ≤ fuel by omega)
  have closed (last : Token) (after : Option Expr) : Eats last after
      (consume .rightParen "Expect \")\" after arguments." >>= fun _ =>
        pure (some (args, keywords)))
      [closing] rest (Leaves (some (args, keywords))) :=
    eats_consume closes (eats_pure ⟨rfl, by simp [closes]⟩)
  cases call with
  | empty => exact eats_check true (by simp [closes]) (closed _ _)
  | @filled first more _ _ inside =>
    simp only [length_cons] at enough
    refine eats_check false (by simpa using inside.starts.2) ?_
    have looped : Eats opening operand (argLoop (less + 1)) (first :: more) (closing :: rest)
        (Leaves (some (args, keywords))) := by
      refine eats_refuse (by simpa using inside.starts.1) (eats_get ?_)
      rw [previous_facing, opens]
      exact inside.takes closes (by omega)
    refine looped.bind ?_
    rintro _ last after ⟨rfl, _⟩
    exact closed last after

theorem extends_parens {operand : Expr} {made : List Expr → List Expr → Expr}
    (applied : ∀ fuel state, state.previous = opening → state.operand = some operand →
      applyInfix (fuel + 1) state = (callArgs fuel >>= fun found => match found with
        | none => pure ()
        | some (args, keywords) => setOperand (some (made args keywords))) state) :
    Extends level opening (tokens ++ [closing]) operand (made args keywords) := by
  have tight : min level Precedence.member ≤ opening.kind.precedence := by
    rw [opens]
    exact Nat.le_trans (Nat.min_le_right _ _) (by decide)
  refine ⟨⟨.call, by rw [opens]; rfl⟩, tight, fun rest fuel _ enough flawless nonempty => ?_⟩
  simp only [length_append] at enough
  rw [applied fuel _ rfl rfl]
  refine (eats_callArgs opens closes call (by omega)).last ?_ flawless nonempty
  rintro _ last _ ⟨rfl, isLast⟩
  exact fun _ _ => ⟨(), last, _, rfl, rfl, rfl, isLast⟩

theorem extends_call {id : String} :
    Extends level opening (tokens ++ [closing]) (.name callee id)
      (.call opening callee id args keywords) := by
  apply extends_parens opens closes call
  rintro fuel state rfl isName
  rw [applyInfix, bind_get, opens]
  simp only [TokenKind.infixRule?]
  rewrite [bind_get, isName]
  rfl

theorem extends_method :
    Extends level opening (tokens ++ [closing]) (.member dot receiver attr)
      (.method opening dot receiver attr args keywords) := by
  apply extends_parens opens closes call
  rintro fuel state rfl isMember
  rw [applyInfix, bind_get, opens]
  simp only [TokenKind.infixRule?]
  rewrite [bind_get, isMember]
  rfl

theorem reads_groupCall (isName : name.kind = .groupName) :
    Reads level name (opening :: tokens ++ [closing])
      (.call name name (inner 2 name.lexeme) args keywords) := by
  refine reads_of_eats (by rw [isName]; rfl) (.inl (by simp [isName])) ?_
  intro rest fuel operand _ enough
  simp only [length_append, length_cons] at enough
  refine eats_get (eats_consume opens ((eats_callArgs opens closes call (by omega)).last ?_))
  rintro _ last _ ⟨rfl, isLast⟩
  exact eats_set (eats_pure ⟨rfl, rfl, isLast⟩)

end Calls

/-! ## Vectors -/

/-- The component of a vector after another one, which may be left out. -/
inductive ReadsComponent (brace : Token) : List Token → Expr → Prop
  | leftOut : ReadsComponent brace [] (.constant brace .placeholder)
  | written {comma first : Token} {more : List Token} {value : Expr}
      (isComma : comma.kind = .comma) (inside : Reads Precedence.or first more value) :
      ReadsComponent brace (comma :: first :: more) value

theorem ReadsComponent.bind {next : Option Expr → Step β}
    (component : ReadsComponent brace tokens value) (ends : Ends Precedence.or (more ++ rest))
    (alone : tokens = [] → ∀ token ∈ (more ++ rest).head?, token.kind ≠ .comma)
    (enough : 8 * tokens.length + 3 ≤ fuel)
    (others : ∀ last after, Eats last after (next (some value)) more rest holds) :
    Eats previous operand (accept .comma >>= fun isWritten =>
      if isWritten = true then expression fuel >>= next
      else pure (some (.constant brace .placeholder)) >>= next) (tokens ++ more) rest holds := by
  cases component with
  | leftOut => exact eats_refuse (alone rfl) (others _ _)
  | @written comma first more _ isComma inside =>
    simp only [length_cons] at enough
    refine eats_accept isComma ((inside.expression ends (by omega)).bind ?_)
    rintro _ last after ⟨rfl, _⟩
    exact others last after

theorem ReadsComponent.separated (component : ReadsComponent brace tokens value) :
    Separated tokens := by
  cases component with
  | leftOut => exact nofun
  | written isComma inside => exact separated_cons isComma

theorem reads_vector (opens : brace.kind = .leftBrace)
    (eats : ∀ rest fuel operand, 8 * more.length ≤ fuel →
      Eats brace operand (vector (fuel + 1) brace) more rest (Ready () expr)) :
    Reads level brace more expr := by
  refine reads_of_eats (by rw [opens]; rfl) (.inl (by simp [opens])) ?_
  intro rest fuel operand _ enough
  obtain _ | less := fuel
  · omega
  refine eats_get ((eats rest less operand (by omega)).last ?_)
  rintro _ last _ ⟨_, rfl, isLast⟩
  exact eats_pure ⟨rfl, rfl, isLast⟩

theorem reads_vec3 (opens : brace.kind = .leftBrace) (closes : closing.kind = .rightBrace)
    (xReads : Reads Precedence.or first more x) (yReads : ReadsComponent brace second y)
    (zReads : ReadsComponent brace third z) (inOrder : second = [] → third = []) :
    Reads level brace (first :: more ++ second ++ third ++ [closing]) (.vec3 brace x y z) := by
  refine reads_vector opens fun rest fuel operand enough => ?_
  simp only [length_append, length_cons] at enough
  have endsThird : Ends Precedence.or (closing :: rest) := ends_cons closes (by decide)
  have endsSecond := zReads.separated.ends endsThird
  have aloneSecond : second = [] →
      ∀ token ∈ (third ++ closing :: rest).head?, token.kind ≠ .comma := by
    intro isEmpty
    simp [inOrder isEmpty, closes]
  rw [append_assoc, append_assoc]
  refine eats_refuse (by simpa using xReads.first_ne rfl) ?_
  refine (xReads.expression (by simpa using yReads.separated.ends endsSecond) (by omega)).bind ?_
  rintro _ _ _ ⟨rfl, _⟩
  refine yReads.bind (by simpa using endsSecond) (by simpa using aloneSecond) (by omega)
    fun _ _ => ?_
  refine zReads.bind endsThird (by simp [closes]) (by omega) fun _ _ => ?_
  exact eats_consume closes (eats_set (eats_pure ⟨rfl, rfl, by simp [closes]⟩))

theorem reads_origin (opens : brace.kind = .leftBrace) (closes : closing.kind = .rightBrace) :
    Reads level brace [closing] (.vec3 brace (.constant brace .placeholder)
      (.constant brace .placeholder) (.constant brace .placeholder)) := by
  refine reads_vector opens fun rest fuel operand _ => ?_
  exact eats_accept closes (eats_set (eats_pure ⟨rfl, rfl, by simp [closes]⟩))

end Parser

end NodeFormula
