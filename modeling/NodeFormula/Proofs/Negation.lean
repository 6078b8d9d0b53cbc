import NodeFormula.Calculation.Function
import NodeFormula.Proofs.Reading.Statements

/-!
# What a negation takes

`not` has a level of its own, between the conjunctions and the comparisons, but its operand is
read at the level of a minus sign.  So the operand ends in front of the first operator that binds
less tightly than a power.
-/

namespace NodeFormula.Parser

open List Precedence

section Operands

variable [Evaluator] {inner : Nat} {first second token : Token} {more others tail : List Token}
  {operand right : Expr} {op : BinaryOp}

theorem Reads.loosen (reads : Reads inner first more operand) (loose : level ≤ inner) :
    Reads level first more operand := by
  obtain ⟨noTarget, rule, isRule, run⟩ := reads
  refine ⟨noTarget, rule, isRule, fun loop rest fuel spare found small inMember ends => ?_⟩
  refine run loop rest fuel spare found (Nat.le_trans small loose) inMember ?_
  exact fun stop isHead => Nat.lt_of_lt_of_le (ends stop isHead) (Nat.succ_le_succ loose)

/-- Binary operators with their right operands behind an operand, and what they make of it. -/
inductive Continues : Nat → Nat → List Token → (Expr → Expr) → Prop
  | done {inner level} (loose : level ≤ inner) : Continues inner level [] id
  | operator {inner level token first more tail op right wrap}
      (isBinary : token.kind.infixRule? = some (.binary op))
      (below : token.kind.precedence ≤ inner)
      (reads : Reads (token.kind.precedence + 1) first more right)
      (rest : Continues token.kind.precedence level tail wrap) :
      Continues inner level (token :: first :: more ++ tail)
        fun left => wrap (.binary token left op right)

theorem Continues.reads (continues : Continues inner level tail wrap)
    (start : Reads inner first more operand) : Reads level first (more ++ tail) (wrap operand) := by
  induction continues generalizing more operand with
  | done loose =>
    rw [append_nil]
    exact start.loosen loose
  | operator isBinary below reads _ ih =>
    have extended := start.extend below (extends_binary isBinary (Nat.le_refl _) reads)
    have whole := ih extended
    rwa [append_assoc] at whole

theorem parse_of_expr (reads : Reads Precedence.or first more operand)
    (ends : semicolon.kind = .semicolon) (isEnd : last.kind = .endOfText)
    (flawless : Flawless (first :: more))
    (scanned : scan source = first :: more ++ [semicolon, last]) :
    NodeFormula.parse source = .ok ⟨[.expr operand], []⟩ := by
  have body : ReadsBody id (first :: (more ++ [semicolon]) ++ []) [.expr operand] :=
    .cons (readsStmt_expr reads ends rfl) .nil
  rw [append_nil, ← cons_append] at body
  have fine : Flawless (first :: more ++ [semicolon]) := by
    refine flawless_append.2 ⟨flawless, flawless_cons.2 ⟨?_, forall_mem_nil _⟩⟩
    rw [ends]
    decide
  obtain ⟨again, parsed, same⟩ := parse_of_reads body isEnd fine
  rw [map_id, map_id] at same
  rw [append_assoc, same] at parsed
  rw [NodeFormula.parse, ofSource, scanned]
  exact parsed

/--
Behind `not` only the first operand of what could be a sum or a product is negated: whatever
operators follow it apply to the negation.
-/
theorem parse_negation {source : String} {negation semicolon last : Token}
    (isNot : negation.kind = .not) (reads : Reads unary first more operand)
    (continues : Continues unary term tail wrap)
    (isBinary : token.kind.infixRule? = some (.binary op)) (loose : token.kind.precedence < term)
    (readsRight : Reads term second others right)
    (ends : semicolon.kind = .semicolon) (isEnd : last.kind = .endOfText)
    (flawless : Flawless (first :: more ++ tail)) (flawlessRight : Flawless (second :: others))
    (scanned : scan source = negation :: (first :: more ++ tail) ++ token :: second :: others ++
      [semicolon, last]) : Reads term first (more ++ tail) (wrap operand) ∧
      NodeFormula.parse source =
        .ok ⟨[.expr (.binary token (wrap (.unary negation .not operand)) op right)], []⟩ := by
  refine ⟨continues.reads reads, ?_⟩
  have isPrefix : negation.kind.prefixRule? = some (.unary .not) := by
    rw [isNot]
    rfl
  have negated : Reads unary negation (first :: more) (.unary negation .not operand) :=
    reads_unary (Nat.le_refl _) isPrefix reads
  have compared := (continues.reads negated).extend (Nat.le_of_lt loose)
    (extends_binary isBinary (Nat.le_refl _) (readsRight.loosen loose))
  have binary : token.kind ≠ .error := by
    intro isError
    rw [isError] at isBinary
    cases isBinary
  refine parse_of_expr (compared.loosen ?_) ends isEnd ?_ scanned
  · cases isKind : token.kind <;> rw [isKind] at isBinary <;> first | decide | cases isBinary
  · refine flawless_cons.2 ⟨by rw [isNot]; decide, ?_⟩
    exact flawless_append.2 ⟨flawless, flawless_cons.2 ⟨binary, flawlessRight⟩⟩

end Operands

/-- `not x + y < z` is read as `((not x) + y) < z`. -/
theorem parse_negation_sum :
    let token (kind : TokenKind) (lexeme : String) (start : Nat) : Token :=
      ⟨kind, lexeme, 1, start + 1, start, none⟩
    let sum := Expr.binary (token .plus "+" 6)
      (.unary (token .not "not" 0) .not (.name (token .identifier "x" 4) "x")) .add
      (.name (token .identifier "y" 8) "y")
    NodeFormula.parse "not x + y < z;" =
      .ok ⟨[.expr (.binary (token .less "<" 10) sum .lt (.name (token .identifier "z" 12) "z"))],
        []⟩ := by
  intro token sum
  have scanned : scan "not x + y < z;" = [token .not "not" 0, token .identifier "x" 4,
      token .plus "+" 6, token .identifier "y" 8, token .less "<" 10, token .identifier "z" 12,
      token .semicolon ";" 13, token .endOfText "" 14] := by
    decide +kernel
  have name {level : Nat} {token : Token} (isName : token.kind = .identifier) :
      Reads level token [] (.name token token.lexeme) := reads_name isName
  have fine {tokens : List Token} (none : tokens.all (·.kind ≠ .error) = true) :
      Flawless tokens := fun token member => by simpa using all_eq_true.1 none token member
  have sums : Continues unary term [token .plus "+" 6, token .identifier "y" 8] _ :=
    .operator rfl (by decide) (name rfl) (.done (by decide))
  exact (parse_negation rfl (name rfl) sums rfl (by decide) (name rfl) rfl rfl (fine rfl)
    (fine rfl) scanned).2

/-- `not a < b` is no negation but compares one. -/
theorem comparison_not_negated :
    (match NodeFormula.parse "not a < b;" with
      | .ok ⟨[.expr (.binary _ (.unary _ .not (.name _ left)) .lt (.name _ right))], []⟩ =>
        left == "a" && right == "b"
      | _ => false) = true := by
  decide +kernel

end NodeFormula.Parser
