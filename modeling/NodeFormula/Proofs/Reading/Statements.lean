import NodeFormula.Proofs.Reading.Expressions

/-!
# What reading takes for statements

A statement is read the same way whatever follows it, because a semicolon or a brace ends it.  So
statements one after the other are read as a body, and a body up to the end of the text as a
formula.
-/

namespace NodeFormula

open List

namespace Parser

variable {previous : Token} {operand : Option Expr} {view : Stmt → β}

/-! ## Plain statements -/

theorem name_of_prefixRule {kind : TokenKind} (isName : kind.prefixRule? = some .name) :
    kind = .identifier := by
  cases kind <;> first | rfl | cases isName

variable [Evaluator]

/-- Tokens are read as a statement that looks like this one, whatever follows them. -/
structure ReadsStmt {β : Type} (view : Stmt → β) (first : Token) (more : List Token) (stmt : Stmt) :
    Prop where
  starts : first.kind ≠ .endOfText ∧ first.kind ≠ .rightBrace
  reads : ∀ {previous rest fuel operand}, 8 * (more.length + 1) + 7 ≤ fuel →
    Eats previous operand (declaration (fuel + 1)) (first :: more) rest
      (Alike (Option.map view) (some stmt))

theorem declaration_statement (isRule : first.kind.prefixRule? = some rule)
    (eats : Eats previous operand (statement fuel) (first :: more) rest holds) :
    Eats previous operand (declaration (fuel + 1)) (first :: more) rest holds := by
  have other {kind : TokenKind} (noRule : kind.prefixRule? = none) :
      ∀ token ∈ (first :: more ++ rest).head?, token.kind ≠ kind := by
    rintro _ ⟨⟩ rfl
    cases noRule.symm.trans isRule
  exact eats_refuse (other rfl) (eats_refuse (other rfl) (eats_refuse (other rfl)
    (eats_refuse (other rfl) eats)))

theorem applyPrefix_of_noTarget
    (noTarget : rule = .name → parser.current.kind ≠ .equal ∧ parser.current.kind ≠ .comma) :
    applyPrefix fuel rule true parser = applyPrefix fuel rule false parser := by
  cases fuel with
  | zero => rfl
  | succ fuel =>
    cases rule with
    | name =>
      obtain ⟨notEqual, notComma⟩ := noTarget rfl
      cases fuel with
      | zero => rfl
      | succ fuel =>
        have unequal : check .equal parser = .ok (false, parser) := by
          rw [← beq_eq_false_iff_ne.mpr notEqual]
          rfl
        have refused : accept .comma parser = .ok (false, parser) := by
          show (check .comma >>= _) parser = _
          have other : check .comma parser = .ok (false, parser) := by
            rw [← beq_eq_false_iff_ne.mpr notComma]
            rfl
          rw [bind_of_ok other]
          rfl
        rw [applyPrefix, applyPrefix, bind_get, bind_get]
        rw [nameOrAssignment]
        simp only [if_true]
        rw [bind_of_ok unequal]
        simp only [Bool.false_eq_true, if_false]
        rw [bind_of_ok refused]
        rfl
    | _ => rfl

theorem readsStmt_expr (inside : Reads Precedence.or first more value)
    (ends : semicolon.kind = .semicolon) (alike : view (.expr value) = view stmt) :
    ReadsStmt view first (more ++ [semicolon]) stmt := by
  obtain ⟨rule, isRule, run⟩ := inside.reads
  refine ⟨⟨inside.first_ne rfl, inside.first_ne rfl⟩,
    fun {previous rest fuel operand} enough => declaration_statement isRule ?_⟩
  simp only [length_append] at enough
  refine eats_advance (eats_get ?_)
  simp only [previous_facing, isRule]
  intro flawless nonempty
  rw [append_assoc] at flawless ⊢
  obtain ⟨middle, last, _, positive, _, applied, continued⟩ :=
    run Precedence.assignment (semicolon :: rest) fuel 1 operand (by decide) (by decide)
      (ends_cons ends (by decide)) flawless (by simp) (by omega)
  obtain ⟨_, rfl⟩ := Nat.exists_eq_add_of_le' positive
  have stopped : continueWith fuel Precedence.assignment middle =
      .ok ((), facing last (semicolon :: rest) (some value)) := by
    rw [continued, continueWith_stops (by rw [current_facing, ends]; decide)]
  have noTarget : rule = .name →
      (facing first (more ++ semicolon :: rest) operand).current.kind ≠ .equal ∧
      (facing first (more ++ semicolon :: rest) operand).current.kind ≠ .comma := by
    rintro rfl
    cases more with
    | nil => simp [ends]
    | cons second more => exact inside.noTarget (name_of_prefixRule isRule) second rfl
  have finished := (flawless_append.mp flawless).2
  rw [singleton_append, bind_of_ok ((applyPrefix_of_noTarget noTarget).trans applied)]
  simp only
  rw [bind_of_ok stopped]
  refine (show Eats last (some value) _ [semicolon] rest _ from ?_) finished nonempty
  refine eats_refuse (by simp [ends]) (eats_get (eats_get ?_))
  simp only [pure_bind]
  exact eats_accept ends (eats_set (eats_pure (congrArg some alike)))

/-! ## Bodies -/

/-- Tokens are read as statements one after the other. -/
inductive ReadsBody {β} (view : Stmt → β) : List Token → List Stmt → Prop
  | nil : ReadsBody view [] []
  | cons {first more tokens stmt stmts}
      (reads : ReadsStmt view first more stmt) (others : ReadsBody view tokens stmts) :
      ReadsBody view (first :: more ++ tokens) (stmt :: stmts)

theorem block_of_reads (reads : ReadsBody view tokens stmts)
    (closes : ∀ token ∈ rest.head?, token.kind = .rightBrace)
    (enough : 8 * tokens.length + 8 ≤ fuel) :
    Eats previous operand (block (fuel + 1)) tokens rest (Alike (map view) stmts) := by
  induction reads generalizing previous fuel operand with
  | nil => exact eats_check true (by simpa using closes) (eats_pure rfl)
  | cons reads others ih =>
    simp only [length_cons, length_append] at enough
    obtain _ | less := fuel
    · omega
    refine eats_check false (by simpa using reads.starts.2)
      (eats_refuse (by simpa using reads.starts.1) ((reads.reads (by omega)).then ?_))
    intro found alike _ _
    obtain ⟨again, rfl, same⟩ := Option.map_eq_some_iff.1 alike
    refine (ih (by omega)).last fun others _ _ allAlike => eats_pure ?_
    exact cons_eq_cons.2 ⟨same, allAlike⟩

theorem statements_of_reads (reads : ReadsBody view tokens stmts) (isEnd : last.kind = .endOfText)
    (enough : 8 * tokens.length + 8 ≤ fuel) :
    Eats previous operand (statements (fuel + 1)) tokens [last] (Alike (map view) stmts) := by
  induction reads generalizing previous fuel operand with
  | nil =>
    have accepted : accept .endOfText (facing previous [last] operand) =
        .ok (true, facing last [last] operand) := by
      rw [accept, bind_of_ok check_facing, isEnd]
      rfl
    refine fun _ _ => ⟨[], last, operand, ?_, rfl⟩
    rw [statements, nil_append, bind_of_ok accepted]
    rfl
  | cons reads others ih =>
    simp only [length_cons, length_append] at enough
    obtain _ | less := fuel
    · omega
    refine eats_refuse (by simpa using reads.starts.1) ((reads.reads (by omega)).then ?_)
    intro found alike _ _
    obtain ⟨again, rfl, same⟩ := Option.map_eq_some_iff.1 alike
    refine eats_get ((ih (by omega)).last fun others _ _ allAlike => eats_pure ?_)
    exact cons_eq_cons.2 ⟨same, allAlike⟩

theorem parse_of_reads (reads : ReadsBody view tokens stmts) (isEnd : last.kind = .endOfText)
    (flawless : Flawless tokens) :
    ∃ again, (ofTokens (tokens ++ [last])).parse = .ok ⟨again, []⟩ ∧
      again.map view = stmts.map view := by
  have flawlessAll : Flawless (tokens ++ [last]) := by
    rw [flawless_append]
    refine ⟨flawless, ?_⟩
    rintro token (⟨⟩ | ⟨_, ⟨⟩⟩)
    simp [isEnd]
  obtain ⟨first, isFacing, fuel⟩ : ∃ first,
      ofTokens (tokens ++ [last]) = facing first (tokens ++ [last]) none ∧
      (ofTokens (tokens ++ [last])).fuelFor = 8 * tokens.length + 32 := by
    cases tokens with
    | nil => exact ⟨last, rfl, rfl⟩
    | cons first tokens =>
      refine ⟨first, rfl, ?_⟩
      simp only [fuelFor, ofTokens, cons_append, drop_one, tail_cons,
        length_append, length_cons, length_nil]
      omega
  obtain ⟨again, _, _, run, alike⟩ := statements_of_reads reads isEnd
    (show 8 * tokens.length + 8 ≤ 8 * tokens.length + 31 by omega) flawlessAll (by simp)
  refine ⟨again, ?_, alike⟩
  rw [parse, fuel, isFacing]
  show ((statements _ (facing first (tokens ++ [last]) none)) >>= _) = _
  rw [run]
  rfl

end Parser

end NodeFormula
