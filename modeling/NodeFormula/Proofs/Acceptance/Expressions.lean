import NodeFormula.Proofs.DeadEnds

/-!
# Runs over expressions

Every step of reading an expression comes to its end, as long as its fuel is enough for the
tokens that can still be taken, and takes none of them twice.  An expression that was read
without a report is readable.
-/

namespace NodeFormula

open Nat

namespace Parser

variable {kind : TokenKind} {count : Nat}

/-- Something was read, and it is readable. -/
def IsRead (tokens : List Token) (found : Option Expr) : Prop :=
  ∃ expr, found = some expr ∧ expr.Readable (Calculates tokens)

def AreRead (tokens : List Token) (found : Option (List Expr × List Expr)) : Prop :=
  ∃ args keywords, found = some (args, keywords) ∧ Expr.AllReadable (Calculates tokens) args ∧
    Expr.KeywordsReadable (Calculates tokens) keywords

def ReadableTargets (found : List (Option Target)) : Prop := ∀ one ∈ found, Target.Readable one

/-- There is an operand to go on with. -/
def Holding (parser : Parser) : Prop := ∃ expr, parser.operand = some expr

/-- What a prefix rule answers: an assignment where one may stand, or nothing. -/
def Begun (tokens : List Token) (canAssign : Bool) : Option Stmt → Parser → Prop
  | none, parser => Holding parser
  | some stmt, _ => canAssign = true ∧ stmt.Readable (Calculates tokens)

theorem kind_of_prefixRule (isRule : kind.prefixRule? = some rule) :
    match rule with
    | .grouping => kind = .leftParen
    | .vector => kind = .leftBrace
    | .unary _ => kind = .minus ∨ kind = .not
    | .placeholder => kind = .underscore
    | .name => kind = .identifier
    | .int => kind = .int
    | .float => kind = .float
    | .calculation => kind = .calculation
    | .text => kind = .text
    | .groupName => kind = .groupName
    | .boolean => kind = .true ∨ kind = .false := by
  cases kind <;> cases isRule <;> simp

theorem kind_of_call (isCall : kind.infixRule? = some .call) : kind = .leftParen := by
  cases kind <;> first | rfl | cases isCall

theorem kind_of_dot (isDot : kind.infixRule? = some .dot) : kind = .dot := by
  cases kind <;> first | rfl | cases isDot

/-- The one token that binds but continues nothing. -/
theorem kind_of_noInfixRule (binds : 1 ≤ kind.precedence) (noRule : kind.infixRule? = none) :
    kind = .not := by
  cases kind <;> first | rfl | exact absurd binds (by decide) | cases noRule

theorem keywordReadable_of (solid : token.Solid) (isName : token.kind = .identifier)
    (readable : value.Readable (Calculates tokens)) :
    (Expr.keyword token token.lexeme value).KeywordReadable (Calculates tokens) := by
  exact ⟨⟨solid, isName, rfl⟩, readable⟩

theorem keywordsReadable_append (firstReadable : Expr.KeywordsReadable (Calculates tokens) first)
    (secondReadable : Expr.KeywordsReadable (Calculates tokens) second) :
    Expr.KeywordsReadable (Calculates tokens) (first ++ second) := by
  induction first with
  | nil => exact secondReadable
  | cons keyword others ih => exact ⟨firstReadable.1, ih firstReadable.2⟩

theorem Inside.solid_of_prefixRule (inside : Inside tokens count parser)
    (isRule : parser.previous.kind.prefixRule? = some rule) :
    0 < count ∧ (rule ≠ .calculation → parser.previous.Solid) := by
  have kinds : parser.previous.kind ≠ .error ∧ parser.previous.kind ≠ .endOfText := by
    constructor <;> intro same <;> rw [same] at isRule <;> cases isRule
  refine ⟨inside.pos (.inl kinds.2), fun other => inside.solid rfl ⟨kinds.1, kinds.2, ?_⟩⟩
  intro same
  rw [same] at isRule
  exact other (Option.some.inj isRule).symm

theorem Inside.solid_of_infixRule (inside : Inside tokens count parser)
    (isRule : parser.previous.kind.infixRule? = some rule) : parser.previous.Solid := by
  refine inside.solid rfl ⟨?_, ?_, ?_⟩ <;> intro same <;> rw [same] at isRule <;> cases isRule

variable [Evaluator]

/-- A dead end is reported, at the token taken last. -/
theorem goes_meet (within : Within tokens count parser)
    (dead : fault? parser.previous = some fault) :
    Goes tokens count holds (DeadEnd.meet fault) parser := by
  refine ⟨(), _, [⟨"", parser.previous⟩], rfl, ⟨rfl, ?_⟩, ?_, ⟨{ within with }, fun clean => ?_⟩,
    fun clean => ?_⟩
  · exact List.forall_mem_singleton.2 fun _ => within.known
  · have isDead : deadEnd? ⟨"", parser.previous⟩ = some fault := dead
    rw [unlessDead, List.findSome?_cons, isDead]
    rfl
  all_goals simp [Clean] at clean

/-- A calculation gives a number, or there is a report. -/
theorem goes_calculation (within : Within tokens count parser)
    (isKind : parser.previous.kind = .calculation) :
    Goes tokens count (fun expr _ => expr.Readable (Calculates tokens))
      (calculation parser.previous) parser := by
  have meets {fault : Fault} (dead : calculationFault? parser.previous = some fault) :
      Goes tokens count (fun _ _ => False) (DeadEnd.meet fault) parser :=
    goes_meet within (by rw [fault?, isKind, dead])
  have reports (message : String) : Goes tokens count (fun _ _ => False) (error message) parser :=
    goes_error within
  unfold calculation
  cases isOutcome : outcome? parser.previous with
  | none =>
    have dead : calculationFault? parser.previous = some .endless := by
      rw [calculationFault?, isOutcome]
    exact goes_mistake (meets dead) le_rfl
  | some outcome =>
    rcases outcome with problem | (number | other)
    · have dead : calculationFault? parser.previous = some (.calculation problem) := by
        rw [calculationFault?, isOutcome]
      by_cases reported : problem.isReported = true
      · simp only [if_pos reported]
        exact goes_mistake (reports _) le_rfl
      · simp only [if_neg reported]
        exact goes_mistake (meets dead) le_rfl
    · exact goes_pure within le_rfl fun _ => .inr ⟨⟨_, within.known, isKind⟩, isKind⟩
    · exact goes_mistake (reports _) le_rfl

theorem goes_hold (within : Within tokens count parser)
    (readable : Clean parser → expr.Readable (Calculates tokens)) :
    Goes tokens count (fun _ => Holding) (setOperand (some expr)) parser :=
  (goes_setOperand within fun clean _ same => Option.some.inj same ▸ readable clean).imp
    fun _ _ reached => ⟨reached.1, fun clean => ⟨expr, reached.2 clean⟩⟩

theorem goes_begin (within : Within tokens count parser)
    (readable : Clean parser → expr.Readable (Calculates tokens)) :
    Goes tokens count (Begun tokens canAssign)
      (setOperand (some expr) >>= fun _ => pure none) parser :=
  (goes_hold within readable).then fun _ _ inside holding => goes_pure inside le_rfl holding

theorem goes_target (within : Within tokens count parser) :
    Yields tokens count ReadableTargets (target message) parser := by
  refine within.starts.ifTaken (by decide) (fun state inside isName _ => ?_) fun _ => ?_
  · refine goes_get (goes_pure inside (sub_le _ _) fun _ => ?_)
    simpa [ReadableTargets, Target.Readable] using ⟨inside.solid isName (by decide), isName⟩
  refine within.starts.ifTaken (by decide) (fun state inside _ _ => ?_) fun _ => ?_
  · exact goes_pure inside (sub_le _ _) fun _ => by simp [ReadableTargets, Target.Readable]
  · exact goes_mistake (within.goes_report current _) le_rfl

/-- Each target is a name or the placeholder, unless there is a report. -/
theorem goes_targetList (within : Within tokens count parser) (enough : count + 1 ≤ fuel) :
    Yields tokens count ReadableTargets (targetList message fuel) parser := by
  induction fuel generalizing count parser with
  | zero => omega
  | succ fuel ih =>
    refine goes_check (goes_ite (fun _ => ?_) fun _ => ?_)
    · exact goes_pure within le_rfl fun _ => List.forall_mem_nil _
    refine (goes_target within).then fun found state within areTargets => ?_
    refine within.starts.ifTaken (by decide) (fun state inside isComma back => ?_)
      fun _ => goes_pure within le_rfl areTargets
    have more := inside.pos (.inl (isComma ▸ by decide))
    refine (ih inside (by omega)).bind (areTargets ∘ back) fun others last within known => ?_
    exact goes_pure within (sub_le _ _) fun clean => List.forall_mem_append.2 (known clean)

-- The fuel for a part is that for the tokens that can be taken, with what the calls on the way
-- from one token to the next need.
mutual

theorem goes_precedence {fuel count level isAdvanced parser}
    (after : Nat) (within : Within tokens count parser) (bound : 1 ≤ level)
    (fewer : (if isAdvanced then count else count - 1) ≤ after)
    (enough : 8 * after + 7 ≤ fuel ∨ after = 0 ∧ 1 ≤ fuel) :
    Yields tokens after (IsRead tokens) (parsePrecedence fuel level isAdvanced) parser := by
  cases fuel with | zero => omega | succ fuel => ?_
  have rest {state : Parser} (inside : Within tokens after state) :
      Yields tokens after (IsRead tokens) (parsePrecedence (fuel + 1) level true) state := by
    refine goes_get ?_
    cases isRule : state.previous.kind.prefixRule? with
    | none => exact goes_mistake (goes_error inside) le_rfl
    | some rule =>
      have more := (inside.solid_of_prefixRule isRule).1
      refine Goes.then (goes_applyPrefix inside isRule (by omega))
        fun begun state inside begins => ?_
      refine (goes_continueWith inside (fun clean => ?_) bound (by omega)).then
        fun _ state inside holding => goes_get ?_
      · cases begun with
        | none => exact begins clean
        | some stmt => cases (begins clean).1
      refine goes_unless inside (goes_error inside) fun last inside same => goes_get ?_
      refine goes_pure inside le_rfl fun clean => ?_
      obtain ⟨rfl, _⟩ := same clean
      obtain ⟨expr, isOperand⟩ := holding clean
      exact ⟨expr, isOperand, (inside.track clean).operand expr isOperand⟩
  cases isAdvanced with
  | true => exact rest (within.mono fewer)
  | false =>
    have split [DeadEnd] : parsePrecedence (fuel + 1) level false =
        advance >>= fun _ => parsePrecedence (fuel + 1) level true := by
      rfl
    exact ((goes_advance within).mono fewer).then fun _ _ inside _ => rest inside

theorem goes_expression {fuel count parser} (within : Within tokens count parser)
    (enough : 8 * count + 2 ≤ fuel) :
    Yields tokens (count - 1) (IsRead tokens) (expression fuel) parser := by
  cases fuel with | zero => omega | succ fuel => ?_
  exact goes_precedence _ within (by decide) le_rfl (by omega)

/-- As long as the next token binds it is taken, so the tokens get fewer. -/
theorem goes_continueWith {fuel count level parser}
    (within : Within tokens count parser) (holding : Clean parser → Holding parser)
    (bound : 1 ≤ level) (enough : 8 * count + 1 ≤ fuel) :
    Goes tokens count (fun _ => Holding) (continueWith fuel level) parser := by
  cases fuel with | zero => omega | succ fuel => ?_
  refine goes_get (goes_ite (fun binds => ?_) fun _ => goes_pure within le_rfl holding)
  have goesOn : parser.current.kind ≠ .endOfText := by
    intro isEnd
    rw [isEnd] at binds
    exact absurd (bound.trans binds) (by decide)
  have more := within.pos (.inr goesOn)
  obtain ⟨inside, quiet, isCurrent, operand⟩ := within.next
  have moves : Tracks tokens advance (fun _ state => state = parser.next) parser :=
    tracks_of_ran rfl quiet rfl
  refine moves.bind fun _ _ same clean => ?_
  subst same
  refine Goes.then (goes_applyInfix inside (fun silent => ?_) (isCurrent ▸ bound.trans binds)
    (by omega)) fun _ state inside holding => ?_
  · obtain ⟨expr, isOperand⟩ := holding (clean silent)
    exact ⟨expr, operand.trans isOperand⟩
  · exact (goes_continueWith inside holding bound (by omega)).mono (sub_le _ _)

theorem goes_applyPrefix {fuel count rule canAssign parser}
    (within : Within tokens count parser) (isRule : parser.previous.kind.prefixRule? = some rule)
    (enough : 8 * count + 6 ≤ fuel) :
    Goes tokens count (Begun tokens canAssign) (applyPrefix fuel rule canAssign) parser := by
  cases fuel with | zero => omega | succ fuel => ?_
  have isKind := kind_of_prefixRule isRule
  by_cases calculates : rule = .calculation
  · subst calculates
    exact goes_get ((goes_calculation within isKind).then fun _ _ inside readable =>
      goes_begin inside readable)
  have solid := (within.solid_of_prefixRule isRule).2 calculates
  have literal {found : Literal} (isLiteral : literal? parser.previous = some found) :
      Goes tokens count (Begun tokens canAssign)
        (setOperand (some (.constant parser.previous found)) >>=
        fun _ => pure none) parser := goes_begin within fun _ => .inl ⟨solid, isLiteral⟩
  refine goes_get ?_
  cases rule with
  | int | float | placeholder | text => exact literal (by simp [literal?, isKind])
  | boolean => exact literal (by rcases isKind with same | same <;> simp [literal?, same])
  | calculation => exact absurd rfl calculates
  | name => exact goes_nameOrAssignment within ⟨solid, isKind⟩ (by omega)
  | grouping =>
    refine (goes_expression within (by omega)).then fun found state inside isRead => ?_
    refine (goes_setOperand inside fun clean => ?_).bind isRead fun _ state inside known => ?_
    · obtain ⟨expr, rfl, readable⟩ := isRead clean
      simpa using readable
    refine (goes_consume inside).bind known fun _ state inside known => ?_
    refine goes_pure inside (sub_le _ _) fun clean => ?_
    obtain ⟨⟨⟨expr, same, _⟩, held⟩, _, kept⟩ := known clean
    exact ⟨expr, kept.trans (held.trans same)⟩
  | unary op =>
    refine (goes_precedence (count - 1) within (by decide) le_rfl (by omega)).then
      fun found state inside isRead => ?_
    cases found with
    | none => exact goes_pure inside (sub_le _ _) fun clean => nomatch isRead clean
    | some inner =>
      refine (goes_begin inside fun clean => ?_).mono (sub_le _ _)
      obtain ⟨_, ⟨⟩, readable⟩ := isRead clean
      exact ⟨solid, isRule, readable⟩
  | vector =>
    exact (goes_vector within ⟨solid, isKind⟩ (by omega)).then fun _ _ inside holding =>
      goes_pure inside le_rfl holding
  | groupName =>
    refine (goes_consume within).then fun _ state inside _ => ?_
    refine (goes_callArgs inside (by omega)).then fun found state inside areRead => ?_
    match found with
    | none => exact goes_pure inside le_rfl fun clean => nomatch areRead clean
    | some (args, keywords) =>
      refine goes_begin inside fun clean => ?_
      obtain ⟨_, _, ⟨⟩, readable⟩ := areRead clean
      exact ⟨solid, .inr ⟨isKind, rfl, rfl⟩, readable⟩

theorem goes_nameOrAssignment {fuel count token canAssign parser}
    (within : Within tokens count parser) (isName : token.Solid ∧ token.kind = .identifier)
    (enough : 8 * count + 4 ≤ fuel) :
    Goes tokens count (Begun tokens canAssign) (nameOrAssignment fuel token canAssign) parser := by
  cases fuel with | zero => omega | succ fuel => ?_
  have name {state : Parser} (inside : Within tokens count state) :
      Goes tokens count (Begun tokens canAssign)
        (setOperand (some (.name token token.lexeme)) >>= fun _ => pure none) state :=
    goes_begin inside fun _ => ⟨isName.1, isName.2, rfl⟩
  cases canAssign with
  | false => exact name within
  | true =>
    have assigned {state : Parser} (inside : Within tokens count state) :
        Goes tokens count (Begun tokens true) (do
          assignment (expression fuel) (some ⟨token, token.lexeme⟩ :: (← moreTargets fuel)))
          state := by
      refine (goes_targetList inside (by omega)).then fun more state inside areTargets => ?_
      refine (goes_consume inside).bind areTargets fun _ state inside known => goes_get ?_
      refine (goes_expression inside (by omega)).bind known fun value last within known => ?_
      cases value with
      | none => exact goes_pure within (sub_le _ _) fun clean => nomatch (known clean).2
      | some value =>
        refine goes_pure within (sub_le _ _) fun clean => ?_
        obtain ⟨⟨areTargets, isEqual, _⟩, _, ⟨⟩, readable⟩ := known clean
        exact ⟨rfl, ⟨inside.solid isEqual (by decide), isEqual⟩, ⟨_, _, rfl⟩,
          List.forall_mem_cons.2 ⟨⟨isName.1, isName.2, rfl⟩, areTargets⟩, readable⟩
    refine goes_check (goes_ite (fun _ => assigned within) fun _ => ?_)
    refine within.starts.accept (by decide)
      (fun state inside _ _ => assigned (inside.mono (sub_le _ _))) fun _ => name within

/-- Components that are left out are placeholders. -/
theorem goes_vector {fuel count brace parser}
    (within : Within tokens count parser) (isBrace : brace.Solid ∧ brace.kind = .leftBrace)
    (enough : 8 * count + 4 ≤ fuel) :
    Goes tokens count (fun _ => Holding) (vector fuel brace) parser := by
  cases fuel with | zero => omega | succ fuel => ?_
  have component {state : Parser} (inside : Within tokens count state) :
      Yields tokens count (IsRead tokens) (expression fuel) state :=
    (goes_expression inside (by omega)).mono (sub_le _ _)
  have finish (x y z : Option Expr) {state : Parser} (inside : Within tokens count state) :
      (Clean state → ∃ first second third, (x = some first ∧ y = some second ∧
        z = some third) ∧ (Expr.vec3 brace first second third).Readable (Calculates tokens)) →
      Goes tokens count (fun _ => Holding) (do
        consume .rightBrace "Expect closing \"\x7d\"."
        match x, y, z with
        | some x, some y, some z => setOperand (some (.vec3 brace x y z))
        | _, _, _ => pure ()) state := by
    intro complete
    refine (goes_consume inside).bind complete fun _ state inside known => ?_
    split
    · refine goes_hold inside fun clean => ?_
      obtain ⟨⟨_, _, _, ⟨⟨⟩, ⟨⟩, ⟨⟩⟩, readable⟩, _⟩ := known clean
      exact readable
    · rename_i incomplete
      refine goes_pure inside le_rfl fun clean => ?_
      obtain ⟨⟨first, second, third, ⟨rfl, rfl, rfl⟩, _⟩, _⟩ := known clean
      exact (incomplete first second third rfl rfl rfl).elim
  refine within.starts.ifTaken (by decide) (fun state inside _ _ => ?_) fun _ => ?_
  · refine (goes_hold inside fun _ => ?_).mono (sub_le _ _)
    exact ⟨isBrace, .inl ⟨rfl, rfl, rfl⟩⟩
  refine (component within).then fun x state inside isRead => ?_
  refine inside.starts.ifTaken (by decide) (fun state within _ back => ?_) fun noComma => ?_
  · refine (component (within.mono (sub_le _ _))).bind (isRead ∘ back)
      fun y state inside known => ?_
    refine inside.starts.ifTaken (by decide) (fun state within _ back => ?_) fun _ => ?_
    · refine (component (within.mono (sub_le _ _))).bind (known ∘ back) fun z state inside known =>
        finish x y z inside fun clean => ?_
      obtain ⟨⟨⟨first, rfl, isFirst⟩, second, rfl, isSecond⟩, third, rfl, isThird⟩ := known clean
      exact ⟨first, second, third, ⟨rfl, rfl, rfl⟩, isBrace,
        .inr ⟨isFirst, .inr ⟨isSecond, .inr isThird⟩⟩⟩
    · refine finish x y (some (.constant brace .placeholder)) inside fun clean => ?_
      obtain ⟨⟨first, rfl, isFirst⟩, second, rfl, isSecond⟩ := known clean
      exact ⟨first, second, _, ⟨rfl, rfl, rfl⟩, isBrace, .inr ⟨isFirst, .inr ⟨isSecond, .inl rfl⟩⟩⟩
  -- a third component is looked for also after a second one that was left out
  · simp only [pure_bind]
    refine inside.starts.accept (by decide)
      (fun _ _ taken _ => absurd taken.2.1 noComma) fun _ => ?_
    let origin := some (Expr.constant brace .placeholder)
    refine finish x origin origin inside fun clean => ?_
    obtain ⟨first, rfl, isFirst⟩ := isRead clean
    exact ⟨first, _, _, ⟨rfl, rfl, rfl⟩, isBrace, .inr ⟨isFirst, .inl ⟨rfl, rfl⟩⟩⟩

theorem goes_applyInfix {fuel count parser} (within : Within tokens count parser)
    (holding : Clean parser → Holding parser)
    (binds : 1 ≤ parser.previous.kind.precedence) (enough : 8 * count + 6 ≤ fuel) :
    Goes tokens count (fun _ => Holding) (applyInfix fuel) parser := by
  cases fuel with | zero => omega | succ fuel => ?_
  have called {make : List Expr → List Expr → Expr} (readable : Clean parser →
      ∀ {args keywords}, Expr.AllReadable (Calculates tokens) args →
        Expr.KeywordsReadable (Calculates tokens) keywords →
        (make args keywords).Readable (Calculates tokens)) :
      Goes tokens count (fun _ => Holding) (callArgs fuel >>= fun found => match found with
        | none => pure ()
        | some (args, keywords) => setOperand (some (make args keywords))) parser := by
    refine (goes_callArgs within (by omega)).bind readable fun found state inside known => ?_
    match found with
    | none => exact goes_pure inside le_rfl fun clean => nomatch (known clean).2
    | some (args, keywords) =>
      refine goes_hold inside fun clean => ?_
      obtain ⟨readable, _, _, ⟨⟩, areArgs, areKeywords⟩ := known clean
      exact readable areArgs areKeywords
  unfold applyInfix
  refine goes_get ?_
  cases isRule : parser.previous.kind.infixRule? with
  | none =>
    simp only [isRule]
    exact goes_meet within (by rw [fault?, kind_of_noInfixRule binds isRule])
  | some rule =>
    have solid := within.solid_of_infixRule isRule
    simp only [isRule]
    cases rule with
    | call =>
      have opens := kind_of_call isRule
      refine goes_get ?_
      split
      · exact goes_meet within (by rw [fault?, opens])
      · rename_i callee id isOperand
        refine called fun clean _ _ areArgs areKeywords => ?_
        obtain ⟨isSolid, isName, rfl⟩ := (within.track clean).operand _ isOperand
        exact ⟨isSolid, .inl ⟨isName, rfl, solid, opens⟩, areArgs, areKeywords⟩
      · rename_i dot receiver attr isOperand
        refine called fun clean _ _ areArgs areKeywords => ?_
        obtain ⟨isSolid, isDot, readable, isName⟩ := (within.track clean).operand _ isOperand
        exact ⟨⟨solid, opens⟩, ⟨isSolid, isDot⟩, readable, isName, areArgs, areKeywords⟩
      · exact goes_error within
    | dot =>
      refine (goes_consume within).bind holding fun _ state inside known => goes_get ?_
      cases isOperand : state.operand with
      | none =>
        refine goes_pure inside le_rfl fun clean => ?_
        obtain ⟨⟨expr, same⟩, _, kept⟩ := known clean
        cases isOperand.symm.trans (kept.trans same)
      | some value =>
        refine goes_hold inside fun clean => ?_
        have isName := (known clean).2.1
        exact ⟨solid, kind_of_dot isRule, (inside.track clean).operand _ isOperand,
          .of_unplaced (Token.unplaced_inj.2 ⟨isName, rfl⟩) (inside.solid isName (by decide))⟩
    | binary op =>
      refine goes_get ((goes_precedence (count - 1) within (le_add_left 1 _) le_rfl
        (by omega)).bind id fun right state inside known => ?_)
      cases isOperand : parser.operand with
      | none =>
        refine goes_pure inside (sub_le _ _) fun clean => ?_
        obtain ⟨expr, same⟩ := holding (known clean).1
        cases isOperand.symm.trans same
      | some left =>
        cases right with
        | none => exact goes_pure inside (sub_le _ _) fun clean => nomatch (known clean).2
        | some right =>
          refine (goes_hold inside fun clean => ?_).mono (sub_le _ _)
          obtain ⟨silent, _, ⟨⟩, readable⟩ := known clean
          exact ⟨solid, isRule, (within.track silent).operand _ isOperand, readable⟩

theorem goes_callArgs {fuel count parser} (within : Within tokens count parser)
    (enough : 8 * count + 5 ≤ fuel) :
    Yields tokens count (AreRead tokens) (callArgs fuel) parser := by
  cases fuel with | zero => omega | succ fuel => ?_
  unfold callArgs
  have finish {found : Option (List Expr × List Expr)} {state : Parser}
      (inside : Within tokens count state) : (Clean state → AreRead tokens found) →
      Yields tokens count (AreRead tokens) (match found with
        | none => pure none
        | some found => do
          consume .rightParen "Expect \")\" after arguments."
          pure (some found)) state := by
    intro areRead
    cases found with
    | none => exact goes_pure inside le_rfl areRead
    | some found =>
      exact (goes_consume inside).bind areRead fun _ _ inside known =>
        goes_pure inside le_rfl fun clean => (known clean).1
  refine goes_check (goes_ite (fun _ => ?_) fun _ => ?_)
  · exact finish within fun _ => ⟨[], [], rfl, trivial, trivial⟩
  · exact (goes_argLoop within (by omega)).then fun _ _ inside areRead => finish inside areRead

theorem goes_argLoop {fuel count parser} (within : Within tokens count parser)
    (enough : 8 * count + 4 ≤ fuel) :
    Yields tokens count (AreRead tokens) (argLoop fuel) parser := by
  cases fuel with | zero => omega | succ fuel => ?_
  unfold argLoop
  -- the token before an argument, a comma or the parenthesis, is not the end
  refine within.starts.accept (by decide) (fun state inside isComma _ => goes_get ?_)
    fun _ => goes_get ?_
  · have more := inside.pos (.inl (isComma.1 ▸ by decide))
    exact (goes_argument inside more (by omega)).mono (sub_le _ _)
  · refine goes_ite (fun opened => ?_) fun _ => ?_
    · have opened : parser.previous.kind = .leftParen := by simpa using opened
      exact goes_argument within (within.pos (.inl (opened ▸ by decide))) (by omega)
    · exact goes_pure within le_rfl fun _ => ⟨[], [], rfl, trivial, trivial⟩

theorem goes_argument {fuel count parser} (within : Within tokens count parser)
    (more : 0 < count) (enough : 8 * count + 3 ≤ fuel) :
    Yields tokens count (AreRead tokens) (argument fuel) parser := by
  cases fuel with | zero => omega | succ fuel => ?_
  unfold argument
  refine within.starts.ifTaken (by decide) (fun state inside isName _ => ?_) fun _ => ?_
  · refine goes_get (goes_check (goes_ite (fun _ => ?_) fun _ => ?_))
    · refine (goes_advance inside).then fun _ first inside' _ => ?_
      refine (goes_expression inside' (by omega)).then fun value second within isRead => ?_
      cases value with
      | none => exact goes_pure within (by omega) fun clean => nomatch isRead clean
      | some value =>
        refine (goes_keywordLoop within (by omega)).bind isRead fun others third within known => ?_
        cases others with
        | none => exact goes_pure within (by omega) fun clean => nomatch (known clean).2
        | some others =>
          refine (goes_argLoop within (by omega)).bind known fun found last within known => ?_
          match found with
          | none => exact goes_pure within (by omega) fun clean => nomatch (known clean).2
          | some (args, keywords) =>
            refine goes_pure within (by omega) fun clean => ?_
            obtain ⟨⟨⟨_, ⟨⟩, readable⟩, _, ⟨⟩, others⟩, _, _, ⟨⟩, areArgs, rest⟩ := known clean
            exact ⟨_, _, rfl, areArgs, keywordReadable_of (inside.solid isName (by decide))
              isName readable, keywordsReadable_append others rest⟩
    · refine (goes_precedence (count - 1) inside (by decide) le_rfl (by omega)).then
        fun _ _ inside isRead => ?_
      exact (goes_positional inside isRead (by omega)).mono (sub_le _ _)
  · refine (goes_expression within (by omega)).then fun _ _ inside isRead => ?_
    exact (goes_positional inside isRead (by omega)).mono (sub_le _ _)

theorem goes_positional {fuel count arg parser}
    (within : Within tokens count parser) (isRead : Clean parser → IsRead tokens arg)
    (enough : 8 * count + 5 ≤ fuel) :
    Yields tokens count (AreRead tokens) (positional fuel arg) parser := by
  cases fuel with | zero => omega | succ fuel => ?_
  unfold positional
  refine (goes_argLoop within (by omega)).bind isRead fun found last within known => ?_
  match found with
  | none => exact goes_pure within le_rfl fun clean => nomatch (known clean).2
  | some (args, keywords) =>
    refine goes_pure within le_rfl fun clean => ?_
    obtain ⟨⟨_, rfl, readable⟩, _, _, ⟨⟩, areArgs, rest⟩ := known clean
    exact ⟨_, _, rfl, ⟨readable, areArgs⟩, rest⟩

theorem goes_keywordLoop {fuel count parser} (within : Within tokens count parser)
    (enough : 8 * count + 1 ≤ fuel) :
    Goes tokens count (fun found _ => ∃ keywords, found = some keywords ∧
      Expr.KeywordsReadable (Calculates tokens) keywords) (keywordLoop fuel) parser := by
  cases fuel with | zero => omega | succ fuel => ?_
  unfold keywordLoop
  refine within.starts.ifTaken (by decide) (fun state inside _ _ => ?_) fun _ =>
    goes_pure within le_rfl fun _ => ⟨[], rfl, trivial⟩
  have more := inside.pos (.inl (by simp_all))
  refine (goes_consume inside).then fun _ first inside isName => goes_get ?_
  refine (goes_consume inside).bind isName fun _ second within known => ?_
  refine (goes_expression within (by omega)).bind known fun value third within known => ?_
  cases value with
  | none => exact goes_pure within (by omega) fun clean => nomatch (known clean).2
  | some value =>
    refine (goes_keywordLoop within (by omega)).bind known fun others last within known => ?_
    cases others with
    | none => exact goes_pure within (by omega) fun clean => nomatch (known clean).2
    | some others =>
      refine goes_pure within (by omega) fun clean => ?_
      obtain ⟨⟨⟨⟨isName, _⟩, _⟩, _, ⟨⟩, readable⟩, _, ⟨⟩, others⟩ := known clean
      exact ⟨_, rfl, keywordReadable_of (inside.solid isName (by decide)) isName readable,
        others⟩

end

end Parser

end NodeFormula
