import NodeFormula.Calculation.Function
import NodeFormula.Proofs.Acceptance.Expressions
import NodeFormula.Proofs.Sequencing

/-!
# Runs over formulas

Reading comes to its end at the end of the text, but for dead ends.  It goes through a formula
without calculations and without a report only if every token is one of the language and is taken,
and what it then makes of the formula is read back from its own text.
-/

namespace NodeFormula

open List Nat

variable {count : Nat}

namespace Parser

theorem Inside.spelled (inside : Inside tokens count parser)
    (isName : parser.previous.kind = .identifier)
    (isType : DataType.ofWord? parser.previous.lexeme = some type) : type.word ≠ "" := by
  obtain ⟨_, _, _, _, _, chars, _, stable⟩ := inside.solid isName (by decide)
  rw [isName] at stable
  have whole := stable [] (by simp [Gap])
  rw [DataType.ofWord?.eq_def] at isType
  split at isType <;> cases isType <;> first
    | decide
    | skip
  · rename_i isBlank
    rw [isBlank] at chars
    obtain ⟨rfl, rfl⟩ := List.cons.inj chars
    cases whole
  · rename_i isEmpty
    rw [isEmpty] at chars
    cases chars

section Evaluating

variable [Evaluator]

def ReadableParams (tokens : List Token) (params : List Param) : Prop :=
  ∀ param ∈ params, param.Readable (Calculates tokens)

def IsReadStmt (tokens : List Token) (found : Option Stmt) : Prop :=
  ∃ stmt, found = some stmt ∧ stmt.Readable (Calculates tokens)

section Statements

/-! ## Plain statements -/

theorem goes_drop {answer : α} {holds : α → Prop} (within : Within tokens count parser)
    (met : Clean parser → holds answer) :
    Yields tokens count holds (setOperand none >>= fun _ => pure answer) parser :=
  (goes_setOperand within (by simp)).bind met fun _ _ inside known =>
    goes_pure inside le_rfl fun clean => (known clean).1

theorem goes_finish (within : Within tokens count parser)
    (isRead : Clean parser → IsReadStmt tokens stmt) : Yields tokens count (IsReadStmt tokens)
      (accept .semicolon >>= fun _ => setOperand none >>= fun _ => pure stmt) parser :=
  (goes_accept within (by decide)).bind isRead fun _ _ inside known =>
    goes_drop inside fun clean => (known clean).1

theorem goes_statement (starts : Starts tokens count parser) (enough : 8 * count ≤ fuel) :
    Yields tokens (count - 1) (IsReadStmt tokens) (statement fuel) parser := by
  obtain ⟨inside, quiet, isCurrent, _, calm⟩ := starts.toInside.next
  have moves : Tracks tokens advance (fun _ state => state = parser.next) parser :=
    tracks_of_ran rfl quiet rfl
  refine moves.bind fun _ _ same clean => goes_get ?_
  subst same
  cases isRule : parser.next.previous.kind.prefixRule? with
  | none =>
    have reports : Goes tokens (count - 1) (fun _ _ => False)
        (error "Expect expression.") parser.next :=
      goes_report inside (fun now => calm now ?_) previous _
    · exact reports.then fun _ _ within never =>
        goes_finish within fun clean => (never clean).elim
    · exact (starts.track (clean now)).elim (·.calm) And.right
  | some rule =>
    have within : Within tokens (count - 1) parser.next := by
      refine ⟨inside, fun now => ?_⟩
      refine ((starts.track (clean now)).resolve_right fun isError => ?_).next starts.toInside now
      rw [isCurrent, isError.1] at isRule
      cases isRule
    have more := (inside.solid_of_prefixRule isRule).1
    refine .then (goes_applyPrefix within isRule (by omega)) fun begun state inside begins => ?_
    cases begun with
    | some assignment =>
      refine (goes_accept inside (by decide)).bind begins fun _ state inside known => ?_
      refine goes_unless inside (goes_error inside) fun last inside same => ?_
      refine goes_finish inside fun clean => ?_
      obtain ⟨rfl, _⟩ := same clean
      exact ⟨_, rfl, (known clean).1.2⟩
    | none =>
      refine (goes_continueWith inside begins (by decide) (by omega)).then
        fun _ state inside holding => ?_
      refine (goes_accept inside (by decide)).bind holding fun _ state inside known => ?_
      refine goes_unless inside (goes_error inside) fun state inside same => goes_get ?_
      refine goes_unless inside (goes_error inside) fun last inside same' => goes_get ?_
      refine goes_finish inside fun clean => ?_
      obtain ⟨rfl, _⟩ := same' clean
      obtain ⟨rfl, _⟩ := same clean
      obtain ⟨⟨expr, isOperand⟩, _, kept⟩ := known clean
      rw [kept, isOperand]
      exact ⟨_, rfl, (inside.track clean).operand expr (kept.trans isOperand)⟩

/-! ## Parameters -/

variable (within : Within tokens count parser)
include within

theorem goes_parseType : Goes tokens count (fun type _ => type.word ≠ "") parseType parser := by
  refine (goes_consume within).then fun _ state inside _ => ?_
  refine inside.starts.ifTaken (by decide) (fun state within isName _ => ?_)
    fun _ => goes_mistake (goes_error inside) le_rfl
  refine goes_get ?_
  cases isType : DataType.ofWord? state.previous.lexeme <;> simp only [isType]
  · exact goes_mistake (goes_error within) (sub_le _ _)
  · exact goes_pure within (sub_le _ _) fun _ => within.spelled isName isType

theorem goes_parseParam (enough : 8 * count + 2 ≤ fuel) :
    Goes tokens count (fun param _ => param.Readable (Calculates tokens))
      (parseParam fuel) parser := by
  refine (goes_consume within).then fun _ state inside isName => goes_get ?_
  refine (goes_parseType inside).bind isName fun type next within known => ?_
  have finish {default : Option Expr} {last : Parser} {left : Nat} (le : left ≤ count)
      (within : Within tokens left last)
      (known : Clean last → ((state.previous.kind = .identifier ∧ state.operand =
        parser.operand) ∧ type.word ≠ "") ∧ ∀ value ∈ default, value.Readable (Calculates tokens)) :
      Yields tokens count (Param.Readable (Calculates tokens))
        (pure ⟨state.previous, state.previous.lexeme, type, default⟩) last := by
    refine goes_pure within le fun clean => ?_
    obtain ⟨⟨⟨isName, _⟩, spelled⟩, readable⟩ := known clean
    exact ⟨⟨inside.solid isName (by decide), isName, rfl⟩, spelled, readable⟩
  refine within.starts.ifTaken (by decide) (fun state within _ back => ?_)
    fun _ => finish le_rfl within fun clean => ⟨known clean, nofun⟩
  refine (goes_expression within (by omega)).bind (known ∘ back) fun value last within known => ?_
  refine finish (by omega) within fun clean => ⟨(known clean).1, ?_⟩
  obtain ⟨_, value, rfl, readable⟩ := known clean
  simpa using readable

theorem goes_parameters (enough : 8 * count + 3 ≤ fuel) :
    Yields tokens count (ReadableParams tokens) (parameters fuel) parser := by
  induction fuel generalizing count parser with
  | zero => omega
  | succ fuel ih =>
    refine goes_check (goes_ite (fun _ => ?_) fun _ => ?_)
    · exact goes_pure within le_rfl fun _ => forall_mem_nil _
    refine (goes_parseParam within (by omega)).then fun param state inside isParam => ?_
    refine inside.starts.ifTaken (by decide) (fun state within isComma back => ?_)
      fun _ => goes_pure inside le_rfl fun clean => forall_mem_singleton.2 (isParam clean)
    have more := within.pos (.inl (isComma ▸ by decide))
    refine (ih within (by omega)).bind (isParam ∘ back) fun others last within known => ?_
    exact goes_pure within (sub_le _ _) fun clean => forall_mem_cons.2 (known clean)

theorem goes_results (opens : opening = .arrow ∨ opening = .comma) (enough : 8 * count + 1 ≤ fuel) :
    Yields tokens count (ReadableParams tokens) (results fuel opening) parser := by
  induction fuel generalizing count parser opening with
  | zero => omega
  | succ fuel ih =>
    refine within.starts.ifTaken (by rcases opens with rfl | rfl <;> decide)
      (fun state inside isTaken _ => ?_) fun _ => goes_pure within le_rfl fun _ => forall_mem_nil _
    have more := inside.pos (.inl (isTaken ▸ by rcases opens with rfl | rfl <;> decide))
    refine (goes_parseParam inside (by omega)).then fun param state inside isParam => ?_
    refine (ih inside (.inr rfl) (by omega)).bind isParam fun others last within known => ?_
    exact goes_pure within (sub_le _ _) fun clean => forall_mem_cons.2 (known clean)

/-! ## Outputs, names and numbers -/

theorem goes_out (isOut : parser.previous.kind = .out) (enough : 8 * count + 2 ≤ fuel) :
    Yields tokens count (IsReadStmt tokens) (out fuel) parser := by
  have solid := within.solid isOut (by decide)
  refine goes_get
    ((goes_targetList within (by omega)).then fun targets state inside areTargets => ?_)
  refine (goes_consume inside).bind areTargets fun _ state inside known => ?_
  refine goes_unless inside (inside.goes_report (fun _ => parser.previous) _)
    fun next inside same => ?_
  have facts : Clean next → targets ≠ [] ∧ ReadableTargets targets := by
    intro clean
    obtain ⟨rfl, nonempty⟩ := same clean
    exact ⟨by simpa using nonempty, (known clean).1⟩
  refine ((goes_expression inside enough).mono (sub_le _ _)).bind facts
    fun value last inside known => ?_
  cases value with
  | none =>
    refine goes_pure inside le_rfl fun clean => ?_
    obtain ⟨_, _, ⟨⟩, _⟩ := known clean
  | some value =>
    refine (goes_accept inside (by decide)).bind known fun _ _ inside known => ?_
    refine goes_drop inside fun clean => ?_
    obtain ⟨⟨⟨nonempty, areTargets⟩, _, ⟨⟩, readable⟩, _⟩ := known clean
    exact ⟨_, rfl, ⟨solid, isOut⟩, nonempty, areTargets, readable⟩

theorem goes_definitionName :
    Goes tokens count (fun found _ => found.1.Solid ∧ ReadsName found.1 found.2)
      (definitionName message) parser := by
  refine within.starts.ifTaken (by decide) (fun state inside isName _ => ?_) fun _ => ?_
  · refine goes_get (goes_pure inside (sub_le _ _) fun _ => ⟨inside.solid isName (by decide), ?_⟩)
    rw [if_neg (by rw [isName]; decide)]
    exact .plain isName
  refine within.starts.accept (by decide) (fun state inside isText _ => ?_) fun _ => ?_
  · refine goes_get (goes_pure inside (sub_le _ _) fun _ =>
      ⟨inside.solid isText.1 (by decide), ?_⟩)
    rw [if_pos isText.1]
    exact .quoted isText.1
  · have reports : Goes tokens count (fun _ _ => False) (error message) parser := goes_error within
    exact reports.then fun _ _ inside never =>
      goes_get (goes_pure inside le_rfl fun clean => (never clean).elim)

theorem goes_parseInt : Goes tokens count (fun _ _ => True) parseInt parser := by
  refine (goes_accept within (by decide)).then fun _ _ inside _ => ?_
  refine (goes_consume inside).then fun _ _ inside _ =>
    goes_get (goes_ite (fun _ => ?_) fun _ => ?_)
  all_goals exact goes_pure inside le_rfl fun _ => trivial

theorem goes_loopCounter : Yields tokens count Target.Readable loopCounter parser := by
  refine within.starts.ifTaken (by decide) (fun state inside isName _ => ?_)
    fun _ => goes_pure within le_rfl fun _ => trivial
  exact goes_get ((goes_consume inside).then fun _ _ last _ =>
    goes_pure last (sub_le _ _) fun _ => ⟨inside.solid isName (by decide), isName, rfl⟩)

theorem goes_loopBounds : Goes tokens count (fun _ _ => True) loopBounds parser := by
  refine (goes_parseInt within).then fun _ _ inside _ => ?_
  refine inside.starts.ifTaken (by decide) (fun state inside _ _ => ?_)
    fun _ => goes_pure inside le_rfl fun _ => trivial
  exact (goes_parseInt inside).then fun _ _ inside _ =>
    goes_pure inside (sub_le _ _) fun _ => trivial

end Statements

/-! ## Definitions and loops -/

mutual

theorem goes_declaration {fuel count : Nat} {parser : Parser} (starts : Starts tokens count parser)
    (enough : 8 * count + 1 ≤ fuel) :
    Yields tokens (count - 1) (IsReadStmt tokens) (declaration fuel) parser := by
  cases fuel with | zero => omega | succ fuel => ?_
  have defined (kind : DefinitionKind) (message : String) {state : Parser}
      (inside : Within tokens (count - 1) state) (more : 0 < count - 1) :
      Yields tokens (count - 1) (IsReadStmt tokens)
        (definition kind message (structureOf fuel)) state := by
    refine (goes_definitionName inside).then fun named state inside isNamed => ?_
    refine (goes_structureOf inside (by omega)).bind isNamed fun parts last inside known => ?_
    exact goes_pure inside le_rfl fun clean => ⟨_, rfl, known clean⟩
  refine starts.ifTaken (by decide) (fun state inside isOut _ => ?_) fun _ => ?_
  · have more := inside.pos (.inl (isOut ▸ by decide))
    exact goes_out inside isOut (by omega)
  refine starts.ifTaken (by decide) (fun state inside isKind _ =>
    defined .function _ inside (inside.pos (.inl (isKind ▸ by decide)))) fun _ => ?_
  refine starts.ifTaken (by decide) (fun state inside isKind _ =>
    defined .nodeGroup _ inside (inside.pos (.inl (isKind ▸ by decide)))) fun _ => ?_
  refine starts.ifTaken (by decide) (fun state inside isLoop _ => ?_)
    fun _ => goes_statement starts (by omega)
  have more := inside.pos (.inl (isLoop ▸ by decide))
  exact goes_loop inside isLoop (by omega)

theorem goes_structureOf {fuel count : Nat} {parser : Parser} (within : Within tokens count parser)
    (enough : 8 * count + 4 ≤ fuel) :
    Goes tokens count
      (fun parts _ => ReadableParams tokens parts.1 ∧
        Stmt.AllReadable (Calculates tokens) parts.2.1 ∧
      ReadableParams tokens parts.2.2) (structureOf fuel) parser := by
  cases fuel with | zero => omega | succ fuel => ?_
  refine (goes_consume within).then fun _ _ within _ => ?_
  refine (goes_parameters within (by omega)).then fun args _ within known => ?_
  refine (goes_consume within).bind known fun _ _ within known => ?_
  refine (goes_results within (.inl rfl) (by omega)).bind known fun returns _ within known => ?_
  refine (goes_consume within).bind known fun _ _ within known => ?_
  refine (goes_block within (by omega)).bind known fun body _ within known => ?_
  refine (goes_consume within).bind known fun _ _ within known => goes_drop within fun clean => ?_
  obtain ⟨⟨⟨⟨⟨areArgs, _⟩, areResults⟩, _⟩, isBody⟩, _⟩ := known clean
  exact ⟨areArgs, isBody, areResults⟩

theorem goes_loop {fuel count : Nat} {parser : Parser} (within : Within tokens count parser)
    (isLoop : parser.previous.kind = .loop) (enough : 8 * count + 3 ≤ fuel) :
    Yields tokens count (IsReadStmt tokens) (loop fuel) parser := by
  cases fuel with | zero => omega | succ fuel => ?_
  have solid := within.solid isLoop (by decide)
  refine goes_get ((goes_loopCounter within).then fun counter _ within known => ?_)
  refine (goes_loopBounds within).bind known fun bounds _ within known => ?_
  refine (goes_consume within).bind known fun _ _ within known => ?_
  refine (goes_block within (by omega)).bind known fun body _ within known => ?_
  refine (goes_consume within).bind known fun _ _ within known => goes_drop within fun clean => ?_
  obtain ⟨⟨⟨⟨isCounter, _⟩, _⟩, isBody⟩, _⟩ := known clean
  exact ⟨_, rfl, ⟨solid, isLoop⟩, isCounter, isBody⟩

theorem goes_block {fuel count : Nat} {parser : Parser} (within : Within tokens count parser)
    (enough : 8 * count + 2 ≤ fuel) :
    Yields tokens count (Stmt.AllReadable (Calculates tokens)) (block fuel) parser := by
  cases fuel with | zero => omega | succ fuel => ?_
  refine goes_check (goes_ite (fun _ => ?_) fun _ => ?_)
  · exact goes_pure within le_rfl fun _ => trivial
  refine within.starts.accept (by decide) (fun state inside _ _ => ?_) fun goesOn => ?_
  · exact goes_pure inside (sub_le _ _) fun _ => trivial
  have more := within.pos (.inr goesOn)
  refine .then (goes_declaration within.starts (by omega)) fun stmt state inside isRead => ?_
  refine (goes_block inside (by omega)).bind isRead fun stmts last inside known => ?_
  refine goes_pure inside (sub_le _ _) fun clean => ?_
  obtain ⟨⟨_, rfl, readable⟩, others⟩ := known clean
  exact ⟨readable, others⟩

end

section Formulas

theorem goes_recover (within : Within tokens count parser) (dirty : ¬Clean parser)
    (enough : count + 1 ≤ fuel) : Goes tokens count holds (recover fuel) parser := by
  induction fuel generalizing count parser with
  | zero => omega
  | succ fuel ih =>
    refine goes_get ?_
    have stays : Goes tokens count holds (pure ()) parser :=
      goes_pure within le_rfl fun clean => absurd clean dirty
    by_cases ended : parser.previous.kind = .endOfText
    · simp only [ended]
      exact stays
    · have more := within.pos (.inl ended)
      refine goes_ite (fun _ => stays) fun _ => goes_ite (fun _ => stays) fun _ => ?_
      obtain ⟨inside, quiet, _⟩ := within.next
      have moves : Tracks tokens advance (fun _ state => state = parser.next) parser :=
        tracks_of_ran rfl quiet rfl
      refine moves.bind fun _ _ same clean => ?_
      subst same
      exact (ih inside (fun now => dirty (clean now)) (by omega)).mono (sub_le _ _)

theorem goes_statements (starts : Starts tokens count parser) (enough : 8 * count + 2 ≤ fuel) :
    Yields tokens 0 (Stmt.AllReadable (Calculates tokens)) (statements fuel) parser := by
  induction fuel generalizing count parser with
  | zero => omega
  | succ fuel ih =>
    refine starts.ifTaken (by decide) (fun state inside isEnd _ => ?_) fun goesOn => ?_
    · exact goes_pure { inside with few := by simp [remaining, isEnd] } le_rfl fun _ => trivial
    have more := starts.pos (.inr goesOn)
    refine .then (goes_declaration starts (by omega)) fun stmt state inside isRead => ?_
    have others {state : Parser} (within : Within tokens (count - 1) state)
        (isRead : Clean state → IsReadStmt tokens stmt) :
        Yields tokens 0 (Stmt.AllReadable (Calculates tokens))
          (statements fuel >>= fun rest => pure (stmt.toList ++ rest)) state := by
      refine (ih within.starts (by omega)).bind isRead fun rest last within known => ?_
      refine goes_pure within le_rfl fun clean => ?_
      obtain ⟨⟨_, rfl, readable⟩, areRead⟩ := known clean
      exact ⟨readable, areRead⟩
    refine goes_get (goes_ite (fun panicking => ?_) fun _ => others inside isRead)
    have dirty : ¬Clean state := fun clean =>
      absurd (inside.track clean).calm (by simp [panicking])
    let calm : Parser := { state with panicking := false }
    have within : Within tokens (count - 1) calm :=
      ⟨{ inside.toInside with }, fun clean => absurd clean dirty⟩
    have calms : Tracks tokens (modify fun parser => { parser with panicking := false })
        (fun _ next => next = calm) state := tracks_of_ran rfl (quiet_of_eq rfl) rfl
    refine calms.bind fun _ _ same _ => ?_
    subst same
    have recovers : Goes tokens (count - 1) (fun _ _ => False) (recover fuel) calm :=
      goes_recover within dirty (by omega)
    exact recovers.then fun _ _ within never => others within fun clean => (never clean).elim

end Formulas

end Evaluating

end Parser

/-! ## Nothing is missing -/

namespace Expr

mutual

/-- Every operand, component and argument is there, and has a value. -/
def Complete : Expr → Prop
  | .constant _ _ | .name _ _ => True
  | .vec3 _ x y z => x.Complete ∧ y.Complete ∧ z.Complete
  | .unary _ _ operand => operand.Complete
  | .binary _ left _ right => left.Complete ∧ right.Complete
  | .member _ value _ | .keyword _ _ value => value.Complete
  | .call _ _ _ args keywords => AllComplete args ∧ AllComplete keywords
  | .method _ _ receiver _ args keywords =>
    receiver.Complete ∧ AllComplete args ∧ AllComplete keywords
  | .unusable _ _ | .missing => False

def AllComplete : List Expr → Prop
  | [] => True
  | expr :: exprs => expr.Complete ∧ AllComplete exprs

end

mutual

theorem Readable.complete : ∀ {expr : Expr}, expr.Readable calculates → expr.Complete
  | .constant _ _, _ => trivial
  | .vec3 brace x y z, readable => by
    have origin : (Expr.constant brace .placeholder).Complete := trivial
    obtain ⟨_, ⟨rfl, rfl, rfl⟩ | ⟨xReadable, ⟨rfl, rfl⟩ | ⟨yReadable, rfl | zReadable⟩⟩⟩ :=
      readable
    · exact ⟨origin, origin, origin⟩
    · exact ⟨Readable.complete xReadable, origin, origin⟩
    · exact ⟨Readable.complete xReadable, Readable.complete yReadable, origin⟩
    · exact ⟨Readable.complete xReadable, Readable.complete yReadable,
        Readable.complete zReadable⟩
  | .name _ _, _ => trivial
  | .unary _ _ _, readable => by
    rw [Complete]
    exact Readable.complete readable.2.2
  | .binary _ _ _ _, readable =>
    ⟨Readable.complete readable.2.2.1, Readable.complete readable.2.2.2⟩
  | .member _ _ _, readable => by
    rw [Complete]
    exact Readable.complete readable.2.2.1
  | .call _ _ _ _ _, readable =>
    ⟨AllReadable.complete readable.2.2.1, KeywordsReadable.complete readable.2.2.2⟩
  | .method _ _ _ _ _ _, readable =>
    ⟨Readable.complete readable.2.2.1, AllReadable.complete readable.2.2.2.2.1,
      KeywordsReadable.complete readable.2.2.2.2.2⟩

theorem AllReadable.complete : ∀ {exprs : List Expr}, AllReadable calculates exprs →
    AllComplete exprs
  | [], _ => trivial
  | _ :: _, readable => ⟨Readable.complete readable.1, AllReadable.complete readable.2⟩

theorem KeywordReadable.complete {expr : Expr} (readable : expr.KeywordReadable calculates) :
    expr.Complete := by
  cases expr with
  | keyword _ _ value =>
    rw [Complete]
    exact Readable.complete readable.2
  | _ => exact readable.elim

theorem KeywordsReadable.complete : ∀ {exprs : List Expr}, KeywordsReadable calculates exprs →
    AllComplete exprs
  | [], _ => trivial
  | _ :: _, readable =>
    ⟨KeywordReadable.complete readable.1, KeywordsReadable.complete readable.2⟩

end

end Expr

def Param.Complete (param : Param) : Prop :=
  param.type ≠ .unknown ∧ ∀ value ∈ param.default, value.Complete

theorem Param.Readable.complete {param : Param} (readable : param.Readable calculates) :
    param.Complete := by
  obtain ⟨_, spelled, default⟩ := readable
  refine ⟨fun isUnknown => spelled ?_, fun value isDefault => (default value isDefault).complete⟩
  rw [isUnknown]
  rfl

namespace Stmt

mutual

/-- No part is missing, parameters have types and outputs have targets. -/
def Complete : Stmt → Prop
  | .expr value | .assign _ _ value => value.Complete
  | .out _ targets value => targets ≠ [] ∧ value.Complete
  | .definition _ _ _ args body returns =>
    (∀ param ∈ args, param.Complete) ∧ AllComplete body ∧ ∀ param ∈ returns, param.Complete
  | .loop _ _ _ _ body => AllComplete body
  | .missing => False

def AllComplete : List Stmt → Prop
  | [] => True
  | stmt :: stmts => stmt.Complete ∧ AllComplete stmts

end

mutual

theorem Readable.complete : ∀ {stmt : Stmt}, stmt.Readable calculates → stmt.Complete
  | .expr _, readable => Expr.Readable.complete readable
  | .assign _ _ _, readable => Expr.Readable.complete readable.2.2.2
  | .out _ _ _, readable => ⟨readable.2.1, Expr.Readable.complete readable.2.2.2⟩
  | .definition _ _ _ _ _ _, readable =>
    ⟨fun param isArg => (readable.2.1 param isArg).complete,
      AllReadable.complete readable.2.2.1,
      fun param isResult => (readable.2.2.2 param isResult).complete⟩
  | .loop _ _ _ _ _, readable => AllReadable.complete readable.2.2

theorem AllReadable.complete : ∀ {stmts : List Stmt}, AllReadable calculates stmts →
    AllComplete stmts
  | [], _ => trivial
  | _ :: _, readable => ⟨Readable.complete readable.1, AllReadable.complete readable.2⟩

end

end Stmt

/-! ## Whole runs -/

namespace Parser

theorem scanned_scan (source : String) : Scanned (scan source) := by
  obtain ⟨found, last, shape, each, isEnd⟩ := solid_of_scan source
  exact ⟨found, last, shape, isEnd, fun token member =>
    (each token member).imp_right (Or.imp_left And.left)⟩

theorem not_calculates_scan (noCalculation : '#' ∉ source.toList) :
    ¬ Calculates (scan source) := by
  obtain ⟨_, _, shape, each, isEnd⟩ := solid_of_scan source
  rintro ⟨token, member, isKind⟩
  rcases mem_append.1 (shape ▸ member) with inside | isLast
  · rcases each token inside with isError | calculates | solid
    · cases isKind.symm.trans isError
    · exact noCalculation calculates.2
    · exact solid.ordinary.2 isKind
  · cases isKind.symm.trans (mem_singleton.1 isLast ▸ isEnd)

theorem starts_ofSource :
    Starts (scan source) ((ofSource source).upcoming.length + 1) (ofSource source) := by
  have scanned := scanned_scan source
  unfold ofSource ofTokens
  cases tokens : scan source with
  | nil =>
    obtain ⟨_, _, shape, _⟩ := scanned
    simp [tokens] at shape
  | cons first rest =>
    rw [tokens] at scanned
    have ends := scanned.ends suffix_rfl
    refine ⟨⟨scanned, ?_, mem_cons_self, suffix_rfl, ends.1.1⟩, fun _ => ?_⟩
    · unfold remaining
      split_ifs <;> simp
    · by_cases isError : first.kind = .error
      · exact .inr ⟨isError, rfl⟩
      · exact .inl ⟨rfl, ⟨[], rfl, forall_mem_singleton.2 isError⟩, nofun⟩

/-- What a whole run leads to, with the fuel for its tokens or more. -/
theorem goes_ofSource [Evaluator] (source : String) (extra : Nat) :
    Goes (scan source) 0 (fun stmts _ => Stmt.AllReadable (Calculates (scan source)) stmts)
      (statements ((ofSource source).fuelFor + extra)) (ofSource source) := by
  refine goes_statements starts_ofSource ?_
  unfold fuelFor
  omega

theorem Inside.ended (inside : Inside tokens 0 parser) :
    parser.previous.kind = .endOfText ∧ parser.upcoming = [] := by
  have isEnd : parser.previous.kind = .endOfText := by
    by_contra goesOn
    exact absurd (inside.pos (.inl goesOn)) (Nat.lt_irrefl 0)
  exact ⟨isEnd, inside.ends isEnd⟩

/-- Every calculation of a text comes to an end. -/
def CalculationsEnd [Evaluator] (source : String) : Prop :=
  ∀ token ∈ scan source, token.kind = .calculation → outcome? token ≠ none

/--
Reading ends on every text whose calculations end: with every token taken, or at a token that
continues nothing, at arguments of an operand that could not be read, or at a calculation that
fails.
-/
theorem statements_end [Evaluator] (source : String) (extra : Nat)
    (calculationsEnd : CalculationsEnd source) :
    match (statements ((ofSource source).fuelFor + extra)).run (ofSource source) with
    | .ok (_, final) => final.previous.kind = .endOfText ∧ final.upcoming = []
    | .error fault => fault = .noInfixRule ∨ fault = .calleeMissing ∨
        ∃ problem, fault = .calculation problem := by
  obtain ⟨body, final, added, _, ⟨_, known⟩, usual, within, _⟩ := goes_ofSource source extra
  have ran : (statements ((ofSource source).fuelFor + extra)).run (ofSource source) =
      unlessDead added (body, final) := usual
  rw [ran, unlessDead]
  cases dead : added.findSome? deadEnd? with
  | none => exact within.ended
  | some fault =>
    refine (fault_of_deadAt known dead).imp_right (Or.imp_right ?_)
    rintro ⟨token, member, isKind, isFault⟩
    have ends := calculationsEnd token member isKind
    unfold calculationFault? at isFault
    split at isFault
    · cases isFault
    · exact ⟨_, (Option.some.inj isFault).symm⟩
    · exact absurd ‹_› ends

/-- A sum that is calculated, in a call without its last parenthesis. -/
theorem statements_end_unbalanced : CalculationsEnd "x = sin(#(1 + 1" ∧
    match (statements (ofSource "x = sin(#(1 + 1").fuelFor).run (ofSource "x = sin(#(1 + 1") with
    | .ok (_, final) => final.previous.kind = .endOfText ∧ final.upcoming = []
    | .error fault => fault = .noInfixRule ∨ fault = .calleeMissing ∨
        ∃ problem, fault = .calculation problem := by
  have ends : CalculationsEnd "x = sin(#(1 + 1" :=
    fun _ _ _ => Option.some_ne_none _
  exact ⟨ends, statements_end _ 0 ends⟩

theorem parse_eq_unlessDead [Evaluator] (source : String) :
    ∃ parsed, @parse _ forgiving (.ofSource source) = .ok parsed ∧
      DeadAt (scan source) parsed.reports ∧
      NodeFormula.parse source = unlessDead parsed.reports parsed := by
  obtain ⟨body, final, added, forgiven, ⟨grown, known⟩, usual, _⟩ := goes_ofSource source 0
  obtain rfl : final.reports = added := grown
  refine ⟨⟨body, final.reports⟩, congrArg (· >>= _) forgiven, known, ?_⟩
  refine (congrArg (· >>= _) usual).trans ?_
  unfold unlessDead
  cases final.reports.findSome? deadEnd? <;> rfl

/--
The reading that reports dead ends comes to the end of the text.  The usual reading gives the same,
or stops with the fault of the first dead end: of a token that continues nothing, of arguments
without a callee, or of a calculation.
-/
theorem parse_unless_deadEnd [Evaluator] (source : String) :
    (∃ parsed, @parse _ forgiving (.ofSource source) = .ok parsed ∧
      NodeFormula.parse source = unlessDead parsed.reports parsed) ∧
    ∀ fault, NodeFormula.parse source = .error fault →
      fault = .noInfixRule ∨ fault = .calleeMissing ∨
        ∃ token ∈ scan source, token.kind = .calculation ∧
          calculationFault? token = some fault := by
  obtain ⟨parsed, forgiven, known, usual⟩ := parse_eq_unlessDead source
  refine ⟨⟨parsed, forgiven, usual⟩, fun fault stopped => ?_⟩
  rw [usual, unlessDead] at stopped
  cases dead : parsed.reports.findSome? deadEnd? with
  | none =>
    rw [dead] at stopped
    cases stopped
  | some first =>
    rw [dead] at stopped
    cases stopped
    exact fault_of_deadAt known dead

/-- An operator for one operand stands between two, or arguments follow an operand without value. -/
theorem parse_stops_at_deadEnd :
    NodeFormula.parse "1 not 2" = .error .noInfixRule ∧
      NodeFormula.parse "()(" = .error .calleeMissing := by
  decide +kernel

/-- A run without a report reads every token and makes something readable of them. -/
theorem statements_of_clean [Evaluator]
    (done : statements (ofSource source).fuelFor (ofSource source) = .ok (body, final))
    (clean : Clean final) :
    Flawless (scan source) ∧ (final.previous.kind = .endOfText ∧ final.upcoming = []) ∧
      Stmt.AllReadable (Calculates (scan source)) body := by
  obtain ⟨answer, state, added, _, _, usual, within, holds⟩ := goes_ofSource source 0
  have same : (answer, state) = (body, final) := by
    have usual := done.symm.trans usual
    rw [unlessDead] at usual
    cases dead : added.findSome? deadEnd? <;> rw [dead] at usual <;> cases usual
    rfl
  cases same
  obtain ⟨_, shape, flawless⟩ := (within.track clean).fine
  rw [within.ended.2] at shape
  exact ⟨shape ▸ flawless, within.ended, holds clean⟩

end Parser

theorem parse_eq_ok [Evaluator] (done : parse source = .ok parsed) :
    ∃ final, (Parser.statements (Parser.ofSource source).fuelFor).run (.ofSource source) =
      .ok (parsed.body, final) ∧ parsed.reports = final.reports := by
  cases ran : (Parser.statements (Parser.ofSource source).fuelFor).run (.ofSource source) with
  | error fault =>
    rw [parse, Parser.parse, ran] at done
    cases done
  | ok outcome =>
    rw [parse, Parser.parse, ran] at done
    cases done
    exact ⟨_, rfl, rfl⟩

/--
A formula without calculations that is read without a report: its text holds no mistake and was read
to its end, nothing is missing, and it is read back from its own text.
-/
theorem parse_accepted [Evaluator] {source : String} {parsed : Parser.Parsed}
    (noCalculation : '#' ∉ source.toList) (done : parse source = .ok parsed)
    (clean : parsed.reports = []) :
    (∀ token ∈ scan source, token.kind ≠ .error) ∧
      (∃ final, (Parser.statements (Parser.ofSource source).fuelFor).run (.ofSource source) =
        .ok (parsed.body, final) ∧ final.previous.kind = .endOfText ∧ final.upcoming = []) ∧
      Stmt.AllComplete parsed.body ∧
      ∃ again, parse parsed.body.write = .ok ⟨again, []⟩ ∧
        again.unplaced = parsed.body.unplaced := by
  obtain ⟨final, ran, sameReports⟩ := parse_eq_ok done
  obtain ⟨flawless, ended, readable⟩ :=
    Parser.statements_of_clean ran (sameReports.symm.trans clean)
  rw [eq_false (Parser.not_calculates_scan noCalculation)] at readable
  exact ⟨flawless, ⟨final, ran, ended⟩, readable.complete, parse_write Token.unplaced readable⟩

/-- A group with a default, a loop, a vector, a method and a keyword argument. -/
theorem parse_accepted_group : ∃ parsed, parse "ng \"g\"(a: vec3 = \x7b1, 2\x7d) -> r: float
        \x7b loop i = 0 -> 2 \x7b out r = -a.x ** i; \x7d \x7d
        y, _ = position().add(b=g(1)) ;" = .ok parsed ∧ parsed.reports = [] ∧
      Stmt.AllComplete parsed.body ∧ ∃ again, parse parsed.body.write = .ok ⟨again, []⟩ ∧
        again.unplaced = parsed.body.unplaced := by
  refine (?_ : ∃ parsed, _ ∧ parsed.reports = []).imp fun parsed ⟨read, clean⟩ =>
    ⟨read, clean, (parse_accepted (by decide +kernel) read clean).2.2⟩
  decide +kernel

end NodeFormula
