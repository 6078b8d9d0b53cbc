import NodeFormula.Proofs.Writing.Statements

/-!
# Dead ends of reading

Reading stops with a fault in three places: where a token binds like an operator but continues
nothing, where arguments follow an operand that could not be read, and where a calculation fails
or never ends.  `Parser.forgiving` reports such a dead end and goes on.  Both readings are followed
together: `Parser.Tracks` says that the forgiving run ends, and what the usual run makes of the
reports that were added.

`Parser.Goes` says of a step that it comes closer to the end of the text, and that as long as
nothing was reported no token was passed over and what was read is readable.
-/

namespace NodeFormula

open List

variable {count : Nat}

namespace Parser

/-! ## States on the way through a text -/

def Scanned (tokens : List Token) : Prop :=
  ∃ (found : List Token) (last : Token), tokens = found ++ [last] ∧ last.kind = .endOfText ∧
    ∀ token ∈ found, token.kind = .error ∨ token.kind = .calculation ∨ token.Solid

theorem Scanned.solid (scanned : Scanned tokens) (member : token ∈ tokens)
    (noError : token.kind ≠ .error) (ordinary : token.kind.Ordinary) : token.Solid := by
  obtain ⟨_, _, rfl, isEnd, each⟩ := scanned
  rcases mem_append.1 member with inside | isLast
  · exact ((each token inside).resolve_left noError).resolve_left ordinary.2
  · exact absurd (mem_singleton.1 isLast ▸ isEnd) ordinary.1

theorem Scanned.ends (scanned : Scanned tokens) (suffix : token :: rest <:+ tokens) :
    (token.kind = .endOfText ↔ rest = []) ∧ ∀ other ∈ rest.getLast?, other.kind = .endOfText := by
  obtain ⟨_, _, rfl, isEnd, each⟩ := scanned
  obtain ⟨_, shape⟩ := suffix
  rcases eq_nil_or_concat rest with rfl | ⟨others, final, rfl⟩
  · cases append_inj_right' shape rfl
    exact ⟨iff_of_true isEnd rfl, nofun⟩
  · rw [concat_eq_append] at shape ⊢
    rw [← cons_append, ← append_assoc] at shape
    cases append_inj_right' shape rfl
    obtain rfl := append_inj_left' shape rfl
    have notEnd : token.kind ≠ .endOfText := by
      rcases each token (by simp) with isError | calculates | solid
      · simp [isError]
      · simp [calculates]
      · exact solid.ordinary.1
    exact ⟨iff_of_false notEnd (by simp), by simpa using isEnd⟩

def remaining (parser : Parser) : Nat :=
  if parser.previous.kind = .endOfText then 0 else parser.upcoming.length + 1

/-- A state where at most so many tokens can still be taken. -/
structure Inside (tokens : List Token) (count : Nat) (parser : Parser) : Prop where
  scanned : Scanned tokens
  few : parser.remaining ≤ count
  known : parser.previous ∈ tokens
  ahead : parser.current :: parser.upcoming <:+ tokens
  ends : parser.previous.kind = .endOfText → parser.upcoming = []

def Calculates (tokens : List Token) : Prop := ∃ token ∈ tokens, token.kind = .calculation

def Clean (parser : Parser) : Prop := parser.reports = []

/-- What holds as long as nothing was reported. -/
structure OnTrack (tokens : List Token) (parser : Parser) : Prop where
  calm : parser.panicking = false
  fine : ∃ passed, tokens = passed ++ parser.current :: parser.upcoming ∧
    Flawless (passed ++ [parser.current])
  operand : ∀ expr ∈ parser.operand, expr.Readable (Calculates tokens)

/-- A state on the way that is on track if nothing was reported. -/
structure Within (tokens : List Token) (count : Nat) (parser : Parser) : Prop
    extends Inside tokens count parser where
  track : Clean parser → OnTrack tokens parser

/-- The same, also with a token ahead that is none of the language, as a text may start. -/
structure Starts (tokens : List Token) (count : Nat) (parser : Parser) : Prop
    extends Inside tokens count parser where
  track : Clean parser →
    OnTrack tokens parser ∨ parser.current.kind = .error ∧ parser.panicking = false

theorem Within.starts (within : Within tokens count parser) : Starts tokens count parser :=
  ⟨within.toInside, fun clean => .inl (within.track clean)⟩

namespace Inside

variable (inside : Inside tokens count parser)
include inside

theorem mono (le : count ≤ more) : Inside tokens more parser :=
  { inside with few := inside.few.trans le }

theorem solid (isKind : parser.previous.kind = kind) (ordinary : kind ≠ .error ∧ kind.Ordinary) :
    parser.previous.Solid :=
  inside.scanned.solid inside.known (isKind ▸ ordinary.1) (isKind ▸ ordinary.2)

theorem pos (goesOn : parser.previous.kind ≠ .endOfText ∨ parser.current.kind ≠ .endOfText) :
    0 < count := by
  have few := inside.few
  unfold remaining at few
  split_ifs at few with ended
  · rcases goesOn with notOver | more
    · exact absurd ended notOver
    · exact absurd ((inside.scanned.ends inside.ahead).1.2 (inside.ends ended)) more
  · omega

theorem reportAt (calm : Clean parser → parser.panicking = false) (token : Token)
    (message : String) : Within tokens count (parser.reportAt token message) ∧
      ¬Clean (parser.reportAt token message) := by
  have reported : ¬Clean (parser.reportAt token message) := by
    unfold Parser.reportAt
    split_ifs with panicking
    · exact fun clean => absurd (calm clean) (by simp [panicking])
    · exact fun clean => by simp [Clean] at clean
  refine ⟨⟨?_, fun clean => absurd clean reported⟩, reported⟩
  unfold Parser.reportAt
  split_ifs
  · exact inside
  · exact { inside with }

end Inside

theorem Within.mono (within : Within tokens count parser) (le : count ≤ more) :
    Within tokens more parser :=
  ⟨within.toInside.mono le, within.track⟩

/-! ## Both readings -/

/-- Reading that reports a dead end, without a message, and goes on. -/
@[reducible] def forgiving : DeadEnd where
  meet _ := modify fun parser =>
    { parser with reports := parser.reports ++ [⟨"", parser.previous⟩] }

variable [Evaluator]

/-- The fault that ends reading at a calculation if it is not a mistake of the text. -/
def calculationFault? (token : Token) : Option Fault :=
  match outcome? token with
  | some (.ok _) => none
  | some (.error problem) => some (.calculation problem)
  | none => some .endless

def fault? (token : Token) : Option Fault :=
  match token.kind with
  | .not => some .noInfixRule
  | .leftParen => some .calleeMissing
  | .calculation => calculationFault? token
  | _ => none

/-- The fault that a report stands for if it is one of a dead end. -/
def deadEnd? (report : Report) : Option Fault :=
  if report.message = "" then fault? report.token else none

theorem fault_of_deadEnd (dead : deadEnd? report = some fault) :
    fault = .noInfixRule ∨ fault = .calleeMissing ∨
      report.token.kind = .calculation ∧ calculationFault? report.token = some fault := by
  unfold deadEnd? fault? at dead
  split at dead
  · split at dead
    · exact .inl (Option.some.inj dead).symm
    · exact .inr (.inl (Option.some.inj dead).symm)
    · rename_i isKind
      exact .inr (.inr ⟨isKind, dead⟩)
    · cases dead
  · cases dead

/-- A result that counts only if no report stands for a dead end. -/
def unlessDead {α : Type} (reports : List Report) (result : α) : Except Fault α :=
  match reports.findSome? deadEnd? with
  | none => .ok result
  | some fault => .error fault

/-- Dead ends are reported at tokens of a text. -/
def DeadAt (tokens : List Token) (reports : List Report) : Prop :=
  ∀ report ∈ reports, deadEnd? report ≠ none → report.token ∈ tokens

theorem fault_of_deadAt {reports : List Report} (known : DeadAt tokens reports)
    (dead : reports.findSome? deadEnd? = some fault) :
    fault = .noInfixRule ∨ fault = .calleeMissing ∨
      ∃ token ∈ tokens, token.kind = .calculation ∧ calculationFault? token = some fault := by
  obtain ⟨report, member, isDead⟩ := exists_of_findSome?_eq_some dead
  have inText := known report member (by simp [isDead])
  exact (fault_of_deadEnd isDead).imp_right (Or.imp_right fun calculated => ⟨_, inText, calculated⟩)

/--
The forgiving run of a step ends as described.  The usual run ends so if no dead end was reported,
and with the fault of the first one otherwise.
-/
def Tracks {α : Type} (tokens : List Token) (step : [DeadEnd] → Step α)
    (after : α → Parser → Prop) (parser : Parser) : Prop :=
  ∃ answer final added, @step forgiving parser = .ok (answer, final) ∧
    (final.reports = parser.reports ++ added ∧ DeadAt tokens added) ∧
    step parser = unlessDead added (answer, final) ∧ after answer final

section Rules

variable {middle : α → Parser → Prop} {after : β → Parser → Prop} {step : [DeadEnd] → Step α}
  {next : [DeadEnd] → α → Step β}

theorem Tracks.bind (first : Tracks tokens step middle parser)
    (second : ∀ answer state, middle answer state → (state.reports = [] → parser.reports = []) →
      Tracks tokens (next answer) after state) : Tracks tokens (step >>= next) after parser := by
  obtain ⟨answer, state, added, forgiven, ⟨grown, known⟩, usual, reached⟩ := first
  obtain ⟨result, final, more, forgivenNext, ⟨grownNext, knownNext⟩, usualNext, ended⟩ :=
    second answer state reached fun clean => (append_eq_nil_iff.1 (grown ▸ clean)).1
  refine ⟨result, final, added ++ more, ?_, ⟨?_, ?_⟩, ?_, ended⟩
  · exact (bind_of_ok forgiven).trans forgivenNext
  · rw [grownNext, grown, append_assoc]
  · exact forall_mem_append.2 ⟨known, knownNext⟩
  · rw [unlessDead, findSome?_append]
    rw [unlessDead] at usual
    cases dead : added.findSome? deadEnd? with
    | none =>
      rw [dead] at usual
      exact (bind_of_ok usual).trans usualNext
    | some fault =>
      rw [dead] at usual
      have stops : step parser = .error fault := usual
      show (step parser >>= _) = _
      rw [stops]
      rfl

theorem Tracks.imp {final : α → Parser → Prop} (tracks : Tracks tokens step middle parser)
    (weaker : ∀ answer state, middle answer state → final answer state) :
    Tracks tokens step final parser := by
  obtain ⟨answer, state, added, forgiven, grown, usual, reached⟩ := tracks
  exact ⟨answer, state, added, forgiven, grown, usual, weaker _ _ reached⟩

theorem tracks_pure (holds : middle answer parser) : Tracks tokens (pure answer) middle parser :=
  ⟨answer, parser, [], rfl, ⟨by simp, forall_mem_nil _⟩, rfl, holds⟩

end Rules

/-! ## Single steps -/

def Quiet (parser final : Parser) : Prop :=
  ∃ added, final.reports = parser.reports ++ added ∧ ∀ report ∈ added, deadEnd? report = none

theorem Quiet.trans (start : Quiet first second) (rest : Quiet second third) :
    Quiet first third := by
  obtain ⟨added, grown, mistakes⟩ := start
  obtain ⟨more, grownNext, mistakesNext⟩ := rest
  exact ⟨added ++ more, by rw [grownNext, grown, append_assoc],
    forall_mem_append.2 ⟨mistakes, mistakesNext⟩⟩

theorem quiet_of_eq (same : final.reports = parser.reports) : Quiet parser final :=
  ⟨[], by simp [same], nofun⟩

theorem deadEnd_describe (place token : Token) (message : String) :
    deadEnd? ⟨describe token message, place⟩ = none := by
  have wordy : describe token message ≠ "" := by
    intro same
    have start := congrArg (·.toList.head?) same
    simp [describe] at start
  exact if_neg wordy

theorem quiet_reportAt (parser : Parser) (token : Token) (message : String) :
    Quiet parser (parser.reportAt token message) := by
  unfold reportAt
  split
  · exact quiet_of_eq rfl
  · exact ⟨_, rfl, by simpa using deadEnd_describe token token message⟩

theorem tracks_of_ran {after : α → Parser → Prop} {step : Step α}
    (ran : step parser = .ok (answer, final)) (quiet : Quiet parser final)
    (holds : after answer final) : Tracks tokens step after parser := by
  obtain ⟨added, grown, mistakes⟩ := quiet
  refine ⟨answer, final, added, ran, ⟨grown, fun report member dead => ?_⟩, ?_, holds⟩
  · exact absurd (mistakes report member) dead
  rw [unlessDead, findSome?_eq_none_iff.2 mistakes]
  exact ran

theorem advanceOver_spec (parser : Parser) (nonempty : tokens ≠ [])
    (ends : ∀ token ∈ tokens.getLast?, token.kind = .endOfText) :
    let final := parser.advanceOver tokens
    (final.previous = parser.previous ∧ final.operand = parser.operand) ∧
      final.current :: final.upcoming <:+ tokens ∧ Quiet parser final ∧
      (final.reports = [] → parser.panicking = false → final.panicking = false ∧
        final.current :: final.upcoming = tokens ∧ final.current.kind ≠ .error) := by
  induction tokens generalizing parser with
  | nil => exact absurd rfl nonempty
  | cons token rest ih =>
    unfold advanceOver
    split_ifs with isError
    · have more : rest ≠ [] := by
        rintro rfl
        cases isError.symm.trans (ends token rfl)
      rw [getLast?_cons_of_ne_nil more] at ends
      have quiet := quiet_reportAt parser { token with problem := none } (token.problem.getD "")
      obtain ⟨same, suffix, later, _⟩ := ih (parser.reportAt _ _) more ends
      refine ⟨?_, suffix.trans (suffix_cons _ _), quiet.trans later, fun clean calm => ?_⟩
      · rw [same.1, same.2]
        unfold reportAt
        split <;> exact ⟨rfl, rfl⟩
      · obtain ⟨_, grown, _⟩ := later
        have silent := (append_eq_nil_iff.1 (grown.symm.trans clean)).1
        simp [reportAt, calm] at silent
    · exact ⟨⟨rfl, rfl⟩, suffix_rfl, quiet_of_eq rfl, fun _ calm => ⟨calm, rfl, isError⟩⟩

theorem Inside.next (inside : Inside tokens count parser) : Inside tokens (count - 1) parser.next ∧
    Quiet parser parser.next ∧
    parser.next.previous = parser.current ∧ parser.next.operand = parser.operand ∧
    (parser.next.reports = [] → parser.panicking = false → parser.next.panicking = false) := by
  obtain ⟨scanned, few, _, ahead, ends⟩ := inside
  have isEnd := scanned.ends ahead
  have taken := ahead.mem mem_cons_self
  unfold Parser.next
  by_cases last : parser.upcoming = []
  · rw [last] at ahead isEnd ⊢
    have ended : remaining { parser with previous := parser.current, upcoming := [] } = 0 :=
      if_pos (isEnd.1.2 rfl)
    exact ⟨⟨scanned, ended ▸ Nat.zero_le _, taken, ahead, fun _ => rfl⟩, quiet_of_eq rfl, rfl, rfl,
      fun _ => id⟩
  · obtain ⟨⟨previous, operand⟩, suffix, quiet, calm⟩ :=
      advanceOver_spec { parser with previous := parser.current } last isEnd.2
    refine ⟨⟨scanned, ?_, previous ▸ taken, suffix.trans ((suffix_cons _ _).trans ahead), ?_⟩,
      quiet, previous, operand, fun clean now => (calm clean now).1⟩
    · have length := suffix.length_le
      rw [remaining, if_neg fun ended => last (ends ended)] at few
      rw [length_cons] at length
      unfold remaining
      split_ifs <;> omega
    · rw [previous]
      exact fun ended => absurd (isEnd.1.1 ended) last

theorem OnTrack.next (inside : Inside tokens count parser) (track : OnTrack tokens parser)
    (clean : parser.next.reports = []) : OnTrack tokens parser.next := by
  obtain ⟨calm, ⟨passed, shape, flawless⟩, readable⟩ := track
  unfold Parser.next at clean ⊢
  by_cases last : parser.upcoming = []
  · rw [last] at shape ⊢
    exact ⟨calm, ⟨passed, shape, flawless⟩, readable⟩
  · obtain ⟨⟨_, operand⟩, _, _, next⟩ := advanceOver_spec { parser with previous := parser.current }
      last (inside.scanned.ends inside.ahead).2
    obtain ⟨stillCalm, ahead, fine⟩ := next clean calm
    refine ⟨stillCalm, ⟨passed ++ [parser.current], ?_, ?_⟩, by rwa [operand]⟩
    · rw [ahead, shape]
      simp
    · exact flawless_append.2 ⟨flawless, by simpa [Flawless] using fine⟩

theorem Within.next (within : Within tokens count parser) :
    Within tokens (count - 1) parser.next ∧ Quiet parser parser.next ∧
      parser.next.previous = parser.current ∧ parser.next.operand = parser.operand := by
  obtain ⟨inside, quiet, previous, operand, _⟩ := within.toInside.next
  refine ⟨⟨inside, fun clean => ?_⟩, quiet, previous, operand⟩
  obtain ⟨_, grown, _⟩ := quiet
  have silent := (append_eq_nil_iff.1 (grown.symm.trans clean)).1
  exact (within.track silent).next within.toInside clean

/-! ## Steps -/

/--
A step leads to a state where at most so many tokens can still be taken.  The answer and the state
have a property if nothing was reported.
-/
def Goes {α : Type} (tokens : List Token) (after : Nat) (holds : α → Parser → Prop)
    (step : [DeadEnd] → Step α) (parser : Parser) : Prop :=
  Tracks tokens step (fun answer final => Within tokens after final ∧
    (Clean final → holds answer final)) parser

/-- The same for a property of the answer alone. -/
abbrev Yields {α : Type} (tokens : List Token) (after : Nat) (holds : α → Prop)
    (step : [DeadEnd] → Step α) (parser : Parser) : Prop :=
  Goes tokens after (fun answer _ => holds answer) step parser

section Goes

variable {report : [DeadEnd] → Step Unit} {after : Nat} {known : Prop} [Decidable condition]
  {holds : β → Parser → Prop} {step : [DeadEnd] → Step α} {next : [DeadEnd] → α → Step β}
  {first second : [DeadEnd] → Step β}

/-- A step and what follows, with what is known if nothing was reported before. -/
theorem Goes.bind (facts : Clean parser → known) (goes : Goes tokens middle meets step parser)
    (rest : ∀ answer state, Within tokens middle state →
      (Clean state → known ∧ meets answer state) →
      Goes tokens after holds (next answer) state) : Goes tokens after holds
        (step >>= next) parser :=
  Tracks.bind goes fun answer state reached clean =>
    rest answer state reached.1 fun now => ⟨facts (clean now), reached.2 now⟩

theorem Goes.then (goes : Goes tokens middle meets step parser)
    (rest : ∀ answer state, Within tokens middle state →
      (Clean state → meets answer state) → Goes tokens after holds (next answer) state) :
    Goes tokens after holds (step >>= next) parser :=
  Tracks.bind goes fun answer state reached _ => rest answer state reached.1 reached.2

theorem Goes.mono (goes : Goes tokens middle holds first parser) (le : middle ≤ after) :
    Goes tokens after holds first parser :=
  goes.imp fun _ _ reached => ⟨reached.1.mono le, reached.2⟩

theorem goes_pure (within : Within tokens before parser) (le : before ≤ after)
    (met : Clean parser → holds answer parser) : Goes tokens after holds (pure answer) parser :=
  tracks_pure ⟨within.mono le, met⟩

theorem goes_get {next : [DeadEnd] → Parser → Step β}
    (rest : Goes tokens after holds (next parser) parser) :
    Goes tokens after holds (get >>= next) parser := rest

theorem goes_check {next : [DeadEnd] → Bool → Step β}
    (rest : Goes tokens after holds (next (parser.current.kind == kind)) parser) :
    Goes tokens after holds (check kind >>= next) parser := rest

theorem goes_ite (met : condition → Goes tokens after holds first parser)
    (failed : ¬condition → Goes tokens after holds second parser) :
    Goes tokens after holds (if condition then first else second) parser := by
  by_cases isMet : condition
  · simpa only [if_pos isMet] using met isMet
  · simpa only [if_neg isMet] using failed isMet

theorem goes_report {holds : Unit → Parser → Prop} (inside : Inside tokens before parser)
    (calm : Clean parser → parser.panicking = false) (place : Parser → Token) (message : String) :
    Goes tokens before holds (modify fun parser => parser.reportAt (place parser) message) parser :=
  let reported := inside.reportAt calm (place parser) message
  tracks_of_ran rfl (quiet_reportAt _ _ _) ⟨reported.1, fun clean => absurd clean reported.2⟩

theorem Within.goes_report {holds : Unit → Parser → Prop} (within : Within tokens before parser)
    (place : Parser → Token) (message : String) :
    Goes tokens before holds (modify fun parser => parser.reportAt (place parser) message) parser :=
  Parser.goes_report within.toInside (fun clean => (within.track clean).calm) place message

theorem goes_error {holds : Unit → Parser → Prop} (within : Within tokens before parser) :
    Goes tokens before holds (error message) parser :=
  within.goes_report previous message

theorem goes_mistake (reports : Goes tokens before (fun _ _ => False) report parser)
    (le : before ≤ after) : Goes tokens after holds (report >>= fun _ => pure answer) parser :=
  reports.then fun _ _ within never => goes_pure within le fun clean => (never clean).elim

theorem goes_unless {next : [DeadEnd] → Unit → Step β} (within : Within tokens before parser)
    (reports : Goes tokens before (fun _ _ => False) report parser)
    (rest : ∀ state, Within tokens before state → (Clean state → state = parser ∧ ¬condition) →
      Goes tokens after holds (next ()) state) :
    Goes tokens after holds (if condition then report >>= next else next ()) parser :=
  goes_ite (fun _ => reports.then fun _ state inside never =>
      rest state inside fun clean => (never clean).elim)
    fun fails => rest parser within fun _ => ⟨rfl, fails⟩

theorem goes_setOperand {operand : Option Expr} (within : Within tokens before parser)
    (readable : Clean parser → ∀ expr ∈ operand, expr.Readable (Calculates tokens)) :
    Goes tokens before (fun _ state => state.operand = operand) (setOperand operand) parser :=
  tracks_of_ran rfl (quiet_of_eq rfl) ⟨⟨{ within with }, fun clean =>
    { within.track clean with operand := readable clean }⟩, fun _ => rfl⟩

theorem goes_advance (within : Within tokens before parser) : Goes tokens (before - 1)
      (fun _ state => state.previous = parser.current ∧ state.operand = parser.operand)
      advance parser :=
  tracks_of_ran rfl within.next.2.1 ⟨within.next.1, fun _ => within.next.2.2⟩

theorem Starts.accept {next : [DeadEnd] → Bool → Step β} (starts : Starts tokens before parser)
    (noError : kind ≠ .error) (taken : ∀ state, Within tokens (before - 1) state →
      (state.previous.kind = kind ∧ parser.current.kind = kind ∧ state.operand = parser.operand) →
      (Clean state → Clean parser) → Goes tokens after holds (next true) state)
    (skipped : parser.current.kind ≠ kind → Goes tokens after holds (next false) parser) :
    Goes tokens after holds (Parser.accept kind >>= next) parser := by
  have ran : Parser.accept kind parser =
      if parser.current.kind == kind then .ok (true, parser.next) else .ok (false, parser) := by
    show (if parser.current.kind == kind then _ else _ : Step Bool) parser = _
    split_ifs <;> rfl
  by_cases ahead : parser.current.kind = kind
  · have within : Within tokens before parser := ⟨starts.toInside, fun clean =>
      (starts.track clean).resolve_right fun isError => noError (ahead ▸ isError.1)⟩
    obtain ⟨inside, quiet, previous, operand⟩ := within.next
    rw [if_pos (by simpa using ahead)] at ran
    have takes : Tracks tokens (Parser.accept kind)
        (fun found state => found = true ∧ state = parser.next) parser :=
      tracks_of_ran ran quiet ⟨rfl, rfl⟩
    exact takes.bind fun _ _ ⟨found, state⟩ clean => found ▸ state ▸ taken _ inside
      ⟨previous ▸ ahead, ahead, operand⟩ fun now => clean (state ▸ now)
  · rw [if_neg (by simpa using ahead)] at ran
    have stays : Tracks tokens (Parser.accept kind)
        (fun found state => found = false ∧ state = parser) parser :=
      tracks_of_ran ran (quiet_of_eq rfl) ⟨rfl, rfl⟩
    exact stays.bind fun _ _ ⟨found, state⟩ _ => found ▸ state ▸ skipped ahead

theorem Starts.ifTaken (starts : Starts tokens before parser) (noError : kind ≠ .error)
    (taken : ∀ state, Within tokens (before - 1) state → state.previous.kind = kind →
      (Clean state → Clean parser) → Goes tokens after holds first state)
    (skipped : parser.current.kind ≠ kind → Goes tokens after holds second parser) :
    Goes tokens after holds
      (Parser.accept kind >>= fun isTaken => if isTaken = true then first else second) parser :=
  starts.accept noError (fun state inside now => taken state inside now.1) skipped

theorem goes_accept (within : Within tokens before parser) (noError : kind ≠ .error) :
    Goes tokens before (fun isTaken state => (isTaken = true → state.previous.kind = kind) ∧
      state.operand = parser.operand) (accept kind) parser := by
  have both : Goes tokens before (fun isTaken state => (isTaken = true →
      state.previous.kind = kind) ∧ state.operand = parser.operand)
      (accept kind >>= pure) parser :=
    within.starts.accept noError
      (fun state inside now _ => goes_pure inside (Nat.sub_le _ _) fun _ =>
        ⟨fun _ => now.1, now.2.2⟩)
      fun _ => goes_pure within le_rfl fun _ => ⟨nofun, rfl⟩
  simpa only [bind_pure] using both

theorem goes_consume (within : Within tokens before parser) :
    Goes tokens before (fun _ state => state.previous.kind = kind ∧ state.operand = parser.operand)
      (consume kind message) parser := by
  refine goes_check (goes_ite (fun ahead => ?_) fun _ => ?_)
  · refine ((goes_advance within).mono (Nat.sub_le _ _)).imp fun _ _ reached => ?_
    exact ⟨reached.1, fun clean =>
      ⟨(reached.2 clean).1 ▸ by simpa using ahead, (reached.2 clean).2⟩⟩
  · exact within.goes_report current message

end Goes

end Parser

end NodeFormula
