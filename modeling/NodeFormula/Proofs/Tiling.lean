import NodeFormula.Editor
import NodeFormula.Proofs.Scanning

/-!
# The tokens of a text and of its lines

The lexemes of the tokens tile a text: all that stands between them are blanks and comments.  A
line end parts lexemes as the end of a text does.  So a text is scanned line by line with the same
tokens, unless one of them goes on beyond the end of its line.
-/

namespace NodeFormula

open List NodeFormula.Text Place Lexeme

variable {text line : List Char}

/-! ## Tiles -/

/-- From an offset on, a text is made of blanks, comments and the lexemes of tokens. -/
inductive Tiled : Nat → List Char → List Token → Prop
  | done {offset} : Tiled offset [] []
  | blank {offset c text tokens}
      (isBlank : isBlank c = true) (rest : Tiled (offset + 1) text tokens) :
      Tiled offset (c :: text) tokens
  /-- A comment goes on to the end of its line. -/
  | comment {offset body text tokens} (unbroken : '\n' ∉ body)
      (ends : ∀ c ∈ text.head?, c = '\n') (rest : Tiled (offset + (body.length + 2)) text tokens) :
      Tiled offset ('/' :: '/' :: (body ++ text)) tokens
  | lexeme {token text tokens}
      (nonempty : token.lexeme.toList ≠ [])
      (rest : Tiled (token.start + token.lexeme.toList.length) text tokens) :
      Tiled token.start (token.lexeme.toList ++ text) (token :: tokens)

theorem Place.start_next (place : Place) (c : Char) : (place.next c).start = place.start + 1 := by
  unfold next
  split <;> rfl

theorem tiled_skip (inComment : Bool) (place : Place) (text : List Char)
    (tiled : Tiled (place.skip inComment text).1.start (place.skip inComment text).2 tokens) :
    if inComment then
      ∃ body after, text = body ++ after ∧ '\n' ∉ body ∧ (∀ c ∈ after.head?, c = '\n') ∧
        Tiled (place.start + body.length) after tokens else Tiled place.start text tokens := by
  induction text generalizing inComment place with
  | nil =>
    cases inComment with
    | false => exact tiled
    | true => exact ⟨[], [], rfl, by simp, nofun, tiled⟩
  | cons c rest ih =>
    have later (inComment : Bool) := ih inComment (place.next c)
    rw [start_next] at later
    unfold skip at tiled
    cases inComment with
    | true =>
      rw [if_pos rfl] at tiled
      split_ifs at tiled with ends
      · refine ⟨[], c :: rest, rfl, by simp, by simpa using ends, ?_⟩
        exact .blank (ends ▸ by decide) (later false tiled)
      · obtain ⟨body, after, rfl, unbroken, stops, tiled⟩ := later true tiled
        refine ⟨c :: body, after, rfl, by simp [unbroken, Ne.symm ends], stops, ?_⟩
        rw [length_cons, Nat.add_comm body.length, ← Nat.add_assoc]
        exact tiled
    | false =>
      rw [if_neg (by simp)] at tiled
      split_ifs at tiled with isBlank opens
      · exact .blank isBlank (later false tiled)
      · rw [Bool.and_eq_true, decide_eq_true_eq, decide_eq_true_eq] at opens
        obtain ⟨body, after, rfl, unbroken, stops, rest⟩ := later true tiled
        cases body with
        | nil => exact absurd (stops '/' opens.2) (by decide)
        | cons second body =>
          obtain ⟨rfl, isSecond⟩ := opens
          cases Option.some.inj isSecond
          refine .comment (by simp_all) stops ?_
          rwa [length_cons, Nat.add_assoc, Nat.add_comm 1] at rest
      · exact tiled

theorem Place.start_skip (inComment : Bool) (place : Place) (text : List Char) :
    (place.skip inComment text).1.start + (place.skip inComment text).2.length =
      place.start + text.length := by
  induction text generalizing inComment place with
  | nil => rfl
  | cons c rest ih =>
    have later (inComment : Bool) := ih inComment (place.next c)
    rw [start_next, Nat.add_right_comm] at later
    unfold skip
    split_ifs <;> first | exact later _ | rfl

namespace Tiled

theorem le_start (tiled : Tiled offset text tokens) : ∀ token ∈ tokens, offset ≤ token.start := by
  induction tiled with
  | done => exact nofun
  | blank _ _ ih => exact fun token member => (Nat.le_succ _).trans (ih token member)
  | comment _ _ _ ih => exact fun token member => (Nat.le_add_right _ _).trans (ih token member)
  | lexeme _ _ ih =>
    exact forall_mem_cons.2 ⟨le_rfl, fun token member =>
      (Nat.le_add_right _ _).trans (ih token member)⟩

theorem pairwise (tiled : Tiled offset text tokens) :
    tokens.Pairwise fun first second =>
      first.start + first.lexeme.toList.length ≤ second.start := by
  induction tiled with
  | done => exact .nil
  | blank _ _ ih | comment _ _ _ ih => exact ih
  | lexeme _ rest ih => exact .cons rest.le_start ih

theorem slice (tiled : Tiled offset text tokens) : ∀ token ∈ tokens, token.lexeme.toList ≠ [] ∧
    ∃ before after, text = before ++ (token.lexeme.toList ++ after) ∧
      token.start = offset + before.length := by
  induction tiled with
  | done => exact nofun
  | blank _ _ ih =>
    intro token member
    obtain ⟨nonempty, before, after, rfl, start⟩ := ih token member
    exact ⟨nonempty, _ :: before, after, rfl, by rw [length_cons]; omega⟩
  | @comment _ body _ _ _ _ _ ih =>
    intro token member
    obtain ⟨nonempty, before, after, rfl, start⟩ := ih token member
    refine ⟨nonempty, '/' :: '/' :: (body ++ before), after, by simp, ?_⟩
    simp only [length_cons, length_append]
    omega
  | @lexeme head _ _ nonempty _ ih =>
    refine forall_mem_cons.2 ⟨⟨nonempty, [], _, rfl, rfl⟩, fun token member => ?_⟩
    obtain ⟨nonempty, before, after, rfl, start⟩ := ih token member
    refine ⟨nonempty, head.lexeme.toList ++ before, after, by simp, ?_⟩
    rw [start, length_append, Nat.add_assoc]

end Tiled

/-! ## One token after the other -/

/-- A scanner stands at a place before the rest of a text. -/
structure Scanner where
  place : Place
  text : List Char

namespace Scanner

def next (scanner : Scanner) : Token × Scanner :=
  match scanner.place.skip false scanner.text with
  | (here, []) => (here.endToken, ⟨here, []⟩)
  | (here, c :: rest) =>
    let lexeme := read c rest
    (here.token lexeme, ⟨here.past lexeme.text.length, lexeme.rest⟩)

/-- What the scanner gives after it was called a number of times before. -/
def call (scanner : Scanner) : Nat → Token
  | 0 => scanner.next.1
  | count + 1 => scanner.next.2.call count

theorem call_end (place : Place) (count : Nat) : (mk place []).call count = place.endToken := by
  induction count with
  | zero => rfl
  | succ count ih => exact ih

end Scanner

/--
The lexemes tile the text, and the last token stands at its end.  A scanner gives the tokens in
their order.
-/
theorem tiled_tokensFrom (place : Place) (text : List Char) :
    ∃ found last, tokensFrom place text = found ++ [last] ∧ Tiled place.start text found ∧
      (∀ token ∈ found, token.kind ≠ .endOfText) ∧ last.kind = .endOfText ∧
      last.start = place.start + text.length ∧
      ∀ count, (Scanner.mk place text).call count = found.getD count last := by
  fun_induction tokensFrom place text with
  | case1 place text here skipped =>
    have passed := @tiled_skip [] false place text
    have start := place.start_skip false text
    rw [skipped] at passed start
    refine ⟨[], here.endToken, rfl, passed .done, forall_mem_nil _, rfl, start, fun count => ?_⟩
    cases count with
    | zero => rw [Scanner.call, Scanner.next, skipped]; rfl
    | succ count => rw [Scanner.call, Scanner.next, skipped, Scanner.call_end]; rfl
  | case2 place text here c rest skipped lexeme ih =>
    obtain ⟨found, last, others, tiled, inside, isEnd, atEnd, calls⟩ := ih
    obtain ⟨inner, isText, tiles⟩ := tiles_read c rest
    have isLexeme : (here.token lexeme).lexeme.toList = c :: inner := by
      rw [token, String.toList_ofList, isText]
    have passed := @tiled_skip (here.token lexeme :: found) false place text
    have start := place.start_skip false text
    rw [skipped] at passed start
    refine ⟨here.token lexeme :: found, last, by rw [others]; rfl, passed ?_,
      forall_mem_cons.2 ⟨kind_read_ne_end c rest, inside⟩, isEnd, ?_, fun count => ?_⟩
    · have whole : c :: rest = (here.token lexeme).lexeme.toList ++ lexeme.rest := by
        rw [isLexeme, cons_append, ← tiles]
      rw [whole]
      refine .lexeme (isLexeme ▸ cons_ne_nil c inner) ?_
      rw [token, String.toList_ofList]
      exact tiled
    · have parts := congrArg length tiles
      rw [length_append] at parts
      simp only [past, isText, length_cons, lexeme] at atEnd start parts
      omega
    · cases count with
      | zero => rw [Scanner.call, Scanner.next, skipped]; rfl
      | succ count => rw [Scanner.call, Scanner.next, skipped]; exact calls count

/--
The lexemes of a text without NUL tile it, up to the token at its end; scanning on gives that
token again.
-/
theorem scan_tiles (source : String) (noNul : Char.ofNat 0 ∉ source.toList) :
    ∃ found last, scan source = found ++ [last] ∧ Tiled 0 source.toList found ∧
      (∀ token ∈ found, token.kind ≠ .endOfText ∧ token.lexeme.toList ≠ [] ∧ token.lexeme.toList =
        (source.toList.drop token.start).take token.lexeme.toList.length) ∧
      (found.Pairwise fun first second => first.start + first.lexeme.toList.length ≤ second.start) ∧
      last.kind = .endOfText ∧ last.start = source.toList.length ∧
      ∀ count, (Scanner.mk .origin (effectiveText source)).call count = found.getD count last := by
  have whole := effectiveText_of_free noNul
  rw [String.ofList_toList] at whole
  obtain ⟨found, last, isScan, tiled, inside, isEnd, start, calls⟩ :=
    tiled_tokensFrom .origin (effectiveText source)
  rw [whole] at tiled start
  refine ⟨found, last, isScan, tiled, fun token member => ⟨inside token member, ?_⟩,
    tiled.pairwise, isEnd, by rw [start]; exact Nat.zero_add _, calls⟩
  obtain ⟨nonempty, before, after, isText, start⟩ := tiled.slice token member
  rw [origin, Nat.zero_add] at start
  refine ⟨nonempty, ?_⟩
  rw [isText, start, List.drop_left, List.take_left]

/-- A name, a text that goes on in the next line, a comment and a calculation. -/
theorem scan_tiles_formula :
    ∃ found last, scan "a = 'b\n c'; // d\n #(1)" = found ++ [last] ∧
      Tiled 0 "a = 'b\n c'; // d\n #(1)".toList found ∧ last.start = 22 := by
  obtain ⟨found, last, isScan, tiled, _, _, _, start, _⟩ :=
    scan_tiles "a = 'b\n c'; // d\n #(1)" (by simp)
  exact ⟨found, last, isScan, tiled, start.trans (by simp)⟩

/-! ## Lines and columns -/

/-- The line and the column behind a text, both counted from one. -/
def lineAndCol (text : List Char) : Nat × Nat :=
  (1 + text.count '\n', 1 + (text.reverse.takeWhile (· ≠ '\n')).length)

/-- A place behind a text, so many lines too far up; the column is right if the line is. -/
structure Place.Lags (place : Place) (lag : Nat) (text : List Char) : Prop where
  start : place.start = text.length
  line : (lineAndCol text).1 = place.line + lag
  col : lag = 0 → (lineAndCol text).2 = place.col

def Place.Le (first second : Place) : Prop :=
  first.line < second.line ∨ first.line = second.line ∧ first.col ≤ second.col

def Token.place (token : Token) : Place := ⟨token.line, token.col, token.start⟩

/-- A token stands in an earlier line, or further left in the same one. -/
def Token.Precedes (first second : Token) : Prop :=
  first.line < second.line ∨ first.line = second.line ∧ first.col < second.col

def lineEnds (tokens : List Token) : Nat := (tokens.flatMap (·.lexeme.toList)).count '\n'

section Lags

variable {place : Place}

theorem lineAndCol_concat (text : List Char) (c : Char) : lineAndCol (text ++ [c]) =
    if c = '\n' then ((lineAndCol text).1 + 1, 1)
    else ((lineAndCol text).1, (lineAndCol text).2 + 1) := by
  by_cases ends : c = '\n' <;> simp [lineAndCol, ends, Nat.add_assoc]

theorem Place.Lags.next (lags : place.Lags lag text) (c : Char) :
    (place.next c).Lags lag (text ++ [c]) := by
  obtain ⟨start, line, col⟩ := lags
  constructor
  · rw [start_next, start, length_append, length_singleton]
  all_goals
    rw [lineAndCol_concat, Place.next]
    split_ifs <;> simp_all [Nat.add_right_comm]

theorem Place.Lags.past (lags : place.Lags lag text) (lexeme : List Char) :
    (place.past lexeme.length).Lags (lag + lexeme.count '\n') (text ++ lexeme) := by
  obtain ⟨start, line, col⟩ := lags
  simp only [lineAndCol] at line col
  refine ⟨?_, ?_, fun noLag => ?_⟩
  · rw [length_append, ← start]
    rfl
  · simp only [lineAndCol, Place.past, count_append]
    omega
  · have free : ∀ c ∈ lexeme.reverse, decide (c ≠ '\n') = true := by
      have none := count_eq_zero.1 (Nat.eq_zero_of_add_eq_zero_left noLag)
      simpa using fun c member (same : c = '\n') => none (same ▸ member)
    simp only [lineAndCol, Place.past, reverse_append, takeWhile_append_of_pos free, length_append,
      length_reverse]
    omega

theorem Place.Lags.skip (lags : place.Lags lag passed) (inComment : Bool) (text : List Char) :
    ∃ more, text = more ++ (place.skip inComment text).2 ∧
      (place.skip inComment text).1.Lags lag (passed ++ more) := by
  induction text generalizing inComment place passed with
  | nil => exact ⟨[], rfl, by rwa [append_nil]⟩
  | cons c rest ih =>
    have later (inComment : Bool) :
        ∃ more, c :: rest = more ++ ((place.next c).skip inComment rest).2 ∧
        ((place.next c).skip inComment rest).1.Lags lag (passed ++ more) := by
      obtain ⟨more, shape, stays⟩ := ih (lags.next c) inComment
      exact ⟨c :: more, congrArg (c :: ·) shape, by simpa using stays⟩
    unfold Place.skip
    split_ifs <;> first | exact later _ | exact ⟨[], rfl, by rwa [append_nil]⟩

theorem Place.le_skip (place : Place) (inComment : Bool) (text : List Char) :
    place.Le (place.skip inComment text).1 := by
  induction text generalizing inComment place with
  | nil => exact .inr ⟨rfl, le_rfl⟩
  | cons c rest ih =>
    have later (inComment : Bool) : place.Le ((place.next c).skip inComment rest).1 := by
      have le := ih (place.next c) inComment
      simp only [Place.Le, Place.next] at *
      split_ifs at * <;> simp only at * <;> omega
    unfold Place.skip
    split_ifs <;> first | exact later _ | exact .inr ⟨rfl, le_rfl⟩

end Lags

/-- Each token lags by the line ends inside the tokens before it. -/
theorem lags_tokensFrom (place : Place) (text : List Char) : ∀ {lag passed},
    place.Lags lag passed → ∀ {before after token},
      tokensFrom place text = before ++ token :: after →
      ∃ front, front <+: passed ++ text ∧ token.place.Lags (lag + lineEnds before) front := by
  fun_induction tokensFrom place text with
  | case1 place text here skipped =>
    intro lag passed lags before after token found
    obtain ⟨more, shape, stays⟩ := lags.skip false text
    rw [skipped, append_nil] at shape
    rw [skipped] at stays
    cases before with
    | nil =>
      cases found
      exact ⟨passed ++ more, shape ▸ prefix_rfl, stays⟩
    | cons => simp at found
  | case2 place text here c rest skipped =>
    rename_i lexeme ih
    intro lag passed lags before after token found
    obtain ⟨more, shape, stays⟩ := lags.skip false text
    obtain ⟨inner, isText, tiles⟩ : Tiles c rest lexeme := tiles_read c rest
    rw [skipped] at shape stays
    have whole : text = more ++ lexeme.text ++ lexeme.rest := by
      rw [shape, isText, append_assoc, cons_append, ← tiles]
    cases before with
    | nil =>
      cases found
      exact ⟨passed ++ more, ⟨c :: rest, by rw [shape, append_assoc]⟩, stays⟩
    | cons first before =>
      obtain ⟨same, others⟩ := cons.inj found
      subst same
      obtain ⟨front, isFront, stands⟩ := ih (stays.past lexeme.text) others
      refine ⟨front, ?_, ?_⟩
      · rwa [whole, ← append_assoc, ← append_assoc]
      · rw [Nat.add_assoc] at stands
        simpa [lineEnds, Place.token, count_append] using stands

theorem precedes_tokensFrom (place : Place) (text : List Char) :
    (∀ token ∈ tokensFrom place text, place.Le token.place) ∧
      (tokensFrom place text).Pairwise Token.Precedes := by
  fun_induction tokensFrom place text with
  | case1 place text here skipped =>
    have le := place.le_skip false text
    rw [skipped] at le
    exact ⟨forall_mem_singleton.2 le, pairwise_singleton _ _⟩
  | case2 place text here c rest skipped lexeme ih =>
    obtain ⟨inner, isText, _⟩ : Tiles c rest lexeme := tiles_read c rest
    have le := place.le_skip false text
    rw [skipped] at le
    have behind {token : Token} (further : (here.past lexeme.text.length).Le token.place) :
        place.Le token.place ∧ (here.token lexeme).Precedes token := by
      rw [isText, length_cons] at further
      simp only [Place.Le, Token.Precedes, Place.past, Token.place, Place.token] at *
      omega
    refine ⟨forall_mem_cons.2 ⟨le, fun token member => (behind (ih.1 token member)).1⟩, ?_⟩
    exact pairwise_cons.2 ⟨fun token member => (behind (ih.1 token member)).2, ih.2⟩

/--
The line and the column of a token are those of the text before it, unless a token before it holds
a line end.  Places increase in any case, so no two tokens have the same.
-/
theorem scan_places (source : String) :
    (∀ before token after, scan source = before ++ token :: after →
      ((token.line, token.col) = lineAndCol (source.toList.take token.start) ↔
        ∀ earlier ∈ before, '\n' ∉ earlier.lexeme.toList)) ∧
    (scan source).Pairwise fun first second => first.line < second.line ∨
      first.line = second.line ∧ first.col < second.col := by
  refine ⟨fun before token after found => ?_, (precedes_tokensFrom _ _).2⟩
  have begins : origin.Lags 0 [] := ⟨rfl, rfl, fun _ => rfl⟩
  obtain ⟨front, isPrefix, start, line, col⟩ := lags_tokensFrom _ _ begins found
  have isFront : source.toList.take token.start = front := by
    have effective : effectiveText source <+: source.toList := takeWhile_prefix _
    have whole := isPrefix.trans effective
    rw [show token.start = front.length from start, ← prefix_iff_eq_take.1 whole]
  rw [isFront, Nat.zero_add] at *
  have unbroken : (∀ earlier ∈ before, '\n' ∉ earlier.lexeme.toList) ↔ lineEnds before = 0 := by
    simp [lineEnds, count_eq_zero]
  rw [unbroken]
  constructor
  · intro same
    have sameLine : token.line = _ := congrArg Prod.fst same
    rw [line] at sameLine
    exact (Nat.add_eq_left.1 sameLine.symm)
  · intro none
    rw [Prod.ext_iff, line, col none, none]
    exact ⟨rfl, rfl⟩

/-! ## Lexemes with spaces between them -/

theorem tokensFrom_ne_nil (place : Place) (text : List Char) : tokensFrom place text ≠ [] := by
  obtain ⟨_, _, isScan, _⟩ := tiled_tokensFrom place text
  simp [isScan]

def Token.content (token : Token) : TokenKind × String × Option String :=
  (token.kind, token.lexeme, token.problem)

theorem Token.tail_spaced (tokens : List Token) :
    (spaced tokens).tail = intercalate [' '] (tokens.map (·.lexeme.toList)) := by
  induction tokens with
  | nil => rfl
  | cons token tokens ih =>
    cases tokens with
    | nil => simp [spaced]
    | cons next tokens =>
      rw [map_cons, map_cons, intercalate_cons_cons,
        ← map_cons (f := fun token : Token => token.lexeme.toList), ← ih]
      simp [spaced]

theorem content_respaced (place : Place) (text : List Char) : ∀ there : Place,
    (tokensFrom there (Token.spaced (tokensFrom place text).dropLast).tail).map Token.content =
      (tokensFrom place text).map Token.content := by
  fun_induction tokensFrom place text with
  | case1 place text here skipped =>
    intro there
    rw [tokensFrom]
    rfl
  | case2 place text here c rest skipped =>
    rename_i lexeme ih
    intro there
    obtain ⟨inner, isText, again⟩ : Again c lexeme := again_read c rest
    generalize isOthers : tokensFrom (here.past lexeme.text.length) lexeme.rest = others at ih ⊢
    have found := again (Token.spaced others.dropLast) (Token.gap_spaced _) fun ends => by
      rw [ends, tokensFrom] at isOthers
      rw [← isOthers]
      rfl
    rw [dropLast_cons_of_ne_nil (isOthers ▸ tokensFrom_ne_nil _ _), Token.spaced, tail_cons,
      Place.token, String.toList_ofList, isText, cons_append,
      tokensFrom_read there (skip_noBlank skipped) isText (Token.gap_spaced _) found,
      map_cons, map_cons]
    refine congrArg₂ _ (by simp [Token.content, Place.token, isText]) ?_
    obtain ⟨behind, moved⟩ := tokensFrom_spaced (there.past lexeme.text.length) others.dropLast
    rw [← ih behind, ← moved]

/-- The tokens of a text, with a space between each two of them, are read as the same again. -/
theorem scan_respaced (source : String) :
    (scan (String.ofList
      (List.intercalate [' '] ((scan source).dropLast.map (·.lexeme.toList))))).map
      Token.content = (scan source).map Token.content := by
  obtain ⟨found, last, isScan, tiled, _⟩ := tiled_tokensFrom .origin (effectiveText source)
  have free : Char.ofNat 0 ∉ Token.spaced found := by
    refine Token.nul_notMem_spaced fun token member isInside => ?_
    obtain ⟨_, before, after, shape, _⟩ := tiled.slice token member
    have inText : Char.ofNat 0 ∈ effectiveText source := by simp [shape, isInside]
    simpa using mem_takeWhile_imp inText
  have respaced := content_respaced .origin (effectiveText source) .origin
  have isFound : (scan source).dropLast = found := by rw [scan, isScan, dropLast_concat]
  rw [isScan, dropLast_concat, ← isScan] at respaced
  rw [isFound, scan, ← Token.tail_spaced,
    effectiveText_of_free fun isInside => free (mem_of_mem_tail isInside), respaced, scan]

/-! ## Moved places -/

/-- A place so many lines and characters further down. -/
def Place.shift (lines offset : Nat) (place : Place) : Place :=
  ⟨place.line + lines, place.col, place.start + offset⟩

def Token.shift (lines offset : Nat) (token : Token) : Token :=
  { token with line := token.line + lines, start := token.start + offset }

theorem Place.skip_shift (lines offset : Nat) (inComment : Bool) (place : Place)
    (text : List Char) : (place.shift lines offset).skip inComment text =
      ((place.skip inComment text).1.shift lines offset, (place.skip inComment text).2) := by
  induction text generalizing inComment place with
  | nil => rfl
  | cons c rest ih =>
    have next : (place.shift lines offset).next c = (place.next c).shift lines offset := by
      unfold next
      split <;> simp [shift, Nat.add_right_comm]
    unfold skip
    rw [next]
    split_ifs <;> first | exact ih _ _ | rfl

theorem tokensFrom_shift (lines offset : Nat) (place : Place) (text : List Char) :
    tokensFrom (place.shift lines offset) text =
      (tokensFrom place text).map (Token.shift lines offset) := by
  fun_induction tokensFrom place text with
  | case1 place text here skipped =>
    rw [tokensFrom, skip_shift, skipped]
    rfl
  | case2 place text here c rest skipped lexeme ih =>
    have past : (here.shift lines offset).past lexeme.text.length =
        (here.past lexeme.text.length).shift lines offset := by
      simp [past, shift, Nat.add_right_comm]
    rw [tokensFrom, skip_shift, skipped, map_cons, ← ih, ← past]
    rfl

/-! ## Lines -/

theorem Place.line_skip (inComment : Bool) (place : Place) (unbroken : '\n' ∉ line) :
    (place.skip inComment line).1.line = place.line := by
  induction line generalizing inComment place with
  | nil => rfl
  | cons c rest ih =>
    rw [mem_cons, not_or] at unbroken
    have next : (place.next c).line = place.line := by
      rw [next, if_neg (Ne.symm unbroken.1)]
    have later (inComment : Bool) := ih inComment (place.next c) unbroken.2
    rw [next] at later
    unfold skip
    split_ifs <;> first | exact later _ | rfl

def Place.below (place : Place) (line : List Char) : Place :=
  ⟨place.line + 1, 1, place.start + line.length + 1⟩

theorem Place.skip_line (inComment : Bool) (place : Place) (unbroken : '\n' ∉ line) :
    place.skip inComment (line ++ '\n' :: more) = match place.skip inComment line with
      | (_, []) => (place.below line).skip false more
      | (here, c :: rest) => (here, c :: (rest ++ '\n' :: more)) := by
  induction line generalizing inComment place with
  | nil => cases inComment <;> rfl
  | cons c rest ih =>
    rw [mem_cons, not_or] at unbroken
    have below : (place.next c).below rest = place.below (c :: rest) := by
      rw [next, if_neg (Ne.symm unbroken.1)]
      simp [below, Nat.add_assoc, Nat.add_comm 1]
    have later (inComment : Bool) := ih inComment (place.next c) unbroken.2
    rw [below] at later
    have opens : (rest ++ '\n' :: more).head? = some '/' ↔ rest.head? = some '/' := by
      cases rest <;> simp
    simp only [cons_append, skip, opens]
    split_ifs <;> first | exact later _ | rfl

theorem tokensFrom_line (place : Place) (unbroken : '\n' ∉ line)
    (inLines : ∀ token ∈ tokensFrom place (line ++ '\n' :: more), '\n' ∉ token.lexeme.toList) :
    tokensFrom place (line ++ '\n' :: more) =
      (tokensFrom place line).dropLast ++ tokensFrom (place.below line) more := by
  fun_induction tokensFrom place line with
  | case1 place line here skipped =>
    rw [tokensFrom, skip_line false place unbroken, skipped, tokensFrom.eq_def _ more]
    rfl
  | case2 place line here c rest skipped lexeme ih =>
    have stillUnbroken : '\n' ∉ rest := by
      intro member
      have suffix := skip_suffix false place line
      rw [skipped] at suffix
      exact unbroken (suffix.subset (mem_cons_of_mem c member))
    obtain ⟨_, isText, tiles⟩ := tiles_read c rest
    have unfolded : tokensFrom place (line ++ '\n' :: more) =
        here.token (read c (rest ++ '\n' :: more)) ::
          tokensFrom (here.past (read c (rest ++ '\n' :: more)).text.length)
            (read c (rest ++ '\n' :: more)).rest := by
      rw [tokensFrom, skip_line false place unbroken, skipped]
    rw [unfolded, forall_mem_cons] at inLines
    rcases read_parted (.inr rfl) c rest more with same | ⟨_, beyond⟩
    · rw [same] at unfolded inLines
      have below : (here.past lexeme.text.length).below lexeme.rest = place.below line := by
        have start := place.start_skip false line
        have isLine := line_skip false place unbroken
        have parts := congrArg List.length tiles
        rw [skipped] at start isLine
        simp only [Place.below, Place.past, isText, length_cons, length_append, lexeme,
          Place.mk.injEq, true_and] at start parts isLine ⊢
        omega
      rw [unfolded, dropLast_cons_of_ne_nil (tokensFrom_ne_nil _ _), ← below]
      refine congrArg _ (ih (fun member => stillUnbroken ?_) inLines.2)
      rw [tiles]
      exact mem_append_right _ member
    · rw [Place.token, String.toList_ofList] at inLines
      exact absurd beyond inLines.1

/-- The tokens of the lines of a text, from a row on, each scanned as the editor does it. -/
def rowTokens (row offset : Nat) : List (List Char) → List Token
  | [] => []
  | line :: lines => (Editor.scanLine row line).map (Token.shift 0 offset) ++
      rowTokens (row + 1) (offset + line.length + 1) lines

theorem tokensFrom_lines (row offset : Nat) (lines : List (List Char))
    (noNul : ∀ line ∈ lines, Char.ofNat 0 ∉ line) (unbroken : ∀ line ∈ lines, '\n' ∉ line)
    (inLines : ∀ token ∈ tokensFrom ⟨row + 1, 1, offset⟩ (intercalate ['\n'] lines),
      '\n' ∉ token.lexeme.toList) :
    (tokensFrom ⟨row + 1, 1, offset⟩ (intercalate ['\n'] lines)).dropLast =
      rowTokens row offset lines := by
  induction lines generalizing row offset with
  | nil =>
    rw [tokensFrom]
    rfl
  | cons line lines ih =>
    rw [forall_mem_cons] at noNul unbroken
    have scanned : (tokensFrom ⟨row + 1, 1, offset⟩ line).dropLast =
        (Editor.scanLine row line).map (Token.shift 0 offset) := by
      have shifted := tokensFrom_shift 0 offset ⟨row + 1, 1, 0⟩ line
      rw [shift, Nat.zero_add] at shifted
      have whole := effectiveText_of_free noNul.1
      rw [effectiveText, String.toList_ofList] at whole
      rw [Editor.scanLine, whole, map_dropLast, ← shifted]
    cases lines with
    | nil => rw [intercalate_singleton, scanned, rowTokens, rowTokens, append_nil]
    | cons next lines =>
      rw [intercalate_cons_cons, append_assoc, singleton_append] at inLines ⊢
      have split := tokensFrom_line _ unbroken.1 inLines
      rw [split] at inLines ⊢
      rw [dropLast_append_of_ne_nil (tokensFrom_ne_nil _ _), scanned]
      refine congrArg _ (ih (row + 1) _ noNul.2 unbroken.2 fun token member => ?_)
      exact inLines token (mem_append_right _ member)

theorem nul_notMem_lines (noNul : ∀ line ∈ lines, Char.ofNat 0 ∉ line) :
    Char.ofNat 0 ∉ intercalate ['\n'] lines := by
  induction lines with
  | nil => simp
  | cons line lines ih =>
    rw [forall_mem_cons] at noNul
    cases lines with
    | nil => simpa using noNul.1
    | cons next lines =>
      rw [intercalate_cons_cons, mem_append, mem_append, not_or, not_or]
      exact ⟨⟨noNul.1, by decide⟩, ih noNul.2⟩

/-- A text is scanned as its lines are, unless a token holds a line end. -/
theorem scan_lines (lines : List (List Char)) (noNul : ∀ line ∈ lines, Char.ofNat 0 ∉ line)
    (unbroken : ∀ line ∈ lines, '\n' ∉ line)
    (inLines : ∀ token ∈ scan (String.ofList (List.intercalate ['\n'] lines)),
      '\n' ∉ token.lexeme.toList) :
    (scan (String.ofList (List.intercalate ['\n'] lines))).dropLast = rowTokens 0 0 lines := by
  rw [scan, effectiveText_of_free (nul_notMem_lines noNul)] at inLines ⊢
  exact tokensFrom_lines 0 0 lines noNul unbroken inLines

/-- A number with a point, a mark that could go on, and a quote in a comment. -/
theorem scan_lines_marks : (scan "1.\nx >\n= // '\n1").dropLast =
      rowTokens 0 0 ["1.".toList, "x >".toList, "= // '".toList, "1".toList] := by
  have joined : String.ofList (List.intercalate ['\n']
      ["1.".toList, "x >".toList, "= // '".toList, "1".toList]) = "1.\nx >\n= // '\n1" := by
    decide +kernel
  rw [← joined]
  refine scan_lines _ ?_ ?_ ?_ <;> decide +kernel

end NodeFormula
