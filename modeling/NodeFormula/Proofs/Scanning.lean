import NodeFormula.Token.Scan
import Mathlib.Data.List.TakeWhile

/-!
# Lexemes that stand alone

What follows a lexeme decides where it ends, but a space or a line end says no more than the end
of the text, except for a text that lacks its closing quote and a calculation with open
parentheses.  So a lexeme can be written with blanks around it and is read again as the same
token.
-/

namespace NodeFormula

open List NodeFormula.Text

variable {kind : TokenKind} {after text rest : List Char}

variable {inner : List Char}

/-- The end of a text, or a space. -/
def Gap (text : List Char) : Prop := ∀ c ∈ text.head?, c = ' '

abbrev TokenKind.Ordinary (kind : TokenKind) : Prop := kind ≠ .endOfText ∧ kind ≠ .calculation

namespace Lexeme

def isQuote (c : Char) : Bool := c = '\'' || c = '"'

theorem opensText_eq (text : List Char) :
    (decide (text.head? = some '\'') || decide (text.head? = some '"')) =
      text.head?.any isQuote := by
  cases text with
  | nil => rfl
  | cons c text => simp [isQuote]

/-! ## Lexemes in front of blanks -/

def before (lexeme : Lexeme) (after : List Char) : Lexeme :=
  { lexeme with rest := lexeme.rest ++ after }

/--
In front of a blank a lexeme is the same, unless it is a calculation or lacks its closing quote, and
goes on beyond the blank.
-/
def Parted (d : Char) (more : List Char) (lexeme later : Lexeme) : Prop :=
  later = lexeme.before (d :: more) ∨
    (lexeme.kind = .error ∨ lexeme.kind = .calculation) ∧ d ∈ later.text

theorem takeWhile_parted (fails : p d = false) (rest more : List Char) :
    (rest ++ d :: more).takeWhile p = rest.takeWhile p ∧
      (rest ++ d :: more).dropWhile p = rest.dropWhile p ++ d :: more := by
  induction rest with
  | nil => simp [fails]
  | cons c rest ih => by_cases holds : p c <;> simp [holds, ih]

theorem head_parted (fails : p d = false) (rest more : List Char) :
    (rest ++ d :: more).head?.any p = rest.head?.any p := by
  cases rest <;> simp [fails]

theorem balanced_parted (depth : Nat) (rest more : List Char) : balanced depth (rest ++ d :: more) =
        ((balanced depth rest).1, (balanced depth rest).2 ++ d :: more) ∨
      d ∈ (balanced depth (rest ++ d :: more)).1 := by
  induction rest generalizing depth with
  | nil => cases depth <;> simp [balanced]
  | cons e rest ih =>
    cases depth with
    | zero => exact .inl rfl
    | succ depth =>
      rw [cons_append, balanced]
      rcases ih (if e = '(' then depth + 2 else if e = ')' then depth else depth + 1) with
        same | beyond
      · rw [same]
        exact .inl rfl
      · exact .inr (mem_cons_of_mem _ beyond)

theorem quotedText_parted (noQuote : d ≠ quote) (kind : TokenKind) (head rest more : List Char) :
    Parted d more (quotedText kind quote head rest)
      (quotedText kind quote head (rest ++ d :: more)) := by
  have tiles := takeWhile_append_dropWhile (p := (· ≠ quote)) (l := rest)
  cases shape : rest.dropWhile (· ≠ quote) with
  | nil =>
    rw [shape, append_nil, takeWhile_eq_self_iff] at tiles
    have beyond : d ∈ (rest ++ d :: more).takeWhile (· ≠ quote) := by
      rw [takeWhile_append_of_pos tiles]
      simp [noQuote]
    refine .inr ⟨.inl ?_, ?_⟩
    · rw [quotedText, shape]
      rfl
    · rw [quotedText]
      split
      · exact mem_append_right _ beyond
      · exact mem_append_left _ (mem_append_right _ beyond)
  | cons close after =>
    have dropped : (rest ++ d :: more).dropWhile (· ≠ quote) = close :: (after ++ d :: more) := by
      rw [dropWhile_append, shape]
      rfl
    have taken : (rest ++ d :: more).takeWhile (· ≠ quote) = rest.takeWhile (· ≠ quote) := by
      rw [takeWhile_append]
      rw [← length_append.symm.trans (congrArg length tiles), shape]
      simp
    rw [quotedText, quotedText, shape, dropped, taken]
    exact .inl rfl

theorem oneOrTwo_parted (noSecond : d ≠ second) (c : Char) (long short : TokenKind)
    (rest more : List Char) : oneOrTwo c second long short (rest ++ d :: more) =
      (oneOrTwo c second long short rest).before (d :: more) := by
  cases rest with
  | nil =>
    rw [nil_append, oneOrTwo, if_neg noSecond]
    rfl
  | cons e rest =>
    rw [cons_append, oneOrTwo, oneOrTwo]
    split <;> rfl

theorem calculation_of_name (plain : text.head? ≠ some '(') : calculation text =
    ok .calculation ('#' :: text.takeWhile continuesName) (text.dropWhile continuesName) := by
  unfold calculation
  split
  · exact absurd rfl plain
  · rfl

section Parted

variable (parts : d = ' ' ∨ d = '\n') (c : Char) (rest more : List Char)
include parts

theorem continuesName_parting : continuesName d = false := by
  rcases parts with rfl | rfl <;> decide

theorem isDigit_parting : isDigit d = false := by
  rcases parts with rfl | rfl <;> decide

theorem isLetter_parting : isLetter d = false := by
  rcases parts with rfl | rfl <;> decide

theorem name_parted : name c (rest ++ d :: more) = (name c rest).before (d :: more) := by
  obtain ⟨taken, dropped⟩ := takeWhile_parted (continuesName_parting parts) rest more
  rw [name, taken, dropped]
  rfl

theorem places_parted (head : List Char) :
    places head (rest ++ d :: more) = (places head rest).before (d :: more) := by
  obtain ⟨taken, dropped⟩ := takeWhile_parted (isDigit_parting parts) rest more
  rw [places, taken, dropped]
  rfl

theorem number_parted : number c (rest ++ d :: more) = (number c rest).before (d :: more) := by
  obtain ⟨taken, dropped⟩ := takeWhile_parted (isDigit_parting parts) rest more
  rw [number, number, taken, dropped]
  cases rest.dropWhile isDigit with
  | nil => rcases parts with rfl | rfl <;> rfl
  | cons e after =>
    by_cases point : e = '.'
    · subst point
      simp only [cons_append, head_parted (isLetter_parting parts)]
      split
      · rfl
      · exact places_parted parts _ _ _
    · grind [before, ok]

theorem calculation_parted :
    Parted d more (calculation rest) (calculation (rest ++ d :: more)) := by
  obtain ⟨taken, dropped⟩ := takeWhile_parted (continuesName_parting parts) rest more
  by_cases opens : rest.head? = some '('
  · obtain ⟨after, rfl⟩ := head?_eq_some_iff.1 opens
    rcases balanced_parted (d := d) 1 after more with same | beyond
    · refine .inl ?_
      rw [cons_append, calculation, same]
      rfl
    · refine .inr ⟨.inr rfl, ?_⟩
      exact mem_cons_of_mem _ (mem_cons_of_mem _ beyond)
  · have plain : (rest ++ d :: more).head? ≠ some '(' := by
      rcases parts with rfl | rfl <;> cases rest <;> simp_all
    rw [calculation_of_name opens, calculation_of_name plain, taken, dropped]
    exact .inl rfl

theorem mark_parted : Parted d more (mark c rest) (mark c (rest ++ d :: more)) := by
  have other (second : Char) (noBlank : second ≠ ' ' ∧ second ≠ '\n') : d ≠ second := by
    rcases parts with rfl | rfl
    · exact noBlank.1.symm
    · exact noBlank.2.symm
  unfold mark
  split
  case h_14 | h_15 | h_16 | h_17 | h_18 =>
    exact .inl (oneOrTwo_parted (other _ (by decide)) _ _ _ _ _)
  case h_19 =>
    simp only [head_parted (isDigit_parting parts)]
    split
    · exact .inl (places_parted parts _ _ _)
    · exact .inl rfl
  case h_20 =>
    cases rest with
    | nil => rcases parts with rfl | rfl <;> exact .inl rfl
    | cons e rest =>
      by_cases same : e = '='
      · subst same
        exact .inl rfl
      · grind [before, wrong, Parted]
  case h_21 => exact calculation_parted parts rest more
  case h_22 | h_23 => exact quotedText_parted (other _ (by decide)) _ _ _ _
  all_goals exact .inl rfl

theorem read_parted : Parted d more (read c rest) (read c (rest ++ d :: more)) := by
  have noQuote : isQuote d = false := by rcases parts with rfl | rfl <;> decide
  unfold read
  split
  · exact .inl rfl
  rw [head_parted (continuesName_parting parts), opensText_eq, opensText_eq, head_parted noQuote]
  split
  · split
    · exact .inl (name_parted parts c rest more)
    · exact .inl rfl
  split
  · rename_i group
    cases rest with
    | nil => simp at group
    | cons quote rest =>
      refine quotedText_parted ?_ .groupName _ rest more
      rintro rfl
      simp [noQuote] at group
  split
  · exact .inl (name_parted parts c rest more)
  split
  · exact .inl (number_parted parts c rest more)
  · exact mark_parted parts c rest more

end Parted

/-! ## Lexemes that stand alone -/

/-- A lexeme that is read the same way in front of every gap. -/
def Stable (kind : TokenKind) (c : Char) (rest : List Char) : Prop :=
  ∀ after, Gap after → read c (rest ++ after) = ok kind (c :: rest) after

theorem Stable.of_alone (alone : read c inner = ok kind (c :: inner) []) (noError : kind ≠ .error)
    (ordinary : kind.Ordinary) : Stable kind c inner := by
  intro after gap
  cases after with
  | nil => rwa [append_nil]
  | cons d more =>
    rcases read_parted (.inl (gap d rfl)) c inner more with same | ⟨isOpen, _⟩
    · rw [same, alone]
      rfl
    · rw [alone] at isOpen
      exact absurd isOpen (not_or.2 ⟨noError, ordinary.2⟩)

theorem span_takeWhile (rest : List Char) :
    (rest.takeWhile p).takeWhile p = rest.takeWhile p ∧ (rest.takeWhile p).dropWhile p = [] := by
  have holds : ∀ c ∈ rest.takeWhile p, p c = true := fun c => mem_takeWhile_imp
  exact ⟨takeWhile_eq_self_iff.2 holds, dropWhile_eq_nil_iff.2 holds⟩

theorem head_takeWhile (starts : rest.head?.any q = false) :
    (rest.takeWhile p).head?.any q = false := by
  cases rest with
  | nil => rfl
  | cons c rest =>
    rw [head?_cons] at starts
    by_cases holds : p c <;> simp [holds, starts]

theorem read_name (ascii : c.toNat < 128) (starts : c = '_' ∧ rest.head?.any continuesName = true ∨
      c ≠ '_' ∧ isLetter c = true ∧ (c = 'n' → rest.head?.any isQuote = false)) :
    read c (rest.takeWhile continuesName) = ok (nameKind (c :: rest.takeWhile continuesName))
      (c :: rest.takeWhile continuesName) [] := by
  have named : name c (rest.takeWhile continuesName) =
      ok (nameKind (c :: rest.takeWhile continuesName)) (c :: rest.takeWhile continuesName) [] := by
    rw [name, (span_takeWhile rest).1, (span_takeWhile rest).2]
  unfold read
  rw [if_neg (by omega)]
  rcases starts with ⟨isLine, continues⟩ | ⟨noLine, isLetter, noGroup⟩
  · have stillContinues : (rest.takeWhile continuesName).head?.any continuesName = true := by
      cases rest with
      | nil => cases continues
      | cons d rest =>
        have holds : continuesName d = true := continues
        rw [takeWhile_cons, if_pos holds]
        exact holds
    rw [if_pos isLine, if_pos stillContinues, named]
  · have stillNoGroup : ¬(c = 'n' && (rest.takeWhile continuesName).head?.any isQuote) = true := by
      intro group
      rw [Bool.and_eq_true, decide_eq_true_eq] at group
      rw [head_takeWhile (noGroup group.1)] at group
      exact absurd group.2 (by decide)
    rw [if_neg noLine, opensText_eq, if_neg stillNoGroup, if_pos isLetter, named]

theorem quotedText_of_free (kind : TokenKind) (head : List Char) (free : quote ∉ inside)
    (after : List Char) : quotedText kind quote head (inside ++ quote :: after) =
      ok kind (head ++ inside ++ [quote]) after := by
  have passes : ∀ c ∈ inside, (decide (c ≠ quote)) = true := by
    intro c member
    rw [decide_eq_true_eq]
    rintro rfl
    exact free member
  rw [quotedText, takeWhile_append_of_pos passes, dropWhile_append_of_pos passes,
    takeWhile_cons_of_neg (by simp), dropWhile_cons_of_neg (by simp), append_nil]

theorem stable_text (isQuote : isQuote quote = true) (free : quote ∉ inside) :
    Stable .text quote (inside ++ [quote]) := by
  intro after gap
  have quoted := quotedText_of_free .text [quote] free after
  rw [Lexeme.isQuote, Bool.or_eq_true, decide_eq_true_eq, decide_eq_true_eq] at isQuote
  rw [append_assoc]
  rcases isQuote with rfl | rfl
  · exact quoted
  · exact quoted

theorem stable_groupName (isQuote : isQuote quote = true) (free : quote ∉ inside) :
    Stable .groupName 'n' (quote :: inside ++ [quote]) := by
  intro after gap
  have quoted := quotedText_of_free .groupName ['n', quote] free after
  rw [Lexeme.isQuote, Bool.or_eq_true, decide_eq_true_eq, decide_eq_true_eq] at isQuote
  rw [append_assoc]
  rcases isQuote with rfl | rfl
  · exact quoted
  · exact quoted

theorem number_of_digit (ascii : c.toNat < 128) (isDigit : isDigit c = true) (rest : List Char) :
    read c rest = number c rest := by
  have noLine : c ≠ '_' := by
    rintro rfl
    exact absurd isDigit (by decide)
  have noGroup : c ≠ 'n' := by
    rintro rfl
    exact absurd isDigit (by decide)
  have noLetter : isLetter c = false := by
    unfold Text.isDigit at isDigit
    unfold isLetter
    rw [if_pos ascii] at isDigit ⊢
    change (decide (c.val ≥ 'A'.val ∧ c.val ≤ 'Z'.val) ||
      (decide (c.val ≥ 'a'.val) && decide (c.val ≤ 'z'.val))) = false
    simp only [Char.isDigit, Bool.and_eq_true,
      decide_eq_true_eq, Bool.or_eq_false_iff, Bool.and_eq_false_iff, decide_eq_false_iff_not,
      UInt32.le_iff_toNat_le, ge_iff_le, Char.reduceVal, UInt32.reduceToNat] at isDigit ⊢
    omega
  unfold read
  rw [if_neg (by omega), if_neg noLine, if_neg (by simp [noGroup]), if_neg (by simp [noLetter]),
    if_pos isDigit]

theorem stable_int (text : List Char) (ascii : c.toNat < 128) (digit : isDigit c = true) :
    Stable .int c (text.takeWhile isDigit) := by
  refine .of_alone ?_ (by decide) (by decide)
  rw [number_of_digit ascii digit, number, (span_takeWhile text).1, (span_takeWhile text).2]

theorem read_float (whole : List Char) (ascii : c.toNat < 128) (digit : isDigit c = true)
    (noName : text.head?.any isLetter = false) :
    read c (whole.takeWhile isDigit ++ '.' :: text.takeWhile isDigit) =
      ok .float (c :: (whole.takeWhile isDigit ++ '.' :: text.takeWhile isDigit)) [] := by
  have passes : ∀ d ∈ whole.takeWhile isDigit, isDigit d = true := fun d => mem_takeWhile_imp
  rw [number_of_digit ascii digit, number, takeWhile_append_of_pos passes,
    dropWhile_append_of_pos passes, takeWhile_cons_of_neg (by decide),
    dropWhile_cons_of_neg (by decide)]
  simp only [head_takeWhile noName]
  rw [places, (span_takeWhile text).1, (span_takeWhile text).2]
  simp

/-! ## Reading a lexeme again -/

/--
A lexeme is cut off a text, and is the same in front of every gap, if it is a token of the language.
-/
def Cut (c : Char) (rest : List Char) (lexeme : Lexeme) : Prop :=
  ∃ inner, lexeme.text = c :: inner ∧ rest = inner ++ lexeme.rest ∧ (lexeme.kind = .error ∨
      lexeme.problem = none ∧ lexeme.kind.Ordinary ∧ Stable lexeme.kind c inner)

/-- A lexeme is read again alone, and in front of a gap if it was not the last one. -/
def Again (c : Char) (lexeme : Lexeme) : Prop :=
  ∃ inner, lexeme.text = c :: inner ∧ ∀ after, Gap after → (lexeme.rest = [] → after = []) →
    read c (inner ++ after) = { lexeme with rest := after }

/-- An error, or a lexeme that is read in the same way if nothing follows it. -/
def Sound (c : Char) (lexeme : Lexeme) : Prop :=
  lexeme.kind = .error ∧ Again c lexeme ∨ ∃ kind inner after,
    lexeme = ok kind (c :: inner) after ∧ (kind ≠ .error ∧ kind.Ordinary) ∧
      read c inner = ok kind (c :: inner) []

theorem ordinary_nameKind (name : List Char) :
    nameKind name ≠ .error ∧ (nameKind name).Ordinary := by
  unfold nameKind
  repeat' split
  all_goals decide

theorem sound_number (ascii : c.toNat < 128) (digit : isDigit c = true) :
    Sound c (number c rest) := by
  have whole := stable_int rest ascii digit [] nofun
  rw [append_nil] at whole
  unfold number
  split
  · rename_i after _
    split
    · exact .inr ⟨_, _, _, rfl, by decide, whole⟩
    · rename_i noName
      refine .inr ⟨.float, _, after.dropWhile isDigit, ?_, by decide,
        read_float rest ascii digit (by simpa using noName)⟩
      simp [places]
  · exact .inr ⟨_, _, _, rfl, by decide, whole⟩

theorem dropWhile_ne (shape : text.dropWhile (· ≠ quote) = d :: after) : d = quote := by
  have stops := head?_dropWhile_not (fun c => decide (c ≠ quote)) text
  rw [shape] at stops
  simpa using stops

theorem sound_quotedText (start : List Char) (ordinary : kind ≠ .error ∧ kind.Ordinary)
    (opens : ∀ text, read c (start ++ text) = quotedText kind quote (c :: start) text) :
    Sound c (quotedText kind quote (c :: start) rest) := by
  have free : quote ∉ rest.takeWhile (· ≠ quote) := by
    intro member
    simpa using mem_takeWhile_imp member
  cases shape : rest.dropWhile (· ≠ quote) with
  | nil =>
    rw [quotedText, shape]
    refine .inl ⟨rfl, start ++ rest.takeWhile (· ≠ quote), rfl, fun after _ ends => ?_⟩
    rw [ends rfl, append_nil, opens, quotedText, (span_takeWhile rest).1, (span_takeWhile rest).2]
    rfl
  | cons close after =>
    cases dropWhile_ne shape
    refine .inr ⟨kind, start ++ rest.takeWhile (· ≠ quote) ++ [quote], after, ?_, ordinary, ?_⟩
    · rw [quotedText, shape]
      simp
    · rw [append_assoc, opens, quotedText_of_free kind _ free]
      simp

theorem sound_oneOrTwo (ordinaryLong : long ≠ .error ∧ long.Ordinary)
    (ordinaryShort : short ≠ .error ∧ short.Ordinary)
    (two : read c [second] = ok long [c, second] []) (one : read c [] = ok short [c] []) :
    Sound c (oneOrTwo c second long short rest) := by
  unfold oneOrTwo
  split
  · split
    · exact .inr ⟨long, [second], _, rfl, ordinaryLong, two⟩
    · exact .inr ⟨short, [], _, rfl, ordinaryShort, one⟩
  · exact .inr ⟨short, [], _, rfl, ordinaryShort, one⟩

theorem sound_mark (noCalculation : c ≠ '#') (reads : ∀ text, read c text = mark c text) :
    Sound c (mark c rest) := by
  unfold mark
  split
  case h_14 | h_15 | h_16 | h_17 | h_18 => exact sound_oneOrTwo (by decide) (by decide) rfl rfl
  case h_19 =>
    split
    · rename_i starts
      refine .inr ⟨.float, rest.takeWhile isDigit, _, rfl, by decide, ?_⟩
      have stillStarts : (rest.takeWhile isDigit).head?.any isDigit = true := by
        cases rest with
        | nil => cases starts
        | cons d rest =>
          have holds : isDigit d = true := starts
          rw [takeWhile_cons, if_pos holds]
          exact holds
      show mark '.' (rest.takeWhile isDigit) = _
      rw [mark, if_pos stillStarts, places, (span_takeWhile rest).1, (span_takeWhile rest).2]
      rfl
    · exact .inr ⟨.dot, [], _, rfl, by decide, rfl⟩
  case h_20 =>
    split
    · exact .inr ⟨.bangEqual, ['='], _, rfl, by decide, rfl⟩
    · refine .inl ⟨rfl, [], rfl, fun after gap _ => ?_⟩
      cases after with
      | nil => rfl
      | cons d after =>
        cases gap d rfl
        rfl
  case h_21 => exact absurd rfl noCalculation
  case h_22 | h_23 =>
    exact sound_quotedText [] (by decide) fun _ => rfl
  case h_24 =>
    refine .inl ⟨rfl, [], rfl, fun after _ _ => ?_⟩
    rw [reads]
    unfold mark
    split <;> first | contradiction | rfl
  all_goals exact .inr ⟨_, [], _, rfl, by decide, rfl⟩

theorem sound_read (noCalculation : c ≠ '#') : Sound c (read c rest) := by
  have named (ascii : c.toNat < 128) (starts : c = '_' ∧ rest.head?.any continuesName = true ∨
        c ≠ '_' ∧ isLetter c = true ∧ (c = 'n' → rest.head?.any isQuote = false)) :
      Sound c (name c rest) :=
    .inr ⟨_, _, _, rfl, ordinary_nameKind _, read_name ascii starts⟩
  unfold read
  split
  · rename_i isForeign
    exact .inl ⟨rfl, [], rfl, fun after _ _ => if_pos isForeign⟩
  have ascii : c.toNat < 128 := by omega
  rw [opensText_eq]
  split
  · rename_i isLine
    subst isLine
    split
    · rename_i continues
      exact named ascii (.inl ⟨rfl, continues⟩)
    · exact .inr ⟨.underscore, [], _, rfl, by decide, rfl⟩
  rename_i noLine
  split
  · rename_i group
    rw [Bool.and_eq_true, decide_eq_true_eq] at group
    obtain ⟨rfl, opens⟩ := group
    split
    · rename_i quote after
      refine sound_quotedText [quote] (by decide) fun text => ?_
      have isQuote : quote = '\'' ∨ quote = '"' := by simpa [isQuote] using opens
      rcases isQuote with rfl | rfl <;> rfl
    · cases opens
  rename_i noGroup
  split
  · rename_i isLetter
    refine named ascii (.inr ⟨noLine, isLetter, ?_⟩)
    rintro rfl
    simpa using noGroup
  split
  · rename_i digit
    exact sound_number ascii digit
  · rename_i noLetter noDigit
    refine sound_mark noCalculation fun text => ?_
    have noN : c ≠ 'n' := by
      rintro rfl
      exact noLetter (by decide)
    rw [read.eq_def, if_neg (by omega), if_neg noLine, if_neg (by simp [noN]), if_neg noLetter,
      if_neg noDigit]

theorem cut_read (noCalculation : c ≠ '#') : Cut c rest (read c rest) := by
  obtain ⟨inner, isText, tiles⟩ := tiles_read c rest
  refine ⟨inner, isText, tiles, ?_⟩
  rcases (sound_read noCalculation : Sound c (read c rest)) with
    ⟨isError, _⟩ | ⟨kind, _, _, same, ⟨noError, ordinary⟩, alone⟩
  · exact .inl isError
  · rw [same] at isText ⊢
    cases isText
    exact .inr ⟨rfl, ordinary, .of_alone alone noError ordinary⟩

theorem balanced_again (depth : Nat) (text after : List Char)
    (ends : (balanced depth text).2 = [] → after = []) :
    balanced depth ((balanced depth text).1 ++ after) = ((balanced depth text).1, after) := by
  induction text generalizing depth with
  | nil =>
    cases depth with
    | zero => simp [balanced]
    | succ depth => rw [balanced, ends rfl]; rfl
  | cons c text ih =>
    cases depth with
    | zero => simp [balanced]
    | succ depth => rw [balanced, cons_append, balanced, ih _ ends]

theorem takeWhile_gap (gap : Gap after) (text : List Char) :
    (text.takeWhile continuesName ++ after).takeWhile continuesName =
        text.takeWhile continuesName ∧
      (text.takeWhile continuesName ++ after).dropWhile continuesName = after := by
  cases after with
  | nil => simpa using span_takeWhile text
  | cons d more =>
    have fails : continuesName d = false := gap d rfl ▸ by decide
    obtain ⟨taken, dropped⟩ := takeWhile_parted fails (text.takeWhile continuesName) more
    rw [taken, dropped, (span_takeWhile text).1, (span_takeWhile text).2]
    exact ⟨rfl, rfl⟩

theorem again_calculation (rest : List Char) : Again '#' (calculation rest) := by
  by_cases opens : rest.head? = some '('
  · obtain ⟨text, rfl⟩ := head?_eq_some_iff.1 opens
    refine ⟨'(' :: (balanced 1 text).1, rfl, fun after _ ends => ?_⟩
    show calculation ('(' :: ((balanced 1 text).1 ++ after)) = _
    rw [calculation, balanced_again 1 text after ends]
    rfl
  · rw [calculation_of_name opens]
    refine ⟨rest.takeWhile continuesName, rfl, fun after gap _ => ?_⟩
    show calculation (rest.takeWhile continuesName ++ after) = _
    obtain ⟨taken, dropped⟩ := takeWhile_gap gap rest
    rw [calculation_of_name ?_, taken, dropped]
    · rfl
    · intro starts
      obtain ⟨more, shape⟩ := head?_eq_some_iff.1 starts
      rw [shape, dropWhile_cons_of_neg (by decide)] at dropped
      have isBlank := gap '(' (dropped ▸ rfl)
      exact absurd isBlank (by decide)

/-- Every lexeme is read again, alone or in front of a gap. -/
theorem again_read (c : Char) (rest : List Char) : Again c (read c rest) := by
  by_cases calculates : c = '#'
  · subst calculates
    exact again_calculation rest
  rcases (sound_read calculates : Sound c (read c rest)) with
    ⟨_, again⟩ | ⟨kind, inner, _, same, ⟨noError, ordinary⟩, alone⟩
  · exact again
  · rw [same]
    exact ⟨inner, rfl, fun after gap _ => Stable.of_alone alone noError ordinary after gap⟩

theorem kind_read_calculation (rest : List Char) :
    (read '#' rest).kind = .calculation := by
  have isMark : read '#' rest = calculation rest := rfl
  rw [isMark]
  unfold calculation
  split <;> rfl

theorem kind_read_ne_end (c : Char) (rest : List Char) : (read c rest).kind ≠ .endOfText := by
  by_cases calculates : c = '#'
  · rw [calculates, kind_read_calculation]
    decide
  · obtain ⟨_, _, _, isError | ⟨_, ordinary, _⟩⟩ := (cut_read calculates : Cut c rest _)
    · rw [isError]
      decide
    · exact ordinary.1

end Lexeme

/-! ## Words -/

namespace Token

variable {left right : Token}

def unplaced (token : Token) : Token := ⟨token.kind, token.lexeme, 0, 0, 0, none⟩

theorem unplaced_inj :
    left.unplaced = right.unplaced ↔ left.kind = right.kind ∧ left.lexeme = right.lexeme := by
  simp [unplaced]

/-- A token whose text is read as this token again, wherever it stands between gaps. -/
structure Solid (token : Token) : Prop where
  noError : token.kind ≠ .error
  ordinary : token.kind.Ordinary
  noNul : Char.ofNat 0 ∉ token.lexeme.toList
  stable : ∃ c inner, token.lexeme.toList = c :: inner ∧ isBlank c = false ∧
    Lexeme.Stable token.kind c inner

theorem Solid.of_unplaced (same : left.unplaced = right.unplaced) (solid : left.Solid) :
    right.Solid := by
  rw [unplaced_inj] at same
  obtain ⟨noError, ordinary, noNul, stable⟩ := solid
  rw [same.1] at noError ordinary stable
  rw [same.2] at noNul stable
  exact ⟨noError, ordinary, noNul, stable⟩

/-- Tokens as text, each after a space. -/
def spaced : List Token → List Char
  | [] => []
  | token :: tokens => ' ' :: (token.lexeme.toList ++ spaced tokens)

theorem gap_spaced (tokens : List Token) : Gap (spaced tokens) := by
  cases tokens with
  | nil => exact nofun
  | cons token tokens =>
    rintro c ⟨⟩
    rfl

def joined (tokens : List Token) : String := String.ofList (spaced tokens).tail

end Token

theorem Place.skip_word (place : Place) (noBlank : isBlank c = false)
    (isText : (Lexeme.read c rest).text = c :: inner) (gap : Gap after) :
    place.skip false (c :: (inner ++ after)) = (place, c :: (inner ++ after)) := by
  have noComment : ¬(c = '/' && (inner ++ after).head? = some '/') = true := by
    intro comment
    rw [Bool.and_eq_true, decide_eq_true_eq, decide_eq_true_eq] at comment
    obtain ⟨rfl, starts⟩ := comment
    -- A slash that is read is a lexeme of its own.
    obtain rfl : [] = inner := (cons.inj isText).2
    exact absurd (gap '/' starts) (by decide)
  rw [skip, if_neg (by simp), if_neg (by simp [noBlank]), if_neg noComment]

theorem tokensFrom_blank (place : Place) (text : List Char) :
    tokensFrom place (' ' :: text) = tokensFrom (place.next ' ') text := by
  have skipped : place.skip false (' ' :: text) = (place.next ' ').skip false text := by
    rw [Place.skip, if_neg (by simp), if_pos (by decide)]
  rw [tokensFrom, tokensFrom, skipped]

theorem tokensFrom_read (place : Place) (noBlank : isBlank c = false)
    (isText : (Lexeme.read c rest).text = c :: inner) (gap : Gap after)
    (found : Lexeme.read c (inner ++ after) = lexeme) : tokensFrom place (c :: (inner ++ after)) =
      place.token lexeme :: tokensFrom (place.past lexeme.text.length) lexeme.rest := by
  rw [tokensFrom, Place.skip_word place noBlank isText gap]
  simp only [found]

theorem tokensFrom_word {token : Token} (solid : token.Solid) (gap : Gap after) (place : Place) :
    ∃ first there, first.unplaced = token.unplaced ∧
      tokensFrom place (token.lexeme.toList ++ after) = first :: tokensFrom there after := by
  obtain ⟨c, inner, shape, noBlank, stable⟩ := solid.stable
  have isText : (Lexeme.read c (inner ++ [])).text = c :: inner := by
    rw [stable [] nofun]
    rfl
  refine ⟨place.token (.ok token.kind (c :: inner) after), place.past (c :: inner).length,
    ?_, ?_⟩
  · rw [Token.unplaced_inj, ← shape]
    exact ⟨rfl, String.ofList_toList⟩
  · rw [shape, cons_append, tokensFrom_read place noBlank isText gap (stable after gap)]
    rfl

theorem tokensFrom_spaced (place : Place) (tokens : List Token) : ∃ there,
    tokensFrom place (Token.spaced tokens) = tokensFrom there (Token.spaced tokens).tail := by
  cases tokens with
  | nil => exact ⟨place, rfl⟩
  | cons token tokens => exact ⟨place.next ' ', tokensFrom_blank place _⟩

theorem tokensFrom_words (solid : ∀ token ∈ tokens, token.Solid) (place : Place) :
    ∃ (found : List Token) (last : Token),
      tokensFrom place (Token.spaced tokens).tail = found ++ [last] ∧
      found.map Token.unplaced = tokens.map Token.unplaced ∧ last.kind = .endOfText := by
  induction tokens generalizing place with
  | nil =>
    refine ⟨[], place.endToken, ?_, rfl, rfl⟩
    rw [tokensFrom]
    rfl
  | cons token tokens ih =>
    rw [forall_mem_cons] at solid
    obtain ⟨first, there, same, starts⟩ := tokensFrom_word solid.1 (Token.gap_spaced tokens) place
    obtain ⟨behind, moved⟩ := tokensFrom_spaced there tokens
    obtain ⟨found, last, rest, sameRest, ends⟩ := ih solid.2 behind
    refine ⟨first :: found, last, ?_, by simp [same, sameRest], ends⟩
    rw [Token.spaced, tail_cons, starts, moved, rest]
    rfl

theorem effectiveText_of_free (free : Char.ofNat 0 ∉ text) :
    effectiveText (String.ofList text) = text := by
  rw [effectiveText, String.toList_ofList, takeWhile_eq_self_iff]
  intro c member
  rw [decide_eq_true_eq]
  rintro rfl
  exact free member

theorem Token.nul_notMem_spaced (free : ∀ token ∈ tokens, Char.ofNat 0 ∉ token.lexeme.toList) :
    Char.ofNat 0 ∉ spaced tokens := by
  induction tokens with
  | nil => exact not_mem_nil
  | cons token tokens ih =>
    rw [forall_mem_cons] at free
    rw [spaced, mem_cons, mem_append, not_or, not_or]
    exact ⟨by decide, free.1, ih free.2⟩

/-- Words that stand alone are read as the same tokens with spaces between them. -/
theorem scan_joined (solid : ∀ token ∈ tokens, token.Solid) :
    ∃ (found : List Token) (last : Token), scan (Token.joined tokens) = found ++ [last] ∧
      found.map Token.unplaced = tokens.map Token.unplaced ∧ last.kind = .endOfText := by
  have free := Token.nul_notMem_spaced fun token member => (solid token member).noNul
  rw [scan, Token.joined, effectiveText_of_free fun member => free (mem_of_mem_tail member)]
  exact tokensFrom_words solid .origin

/-! ## The tokens of a text -/

theorem Place.skip_noBlank {place here : Place}
    (skipped : place.skip inComment text = (here, c :: rest)) : isBlank c = false := by
  induction text generalizing inComment place with
  | nil => cases skipped
  | cons d text ih =>
    unfold skip at skipped
    repeat' split at skipped
    all_goals first
      | exact ih skipped
      | skip
    rename_i noBlank _
    cases skipped
    simpa using noBlank

theorem solid_of_tokensFrom (place : Place) (noNul : Char.ofNat 0 ∉ text) :
    ∃ (found : List Token) (last : Token), tokensFrom place text = found ++ [last] ∧
      (∀ token ∈ found, token.kind = .error ∨ token.kind = .calculation ∧ '#' ∈ text ∨
        token.Solid) ∧ last.kind = .endOfText := by
  fun_induction tokensFrom place text with
  | case1 place text here skipped => exact ⟨[], here.endToken, rfl, nofun, rfl⟩
  | case2 place text here c rest skipped lexeme ih =>
    obtain ⟨inner, isText, tiles⟩ : Lexeme.Tiles c rest lexeme := Lexeme.tiles_read c rest
    have suffix : c :: inner ++ lexeme.rest <:+ text := by
      have suffix := Place.skip_suffix false place text
      rwa [skipped, tiles] at suffix
    have inText {d : Char} (member : d ∈ c :: inner) : d ∈ text :=
      suffix.mem (mem_append_left _ member)
    have afterText {d : Char} (member : d ∈ lexeme.rest) : d ∈ text :=
      suffix.mem (mem_append_right _ member)
    obtain ⟨found, last, others, each, ends⟩ := ih fun member => noNul (afterText member)
    refine ⟨here.token lexeme :: found, last, by rw [others]; rfl,
      forall_mem_cons.2 ⟨?_, fun token member => ?_⟩, ends⟩
    · by_cases calculates : c = '#'
      · subst calculates
        exact .inr (.inl ⟨Lexeme.kind_read_calculation rest, inText mem_cons_self⟩)
      obtain ⟨_, isText', _, kind⟩ : Lexeme.Cut c rest lexeme := Lexeme.cut_read calculates
      cases isText'.symm.trans isText
      by_cases isError : lexeme.kind = .error
      · exact .inl isError
      obtain ⟨_, ordinary, stable⟩ := kind.resolve_left isError
      have lexemeText : (here.token lexeme).lexeme.toList = c :: inner := by
        rw [Place.token, isText, String.toList_ofList]
      refine .inr (.inr ⟨isError, ordinary, ?_, c, inner, lexemeText, Place.skip_noBlank skipped,
        stable⟩)
      rw [lexemeText]
      exact fun member => noNul (inText member)
    · exact (each token member).imp_right (.imp_left (.imp_right afterText))

theorem solid_of_scan (source : String) :
    ∃ (found : List Token) (last : Token), scan source = found ++ [last] ∧
      (∀ token ∈ found, token.kind = .error ∨ token.kind = .calculation ∧ '#' ∈ source.toList ∨
        token.Solid) ∧ last.kind = .endOfText := by
  have noNul : .ofNat 0 ∉ effectiveText source := fun member => by
    simpa using mem_takeWhile_imp member
  obtain ⟨found, last, isScan, each, ends⟩ := solid_of_tokensFrom .origin noNul
  refine ⟨found, last, isScan, fun token member => ?_, ends⟩
  have effective : effectiveText source <+: source.toList := takeWhile_prefix _
  exact (each token member).imp_right (.imp_left (.imp_right effective.mem))

end NodeFormula
