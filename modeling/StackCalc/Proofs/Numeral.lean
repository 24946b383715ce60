import StackCalc.Compile
import StackCalc.Proofs.Characters

/-! Numbers in a source. Their pattern is a whole part, perhaps a fraction and perhaps an exponent.
A scan yields no other numbers, and each of them can be read as a double, with a minus in front of
it too. So the value that the compiler keeps for unreadable text is never used. -/
namespace StackCalc
open Text

namespace Numeral

def Digits (cs : List Char) : Prop := ∀ c ∈ cs, isPlainDigit c = true

/-- A lone zero, or digits that do not start with one. -/
inductive Whole : List Char → Prop where
  | zero : Whole ['0']
  | digits {c : Char} {ds : List Char} (notZero : c ≠ '0') (digits : Digits (c :: ds)) :
      Whole (c :: ds)

/-- A point and at least one digit, or nothing. -/
inductive Fraction : List Char → Prop where
  | absent : Fraction []
  | digits {ds : List Char} (some : ds ≠ []) (digits : Digits ds) : Fraction ('.' :: ds)

/-- A letter, perhaps a sign and at least one digit, or nothing. -/
inductive Exponent : List Char → Prop where
  | absent : Exponent []
  | digits {letter : Char} {sign ds : List Char} (letter_eq : letter = 'e' ∨ letter = 'E')
      (sign_eq : sign = [] ∨ sign = ['+'] ∨ sign = ['-']) (some : ds ≠ []) (digits : Digits ds) :
      Exponent (letter :: (sign ++ ds))

end Numeral

open Numeral in
/-- The number pattern. -/
inductive Numeral : List Char → Prop where
  | mk {whole fraction exponent : List Char} (hWhole : Whole whole) (hFraction : Fraction fraction)
      (hExponent : Exponent exponent) : Numeral (whole ++ fraction ++ exponent)

namespace Numeral

theorem digits_takeWhile (cs : List Char) : Digits (cs.takeWhile isPlainDigit) := by
  intro c hc
  exact List.all_eq_true.mp List.all_takeWhile c hc

/-- What is taken as the whole part of a numeral is one. -/
theorem of_takeWhole? {cs whole rest : List Char}
    (h : Lexeme.takeWhole? cs = some (whole, rest)) : Whole whole := by
  cases cs with
  | nil => cases h
  | cons c cs =>
      simp only [Lexeme.takeWhole?] at h
      split at h
      · rename_i hZero
        cases h
        exact hZero ▸ .zero
      · rename_i hZero
        split at h
        · rename_i hDigit
          cases h
          exact .digits hZero (List.forall_mem_cons.mpr ⟨hDigit, digits_takeWhile cs⟩)
        · cases h

/-- What is taken as a fraction is one, possibly empty. -/
theorem of_takeFraction (cs : List Char) : Fraction (Lexeme.takeFraction cs).1 := by
  unfold Lexeme.takeFraction
  split
  · rename_i rest
    by_cases hNone : rest.takeWhile isPlainDigit = []
    · simpa [Lexeme.takeDigits, hNone] using Fraction.absent
    · simpa [Lexeme.takeDigits, hNone] using Fraction.digits hNone (digits_takeWhile rest)
  · exact .absent

theorem takeExponentSign_cases (cs : List Char) :
    (Lexeme.takeExponentSign cs).1 = [] ∨ (Lexeme.takeExponentSign cs).1 = ['+'] ∨
      (Lexeme.takeExponentSign cs).1 = ['-'] := by
  unfold Lexeme.takeExponentSign
  split <;> simp

/-- What is taken as an exponent is one, possibly empty. -/
theorem of_takeExponent (cs : List Char) : Exponent (Lexeme.takeExponent cs).1 := by
  unfold Lexeme.takeExponent
  split
  · exact .absent
  · rename_i c rest
    split
    · rename_i hLetter
      by_cases hNone : (Lexeme.takeExponentSign rest).2.takeWhile isPlainDigit = []
      · simpa [Lexeme.takeDigits, hNone] using Exponent.absent
      · simpa [Lexeme.takeDigits, hNone] using
          Exponent.digits hLetter (takeExponentSign_cases rest) hNone (digits_takeWhile _)
    · exact .absent

/-- What is taken as a number is a numeral. -/
theorem of_takeNumber? {cs text rest : List Char}
    (h : Lexeme.takeNumber? cs = some (text, rest)) : Numeral text := by
  unfold Lexeme.takeNumber? at h
  obtain ⟨⟨whole, after⟩, hWhole, hRest⟩ := Option.map_eq_some_iff.mp h
  simp only [Prod.mk.injEq] at hRest
  obtain ⟨rfl, -⟩ := hRest
  exact .mk (of_takeWhole? hWhole) (of_takeFraction after) (of_takeExponent _)

/-- A lexeme that is split off as a number has the number pattern. -/
theorem of_take? {cs rest : List Char} {text : String}
    (h : Lexeme.take? cs = some (.number text, rest)) : Numeral text.toList := by
  unfold Lexeme.take? at h
  split at h
  · cases h
  · split at h
    · rename_i digits after hNumber
      cases h
      simpa using of_takeNumber? hNumber
    · obtain ⟨_, _, hName⟩ := Option.map_eq_some_iff.mp h
      cases hName

/-- Every number among the tokens of a scan is a numeral. -/
theorem of_mem_scanFrom (pos : Nat) (cs : List Char) {t : Token} {text : String}
    (h : t ∈ (scanFrom pos cs).tokens) (hText : t.lexeme = .number text) :
    Numeral text.toList := by
  fun_induction scanFrom pos cs with
  | case1 => cases h
  | case2 pos rest ih => exact ih h
  | case3 => cases h
  | case4 pos c rest hSpace l after hTake hLength following ih =>
      rcases List.mem_cons.mp h with rfl | hAfter
      · cases hText
        exact of_take? hTake
      · exact ih hAfter

/-- The characters that occur in numbers, signs included. -/
def characters : List Char :=
  ['0', '1', '2', '3', '4', '5', '6', '7', '8', '9', '.', 'e', 'E', '+', '-']

theorem mem_characters_of_isPlainDigit {c : Char} (h : isPlainDigit c = true) :
    c ∈ characters.take 10 := by
  simp only [isPlainDigit, Bool.and_eq_true, decide_eq_true_eq] at h
  have hLow : 48 ≤ c.toNat := h.1
  have hHigh : c.toNat ≤ 57 := h.2
  have hAll : ∀ d < 10, Char.ofNat (48 + d) ∈ characters.take 10 := by decide
  have hDigit := hAll (c.toNat - 48) (by omega)
  rwa [show 48 + (c.toNat - 48) = c.toNat by omega, Char.ofNat_toNat] at hDigit

theorem Digits.characters {ds : List Char} (h : Digits ds) : ∀ c ∈ ds, c ∈ Numeral.characters :=
  fun c hc => List.mem_of_mem_take (mem_characters_of_isPlainDigit (h c hc))

theorem Digits.append {cs ds : List Char} (hLeft : Digits cs) (hRight : Digits ds) :
    Digits (cs ++ ds) :=
  List.forall_mem_append.mpr ⟨hLeft, hRight⟩

/-- A number starts with a digit. -/
theorem Whole.cons {whole : List Char} (h : Whole whole) :
    ∃ c ds, whole = c :: ds ∧ Digits (c :: ds) := by
  cases h with
  | zero => exact ⟨'0', [], rfl, by simp [Digits, isPlainDigit]⟩
  | @digits c ds _ digits => exact ⟨c, ds, rfl, digits⟩

/-- A numeral starts with a digit. -/
theorem cons {cs : List Char} (h : Numeral cs) :
    ∃ c rest, cs = c :: rest ∧ isPlainDigit c = true := by
  obtain ⟨hWhole, _, _⟩ := h
  obtain ⟨c, ds, rfl, hDigits⟩ := hWhole.cons
  exact ⟨c, _, rfl, hDigits c (List.mem_cons_self ..)⟩

/-- No part of a number has a character of another kind. -/
theorem characters_of {cs : List Char} (h : Numeral cs) : ∀ c ∈ cs, c ∈ characters := by
  obtain ⟨hWhole, hFraction, hExponent⟩ := h
  rename_i whole fraction exponent
  have hFirst : ∀ c ∈ whole, c ∈ characters := by
    obtain ⟨c, ds, rfl, hDigits⟩ := hWhole.cons
    exact hDigits.characters
  have hSecond : ∀ c ∈ fraction, c ∈ characters := by
    cases hFraction with
    | absent => simp
    | digits _ digits => exact List.forall_mem_cons.mpr ⟨by decide, digits.characters⟩
  have hThird : ∀ c ∈ exponent, c ∈ characters := by
    cases hExponent with
    | absent => simp
    | digits letter_eq sign_eq _ digits =>
        refine List.forall_mem_cons.mpr ⟨?_, List.forall_mem_append.mpr ⟨?_, digits.characters⟩⟩
        · rcases letter_eq with rfl | rfl <;> decide
        · rcases sign_eq with rfl | rfl | rfl <;> exact forall_mem_of_all (by decide)
  exact List.forall_mem_append.mpr ⟨List.forall_mem_append.mpr ⟨hFirst, hSecond⟩, hThird⟩

/-- A sign before a numeral brings in no other character than the sign. -/
theorem characters_signed {cs : List Char} (h : Numeral cs) (negative : Bool) :
    ∀ c ∈ Number.signed negative cs, c ∈ characters := by
  cases negative with
  | false => exact h.characters_of
  | true => exact List.forall_mem_cons.mpr ⟨by decide, h.characters_of⟩

/-- Without underscores there are no groups of digits to join. -/
theorem joinGroups_eq_some {cs : List Char} (h : ∀ c ∈ cs, c ≠ '_') (afterDigit : Bool) :
    Number.joinGroups afterDigit cs = some cs := by
  induction cs generalizing afterDigit with
  | nil => simp [Number.joinGroups]
  | cons c rest ih =>
      obtain ⟨hFirst, hRest⟩ := List.forall_mem_cons.mp h
      simp [Number.joinGroups, ih hRest]

/-- Text with the characters of numbers alone is read as it stands. -/
theorem readChars?_eq {cs : List Char} (h : ∀ c ∈ cs, c ∈ characters) :
    Number.readChars? cs = Number.readSigned? cs := by
  have hBlank : ∀ c ∈ characters, isNumberBlank c = false := forall_mem_of_all (by decide)
  have hPlain : ∀ c ∈ characters, (digitValue? c).elim c digitChar = c :=
    forall_mem_of_all (by decide)
  have hJoin : ∀ c ∈ characters, c ≠ '_' := forall_mem_of_all (by decide)
  have hDigits : Number.plainDigits cs = cs := by
    rw [Number.plainDigits, List.map_congr_left fun c hc => hPlain c (h c hc), List.map_id']
  rw [Number.readChars?, trim_eq_self fun c hc => hBlank c (h c hc), hDigits,
    joinGroups_eq_some fun c hc => hJoin c (h c hc), Option.bind_some]

/-- A run of digits is cut off where the next character is none. -/
theorem Digits.takeWhile_append {ds rest : List Char} (h : Digits ds)
    (hRest : ∀ c ∈ rest.head?, isPlainDigit c = false) :
    (ds ++ rest).takeWhile isPlainDigit = ds ∧ (ds ++ rest).dropWhile isPlainDigit = rest := by
  rw [List.takeWhile_append_of_pos h, List.dropWhile_append_of_pos h]
  cases rest with
  | nil => simp
  | cons c rest => simp [hRest c rfl]

theorem Exponent.head {exponent : List Char} (h : Exponent exponent) :
    ∀ c ∈ exponent.head?, isPlainDigit c = false := by
  cases h with
  | absent => simp
  | digits letter_eq => rcases letter_eq with rfl | rfl <;> simp [isPlainDigit]

/-- A digit is no sign. -/
theorem takeSign_of_digit {c : Char} (h : isPlainDigit c = true) (rest : List Char) :
    Number.takeSign (c :: rest) = (false, c :: rest) := by
  have hMinus : c ≠ '-' := by
    rintro rfl
    exact absurd h (by decide)
  have hPlus : c ≠ '+' := by
    rintro rfl
    exact absurd h (by decide)
  simp [Number.takeSign, hMinus, hPlus]

/-- The exponent of a numeral can be read. -/
theorem Exponent.readable {exponent : List Char} (h : Exponent exponent) :
    ∃ e, Number.exponent? exponent = some e := by
  cases h with
  | absent => exact ⟨0, rfl⟩
  | @digits letter sign ds letter_eq sign_eq some digits =>
      have hLetter : (letter == 'e' || letter == 'E') = true := by
        rcases letter_eq with rfl | rfl <;> rfl
      have hSign : (Number.takeSign (sign ++ ds)).2 = ds := by
        obtain ⟨d, rest, rfl⟩ := List.exists_cons_of_ne_nil some
        rcases sign_eq with rfl | rfl | rfl
        · rw [List.nil_append, takeSign_of_digit (digits d (List.mem_cons_self ..))]
        · rfl
        · rfl
      have hDigits : ds.all isPlainDigit = true := List.all_eq_true.mpr digits
      have hSome : ds.isEmpty = false := by simpa using some
      simp only [Number.exponent?, hSign, hLetter, hDigits, hSome, Bool.not_false, Bool.and_true,
        if_true]
      exact ⟨_, rfl⟩

/-- The digits behind the point are read as further digits, and each of them lowers the exponent. -/
theorem decimal?_eq {whole fraction exponent : List Char} (hWhole : Whole whole)
    (hFraction : Fraction fraction) (hExponent : Exponent exponent) {e : Int}
    (hRead : Number.exponent? exponent = some e) :
    Number.decimal? (whole ++ fraction ++ exponent) =
      some ⟨Number.natOfDigits (whole ++ fraction.tail), e - fraction.tail.length⟩ := by
  obtain ⟨c, ds, rfl, hDigits⟩ := hWhole.cons
  have hBehind : ∀ x ∈ (fraction ++ exponent).head?, isPlainDigit x = false := by
    cases hFraction with
    | absent => exact hExponent.head
    | digits => simp [isPlainDigit]
  have hSplit : Number.takeFraction (fraction ++ exponent) = (fraction.tail, exponent) := by
    cases hFraction with
    | absent =>
        cases hExponent with
        | absent => rfl
        | digits letter_eq => rcases letter_eq with rfl | rfl <;> rfl
    | digits _ digits =>
        obtain ⟨hTake, hDrop⟩ := digits.takeWhile_append hExponent.head
        simp only [List.cons_append, Number.takeFraction, hTake, hDrop, List.tail_cons]
  obtain ⟨hTake, hDrop⟩ := hDigits.takeWhile_append hBehind
  rw [List.append_assoc]
  simp only [Number.decimal?, hTake, hDrop, hSplit, hRead]
  rfl

/-- A numeral is always read as a decimal. -/
theorem decimal?_readable {cs : List Char} (h : Numeral cs) :
    ∃ d, Number.decimal? cs = some d := by
  obtain ⟨hWhole, hFraction, hExponent⟩ := h
  obtain ⟨e, hRead⟩ := hExponent.readable
  exact ⟨_, decimal?_eq hWhole hFraction hExponent hRead⟩

/-- What starts with a digit is none of the named numbers. -/
theorem named?_of_digit {c : Char} (h : isPlainDigit c = true) (negative : Bool)
    (rest : List Char) : Number.named? negative (c :: rest) = none := by
  have hLower : ∀ d ∈ characters.take 10, d.toLower ≠ 'i' ∧ d.toLower ≠ 'n' :=
    forall_mem_of_all (by decide)
  obtain ⟨hI, hN⟩ := hLower c (mem_characters_of_isPlainDigit h)
  have hNot : ∀ d cs, c.toLower ≠ d →
      String.ofList ((c :: rest).map Char.toLower) ≠ String.ofList (d :: cs) := by
    intro d cs hNe hEq
    exact hNe (List.head_eq_of_cons_eq (String.ofList_injective hEq))
  have hInf := hNot 'i' ['n', 'f'] hI
  have hInfinity := hNot 'i' ['n', 'f', 'i', 'n', 'i', 't', 'y'] hI
  have hNan := hNot 'n' ['a', 'n'] hN
  simp only [Number.named?]
  rw [if_neg (not_or.mpr ⟨hInf, hInfinity⟩), if_neg hNan]

/-- A number of the pattern is read by its digits, whatever its sign. -/
theorem readChars?_signed {cs : List Char} (h : Numeral cs) (negative : Bool) :
    Number.readChars? (Number.signed negative cs) =
      (Number.decimal? cs).map fun d => d.toFloat negative := by
  have hChars := h.characters_signed negative
  obtain ⟨c, rest, rfl, hDigit⟩ := h.cons
  have hSign : Number.takeSign (Number.signed negative (c :: rest)) = (negative, c :: rest) := by
    cases negative with
    | false => exact takeSign_of_digit hDigit rest
    | true => rfl
  rw [readChars?_eq hChars]
  simp only [Number.readSigned?, hSign, named?_of_digit hDigit]

/-- Every number of the pattern can be read as a double, with a minus in front of it too. -/
theorem readable {cs : List Char} (h : Numeral cs) :
    (∃ x, Number.readChars? cs = some x) ∧ ∃ x, Number.readChars? ('-' :: cs) = some x := by
  obtain ⟨d, hDecimal⟩ := h.decimal?_readable
  have hRead := h.readChars?_signed
  simp only [hDecimal, Option.map_some] at hRead
  exact ⟨⟨_, hRead false⟩, ⟨_, hRead true⟩⟩

end Numeral

end StackCalc
