import StackCalc.Proofs.Numeral

/-! Longest matches. A lexeme is a symbol, or a text with the pattern of a number or of a name. What
is split off the front of a text is the longest lexeme that starts there, and where nothing can be
split off no lexeme starts. -/
namespace StackCalc
open Text

/-- The name pattern. -/
inductive Identifier : List Char → Prop where
  | mk {c : Char} {rest : List Char} (hStart : isNameStart c = true)
      (hRest : ∀ d ∈ rest, isNameChar d = true) : Identifier (c :: rest)

/-- What is taken as a name is an identifier. -/
theorem Identifier.of_takeName? {cs name rest : List Char}
    (h : Lexeme.takeName? cs = some (name, rest)) : Identifier name := by
  cases cs with
  | nil => cases h
  | cons c cs =>
      simp only [Lexeme.takeName?] at h
      split at h
      · rename_i hStart
        cases h
        exact .mk hStart (List.all_eq_true.mp List.all_takeWhile)
      · cases h

namespace Numeral

theorem Digits.takeDigits_append {ds : List Char} (h : Digits ds) (rest : List Char) :
    (Lexeme.takeDigits (ds ++ rest)).1 = ds ++ rest.takeWhile isPlainDigit :=
  List.takeWhile_append_of_pos h

/-- A whole part is split off alone if no digit follows it. -/
theorem Whole.takeWhole?_append {whole : List Char} (h : Whole whole) (rest : List Char)
    (hRest : ∀ c ∈ rest.head?, isPlainDigit c = false) :
    Lexeme.takeWhole? (whole ++ rest) = some (whole, rest) := by
  cases h with
  | zero => rfl
  | @digits c ds notZero digits =>
      obtain ⟨hFirst, hDigits⟩ := List.forall_mem_cons.mp digits
      obtain ⟨hTake, hDrop⟩ := Digits.takeWhile_append hDigits hRest
      simp [Lexeme.takeWhole?, notZero, hFirst, hTake, hDrop]

/-- No whole part at the start of a text is longer than the one taken. -/
theorem Whole.length_le_takeWhole? {whole : List Char} (h : Whole whole) (rest : List Char) :
    ∃ out after, Lexeme.takeWhole? (whole ++ rest) = some (out, after) ∧
      whole.length ≤ out.length := by
  cases h with
  | zero => exact ⟨['0'], rest, rfl, Nat.le_refl _⟩
  | @digits c ds notZero digits =>
      obtain ⟨hFirst, hDigits⟩ := List.forall_mem_cons.mp digits
      have hTake : (ds ++ rest).takeWhile isPlainDigit = ds ++ rest.takeWhile isPlainDigit :=
        List.takeWhile_append_of_pos hDigits
      simp only [List.cons_append, Lexeme.takeWhole?, notZero, hFirst, if_true, if_false, hTake]
      exact ⟨_, _, rfl, by simp⟩

/-- A fraction is split off alone if neither a digit nor a point follows it. -/
theorem Fraction.takeFraction_append {fraction : List Char} (h : Fraction fraction)
    (rest : List Char) (hRest : ∀ c ∈ rest.head?, isPlainDigit c = false ∧ c ≠ '.') :
    Lexeme.takeFraction (fraction ++ rest) = (fraction, rest) := by
  cases h with
  | absent =>
      rw [List.nil_append]
      unfold Lexeme.takeFraction
      split
      · exact absurd rfl (hRest '.' rfl).2
      · rfl
  | @digits ds some digits =>
      obtain ⟨hTake, hDrop⟩ := digits.takeWhile_append fun c hc => (hRest c hc).1
      simp [Lexeme.takeFraction, Lexeme.takeDigits, hTake, hDrop, some]

/-- No fraction at the start of a text is longer than the one taken. -/
theorem Fraction.length_le_takeFraction {fraction : List Char} (h : Fraction fraction)
    (rest : List Char) : fraction.length ≤ (Lexeme.takeFraction (fraction ++ rest)).1.length := by
  cases h with
  | absent => exact Nat.zero_le _
  | @digits ds some digits =>
      simp [Lexeme.takeFraction, digits.takeDigits_append, some]

theorem takeExponentSign_of_digit {c : Char} (h : isPlainDigit c = true) (rest : List Char) :
    Lexeme.takeExponentSign (c :: rest) = ([], c :: rest) := by
  unfold Lexeme.takeExponentSign
  split
  · rename_i hEq
    cases hEq
    exact absurd h (by decide)
  · rename_i hEq
    cases hEq
    exact absurd h (by decide)
  · rfl

/-- No exponent at the start of a text is longer than the one taken. -/
theorem Exponent.length_le_takeExponent {exponent : List Char} (h : Exponent exponent)
    (rest : List Char) : exponent.length ≤ (Lexeme.takeExponent (exponent ++ rest)).1.length := by
  cases h with
  | absent => exact Nat.zero_le _
  | @digits letter sign ds letter_eq sign_eq some digits =>
      have hSign : Lexeme.takeExponentSign (sign ++ (ds ++ rest)) = (sign, ds ++ rest) := by
        obtain ⟨d, ds, rfl⟩ := List.exists_cons_of_ne_nil some
        rcases sign_eq with rfl | rfl | rfl
        · exact takeExponentSign_of_digit (digits d List.mem_cons_self) _
        · rfl
        · rfl
      simp [Lexeme.takeExponent, letter_eq, hSign, digits.takeDigits_append, some]

/-- A number at the front of a text is split off at least as far as it goes. Its parts in front of
the last one are split off exactly, since each of them ends before the character that starts the
next one. -/
theorem length_le_takeNumber? {text : List Char} (h : Numeral text) (rest : List Char) :
    ∃ out after, Lexeme.takeNumber? (text ++ rest) = some (out, after) ∧
      text.length ≤ out.length := by
  obtain @⟨whole, fraction, exponent, hWhole, hFraction, hExponent⟩ := h
  cases hExponent with
  | absent =>
      cases hFraction with
      | absent =>
          obtain ⟨out, after, hTake, hLength⟩ := hWhole.length_le_takeWhole? rest
          simp only [List.append_nil, Lexeme.takeNumber?, hTake, Option.map_some]
          refine ⟨_, _, rfl, ?_⟩
          simp only [List.length_append]
          omega
      | @digits ds some digits =>
          have hFraction : Fraction ('.' :: ds) := .digits some digits
          have hTake := hWhole.takeWhole?_append ('.' :: ds ++ rest) (by simp [isPlainDigit])
          have hLength := hFraction.length_le_takeFraction rest
          rw [List.append_nil, List.append_assoc]
          simp only [Lexeme.takeNumber?, hTake, Option.map_some]
          refine ⟨_, _, rfl, ?_⟩
          simp only [List.length_append]
          omega
  | @digits letter sign ds letter_eq sign_eq some digits =>
      have hExponent : Exponent (letter :: (sign ++ ds)) := .digits letter_eq sign_eq some digits
      have hLetter : isPlainDigit letter = false ∧ letter ≠ '.' := by
        rcases letter_eq with rfl | rfl <;> decide
      have hTakeFraction := hFraction.takeFraction_append (letter :: (sign ++ ds) ++ rest)
        (by simpa using hLetter)
      have hTakeWhole := hWhole.takeWhole?_append (fraction ++ (letter :: (sign ++ ds) ++ rest))
        (by
          cases hFraction with
          | absent => simpa using hLetter.1
          | digits => simp [isPlainDigit])
      have hLength := hExponent.length_le_takeExponent rest
      rw [List.append_assoc, List.append_assoc]
      simp only [Lexeme.takeNumber?, hTakeWhole, Option.map_some, hTakeFraction]
      refine ⟨_, _, rfl, ?_⟩
      simp only [List.length_append] at hLength ⊢
      omega

end Numeral

/-- A name at the front of a text is split off at least as far as it goes. -/
theorem Identifier.length_le_takeName? {name : List Char} (h : Identifier name) (rest : List Char) :
    ∃ out after, Lexeme.takeName? (name ++ rest) = some (out, after) ∧
      name.length ≤ out.length := by
  obtain @⟨c, cs, hStart, hRest⟩ := h
  have hTake : (cs ++ rest).takeWhile isNameChar = cs ++ rest.takeWhile isNameChar :=
    List.takeWhile_append_of_pos hRest
  simp only [List.cons_append, Lexeme.takeName?, hStart, if_true, hTake]
  exact ⟨_, _, rfl, by simp⟩

/-- Names and numerals start with different characters, so at most one of them fits at a place. -/
theorem isNameStart_of_isPlainDigit {c : Char} (h : isPlainDigit c = true) :
    isNameStart c = false := by
  have hAll : ∀ d ∈ Numeral.characters.take 10, isNameStart d = false :=
    Text.forall_mem_of_all (by decide)
  exact hAll c (Numeral.mem_characters_of_isPlainDigit h)

namespace Lexeme

/-- The text of a lexeme has the pattern of its kind. -/
def Proper : Lexeme → Prop
  | .number text => Numeral text.toList
  | .identifier name => Identifier name.toList
  | .symbol _ => True

theorem Proper.spelling_ne_nil {l : Lexeme} (h : l.Proper) : l.spelling ≠ [] := by
  cases l with
  | number text =>
      obtain ⟨c, rest, hCons, -⟩ := Numeral.cons h
      simp [spelling, hCons]
  | identifier name =>
      intro hNil
      rw [spelling] at hNil
      rw [Proper, hNil] at h
      cases h
  | symbol s => fun_cases Symbol.spelling s <;> simp [spelling, Symbol.spelling]

/-- What is split off a text has the pattern of its kind. -/
theorem proper_of_take? {cs rest : List Char} {l : Lexeme} (h : take? cs = some (l, rest)) :
    l.Proper := by
  unfold take? at h
  split at h
  · cases h
    trivial
  · split at h
    · rename_i hNumber
      cases h
      simpa [Proper] using Numeral.of_takeNumber? hNumber
    · obtain ⟨⟨name, after⟩, hName, hEq⟩ := Option.map_eq_some_iff.mp h
      cases hEq
      simpa [Proper] using Identifier.of_takeName? hName

/-- No symbol starts with a character that can stand in a name. -/
theorem takeSymbol?_of_isNameChar {c : Char} (h : isNameChar c = true) (rest : List Char) :
    takeSymbol? (c :: rest) = none := by
  cases hTake : takeSymbol? (c :: rest) with
  | none => rfl
  | some pair =>
      have hAppend := takeSymbol?_append hTake
      rcases pair with ⟨((_ | _ | _ | _ | _) | _) | _ | _, after⟩ <;>
        cases hAppend <;> exact absurd h (by decide)

theorem takeSymbol?_of_numeral {text : List Char} (h : Numeral text) (rest : List Char) :
    takeSymbol? (text ++ rest) = none := by
  obtain ⟨c, ds, rfl, hDigit⟩ := h.cons
  exact takeSymbol?_of_isNameChar (by simp [isNameChar, hDigit]) _

theorem takeSymbol?_of_identifier {name : List Char} (h : Identifier name) (rest : List Char) :
    takeSymbol? (name ++ rest) = none := by
  obtain ⟨hStart, -⟩ := h
  exact takeSymbol?_of_isNameChar (by simp [isNameChar, hStart]) _

theorem takeNumber?_of_identifier {name : List Char} (h : Identifier name) (rest : List Char) :
    takeNumber? (name ++ rest) = none := by
  obtain @⟨c, cs, hStart, -⟩ := h
  have hDigit : isPlainDigit c = false := by
    cases hDigit : isPlainDigit c with
    | false => rfl
    | true =>
        rw [isNameStart_of_isPlainDigit hDigit] at hStart
        cases hStart
  have hZero : c ≠ '0' := by
    rintro rfl
    cases hDigit
  simp [takeNumber?, takeWhole?, hZero, hDigit]

/-- A symbol at the front of a text is split off at least as far as it goes: a second asterisk
belongs to it. -/
theorem length_le_takeSymbol? (s : Symbol) (rest : List Char) :
    ∃ s' after, takeSymbol? (s.spelling ++ rest) = some (s', after) ∧
      s.spelling.length ≤ s'.spelling.length := by
  fun_cases Symbol.spelling s with
  | case3 =>
      simp only [List.cons_append, List.nil_append]
      unfold takeSymbol?
      split <;> simp_all [Symbol.spelling]
  | _ => exact ⟨_, _, rfl, Nat.le_refl _⟩

theorem takeSymbol?_spelling (s : Symbol) : takeSymbol? s.spelling = some (s, []) := by
  fun_cases Symbol.spelling s <;> rfl

/-- A lexeme at the front of a text is split off at least as far as it goes, and it is the lexeme
that is split off if that does not go further. -/
theorem Proper.take?_append {l : Lexeme} (h : l.Proper) (rest : List Char) :
    ∃ l' after, take? (l.spelling ++ rest) = some (l', after) ∧
      l.spelling.length ≤ l'.spelling.length ∧
      (l'.spelling.length = l.spelling.length → l' = l) := by
  cases l with
  | symbol s =>
      obtain ⟨s', after, hTake, hLength⟩ := length_le_takeSymbol? s rest
      refine ⟨.symbol s', after, ?_, hLength, ?_⟩
      · simp only [take?, spelling, hTake]
      · intro hSame
        have hSpelling := (List.append_inj (takeSymbol?_append hTake) hSame.symm).1
        have hSymbol := takeSymbol?_spelling s
        rw [hSpelling, takeSymbol?_spelling] at hSymbol
        cases hSymbol
        rfl
  | number text =>
      obtain ⟨out, after, hTake, hLength⟩ := Numeral.length_le_takeNumber? h rest
      refine ⟨.number (String.ofList out), after, ?_, by simpa [spelling] using hLength, ?_⟩
      · simp only [take?, spelling, takeSymbol?_of_numeral h, hTake]
      · intro hSame
        simp only [spelling, String.toList_ofList] at hSame
        have hText := (List.append_inj (takeNumber?_append hTake).1 hSame.symm).1
        rw [← hText, String.ofList_toList]
  | identifier name =>
      obtain ⟨out, after, hTake, hLength⟩ := Identifier.length_le_takeName? h rest
      refine ⟨.identifier (String.ofList out), after, ?_, by simpa [spelling] using hLength, ?_⟩
      · simp only [take?, spelling, takeSymbol?_of_identifier h, takeNumber?_of_identifier h, hTake,
          Option.map_some]
      · intro hSame
        simp only [spelling, String.toList_ofList] at hSame
        have hName := (List.append_inj (takeName?_append hTake).1 hSame.symm).1
        rw [← hName, String.ofList_toList]

/-- Where nothing can be split off, no lexeme of any pattern starts. -/
theorem not_spelled_of_take?_eq_none {cs : List Char} (h : take? cs = none) {l : Lexeme}
    (hProper : l.Proper) : ¬ l.spelling <+: cs := by
  rintro ⟨rest, rfl⟩
  obtain ⟨l', after, hTake, -⟩ := hProper.take?_append rest
  rw [h] at hTake
  cases hTake

/-- The lexeme is at the front of the text, and no longer lexeme is. -/
structure Longest (l : Lexeme) (cs : List Char) : Prop where
  proper : l.Proper
  starts : l.spelling <+: cs
  longest : ∀ l' : Lexeme, l'.Proper → l'.spelling <+: cs →
    l'.spelling.length ≤ l.spelling.length

/-- The lexeme taken is the longest that stands at the start of the text. -/
theorem longest_of_take? {cs rest : List Char} {l : Lexeme} (h : take? cs = some (l, rest)) :
    l.Longest cs where
  proper := proper_of_take? h
  starts := ⟨rest, (take?_append h).1.symm⟩
  longest := by
    rintro l' hProper ⟨after, rfl⟩
    obtain ⟨l'', _, hTake, hLength, -⟩ := hProper.take?_append after
    rw [h] at hTake
    cases hTake
    exact hLength

/-- The longest lexeme is the one that is split off. -/
theorem Longest.take? {l : Lexeme} {cs : List Char} (h : l.Longest cs) :
    ∃ rest, Lexeme.take? cs = some (l, rest) := by
  obtain ⟨hProper, ⟨rest, rfl⟩, hLongest⟩ := h
  obtain ⟨l', after, hTake, hLength, hSame⟩ := hProper.take?_append rest
  have hTaken := longest_of_take? hTake
  have hLe := hLongest l' hTaken.proper hTaken.starts
  obtain rfl := hSame (Nat.le_antisymm hLe hLength)
  exact ⟨after, hTake⟩

end Lexeme

end StackCalc
