import StackCalc.Token
import StackCalc.Text.Digit

/-! Scanning. A scan cuts a source into tokens from left to right; spaces separate tokens and are
dropped, and every token is as long as it can be. It stops at the first character that starts no
token and remembers it. -/
namespace StackCalc

def isNameStart (c : Char) : Bool :=
  ('a' ≤ c && c ≤ 'z') || ('A' ≤ c && c ≤ 'Z') || c == '_'

def isNameChar (c : Char) : Bool :=
  isNameStart c || Text.isPlainDigit c

namespace Lexeme
open Text

/-- Splits a symbol off the front of a text, the longer one where two fit. -/
def takeSymbol? : List Char → Option (Symbol × List Char)
  | '+' :: rest => some (.operator (.arithmetic .add), rest)
  | '-' :: rest => some (.operator (.arithmetic .subtract), rest)
  | '*' :: '*' :: rest => some (.operator (.arithmetic .power), rest)
  | '*' :: rest => some (.operator (.arithmetic .multiply), rest)
  | '/' :: rest => some (.operator (.arithmetic .divide), rest)
  | '=' :: rest => some (.operator .assign, rest)
  | '(' :: rest => some (.openBracket, rest)
  | ')' :: rest => some (.closeBracket, rest)
  | _ => none

def takeDigits (cs : List Char) : List Char × List Char :=
  (cs.takeWhile isPlainDigit, cs.dropWhile isPlainDigit)

/-- Splits the whole part of a number off: a lone zero, or digits that do not start with one. -/
def takeWhole? : List Char → Option (List Char × List Char)
  | [] => none
  | c :: rest =>
    if c = '0' then some ([c], rest)
    else if isPlainDigit c then some (c :: rest.takeWhile isPlainDigit, rest.dropWhile isPlainDigit)
    else none

/-- Splits a fraction off, nothing if no digit follows the point. -/
def takeFraction : List Char → List Char × List Char
  | '.' :: rest =>
    let (digits, rest') := takeDigits rest
    if digits.isEmpty then ([], '.' :: rest) else ('.' :: digits, rest')
  | cs => ([], cs)

def takeExponentSign : List Char → List Char × List Char
  | '+' :: rest => (['+'], rest)
  | '-' :: rest => (['-'], rest)
  | cs => ([], cs)

/-- Splits an exponent off, nothing if it has no digit. -/
def takeExponent : List Char → List Char × List Char
  | [] => ([], [])
  | c :: rest =>
    if c = 'e' ∨ c = 'E' then
      let (sign, rest') := takeExponentSign rest
      let (digits, rest'') := takeDigits rest'
      if digits.isEmpty then ([], c :: rest) else (c :: (sign ++ digits), rest'')
    else ([], c :: rest)

def takeNumber? (cs : List Char) : Option (List Char × List Char) :=
  (takeWhole? cs).map fun (whole, rest) =>
    let (fraction, rest') := takeFraction rest
    let (exponent, rest'') := takeExponent rest'
    (whole ++ fraction ++ exponent, rest'')

def takeName? : List Char → Option (List Char × List Char)
  | [] => none
  | c :: rest =>
    if isNameStart c then some (c :: rest.takeWhile isNameChar, rest.dropWhile isNameChar)
    else none

/-- Splits the longest lexeme off the front of a text. -/
def take? (cs : List Char) : Option (Lexeme × List Char) :=
  match takeSymbol? cs with
  | some (s, rest) => some (.symbol s, rest)
  | none =>
    match takeNumber? cs with
    | some (text, rest) => some (.number (String.ofList text), rest)
    | none => (takeName? cs).map fun (name, rest) => (.identifier (String.ofList name), rest)

/-- A symbol is split off as it is spelled. -/
theorem takeSymbol?_append {cs rest : List Char} {s : Symbol}
    (h : takeSymbol? cs = some (s, rest)) : cs = s.spelling ++ rest := by
  unfold takeSymbol? at h
  split at h <;> simp_all [Symbol.spelling] <;> obtain ⟨rfl, rfl⟩ := h <;> rfl

theorem takeDigits_append (cs : List Char) : (takeDigits cs).1 ++ (takeDigits cs).2 = cs :=
  List.takeWhile_append_dropWhile

theorem takeFraction_append (cs : List Char) : (takeFraction cs).1 ++ (takeFraction cs).2 = cs := by
  unfold takeFraction
  split
  · rename_i rest
    dsimp only
    split
    · rfl
    · exact congrArg ('.' :: ·) (takeDigits_append rest)
  · rfl

theorem takeExponentSign_append (cs : List Char) :
    (takeExponentSign cs).1 ++ (takeExponentSign cs).2 = cs := by
  unfold takeExponentSign
  split <;> rfl

theorem takeExponent_append (cs : List Char) : (takeExponent cs).1 ++ (takeExponent cs).2 = cs := by
  unfold takeExponent
  split
  · rfl
  · rename_i c rest
    split
    · dsimp only
      split
      · rfl
      · rw [List.cons_append, List.append_assoc, takeDigits_append, takeExponentSign_append]
    · rfl

/-- A number is split off at the front and loses no character; it is never empty. -/
theorem takeNumber?_append {cs text rest : List Char} (h : takeNumber? cs = some (text, rest)) :
    cs = text ++ rest ∧ text ≠ [] := by
  unfold takeNumber? at h
  obtain ⟨⟨whole, after⟩, hWhole, hRest⟩ := Option.map_eq_some_iff.mp h
  simp only [Prod.mk.injEq] at hRest
  obtain ⟨rfl, rfl⟩ := hRest
  have hSplit : cs = whole ++ after ∧ whole ≠ [] := by
    unfold takeWhole? at hWhole
    split at hWhole
    · cases hWhole
    · split at hWhole
      · simp only [Option.some.injEq, Prod.mk.injEq] at hWhole
        obtain ⟨rfl, rfl⟩ := hWhole
        simp
      · split at hWhole
        · simp only [Option.some.injEq, Prod.mk.injEq] at hWhole
          obtain ⟨rfl, rfl⟩ := hWhole
          simp [List.takeWhile_append_dropWhile]
        · cases hWhole
  refine ⟨?_, by simp [hSplit.2]⟩
  rw [List.append_assoc, takeExponent_append, List.append_assoc, takeFraction_append]
  exact hSplit.1

/-- A name is split off at the front and loses no character; it is never empty. -/
theorem takeName?_append {cs name rest : List Char} (h : takeName? cs = some (name, rest)) :
    cs = name ++ rest ∧ name ≠ [] := by
  unfold takeName? at h
  split at h
  · cases h
  · split at h
    · simp only [Option.some.injEq, Prod.mk.injEq] at h
      obtain ⟨rfl, rfl⟩ := h
      simp [List.takeWhile_append_dropWhile]
    · cases h

/-- A lexeme is split off as it is spelled. -/
theorem take?_append {cs rest : List Char} {l : Lexeme} (h : take? cs = some (l, rest)) :
    cs = l.spelling ++ rest ∧ l.spelling ≠ [] := by
  unfold take? at h
  split at h
  · rename_i s after hSymbol
    simp only [Option.some.injEq, Prod.mk.injEq] at h
    obtain ⟨rfl, rfl⟩ := h
    refine ⟨takeSymbol?_append hSymbol, ?_⟩
    simp only [spelling]
    unfold Symbol.spelling
    split <;> simp
  · split at h
    · rename_i text after hNumber
      simp only [Option.some.injEq, Prod.mk.injEq] at h
      obtain ⟨rfl, rfl⟩ := h
      simpa [spelling] using takeNumber?_append hNumber
    · obtain ⟨⟨name, after⟩, hName, hEq⟩ := Option.map_eq_some_iff.mp h
      simp only [Prod.mk.injEq] at hEq
      obtain ⟨rfl, rfl⟩ := hEq
      simpa [spelling] using takeName?_append hName

/-- What follows a lexeme is shorter than the text it was split off. -/
theorem take?_length_lt {cs rest : List Char} {l : Lexeme} (h : take? cs = some (l, rest)) :
    rest.length < cs.length := by
  obtain ⟨hEq, hNe⟩ := take?_append h
  have hPos : 0 < l.spelling.length := List.length_pos_iff.mpr hNe
  rw [hEq, List.length_append]
  omega

end Lexeme

/-- A character that starts no token, and its offset. -/
structure Stop where
  pos : Nat
  char : Char
deriving DecidableEq, Repr

/-- The tokens of a source, up to its end or to the place where scanning stopped. -/
structure Scan where
  tokens : List Token
  stop : Option Stop
deriving DecidableEq, Repr

/-- Scans a text that starts at the given offset of its source. -/
def scanFrom (pos : Nat) (cs : List Char) : Scan :=
  match cs with
  | [] => ⟨[], none⟩
  | c :: rest =>
    if c = ' ' then scanFrom (pos + 1) rest
    else
      match h : Lexeme.take? (c :: rest) with
      | none => ⟨[], some ⟨pos, c⟩⟩
      | some (l, after) =>
        have : after.length ≤ rest.length := Nat.le_of_lt_succ (Lexeme.take?_length_lt h)
        let following := scanFrom (pos + l.spelling.length) after
        ⟨⟨l, pos⟩ :: following.tokens, following.stop⟩
termination_by cs.length

def scan (source : String) : Scan :=
  scanFrom 0 source.toList

end StackCalc
