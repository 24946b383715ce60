import StackCalc.Number.Reader
import StackCalc.Toml.Problem
import StackCalc.Toml.Value

/-! Reading the values of a TOML document that hold no other values: strings, numbers, dates and
times. Every reader splits what it reads off the front of a text and gives the rest. -/
namespace StackCalc.Toml
open Text (isPlainDigit)

def isBlank (c : Char) : Bool :=
  c == ' ' || c == '\t'

def isGap (c : Char) : Bool :=
  isBlank c || c == '\n'

/-- A character that may not stand in a comment or a one-line string. -/
def isForbidden (c : Char) : Bool :=
  (c.toNat < 0x20 && c != '\t') || c.toNat == 0x7F

def isHexDigit (c : Char) : Bool :=
  isPlainDigit c || ('a' ≤ c && c ≤ 'f') || ('A' ≤ c && c ≤ 'F')

def hexValue (c : Char) : Nat :=
  if isPlainDigit c then c.toNat - '0'.toNat
  else c.toLower.toNat - 'a'.toNat + 10

def natOf (base : Nat) (digits : List Char) : Nat :=
  digits.foldl (fun n c => base * n + hexValue c) 0

def takeCodePoint? (width : Nat) (cs : List Char) : Option (List Char × List Char) :=
  let digits := cs.take width
  let code := natOf 16 digits
  if digits.length = width ∧ digits.all isHexDigit ∧ code.isValidChar then
    some ([Char.ofNat code], cs.drop width)
  else none

/-- What a line feed behind a backslash, perhaps after blanks, stands for: nothing, and all blanks
and line feeds behind it are dropped. -/
def takeContinuation? (cs : List Char) : Option (List Char × List Char) :=
  match cs.dropWhile isBlank with
  | '\n' :: rest => some ([], rest.dropWhile isGap)
  | _ => none

def takeEscape? (multiline : Bool) (cs : List Char) : Option (List Char × List Char) :=
  match cs with
  | 'b' :: rest => some ([Char.ofNat 0x08], rest)
  | 't' :: rest => some (['\t'], rest)
  | 'n' :: rest => some (['\n'], rest)
  | 'f' :: rest => some ([Char.ofNat 0x0C], rest)
  | 'r' :: rest => some (['\r'], rest)
  | '"' :: rest => some (['"'], rest)
  | '\\' :: rest => some (['\\'], rest)
  | 'u' :: rest => takeCodePoint? 4 rest
  | 'U' :: rest => takeCodePoint? 8 rest
  | _ => if multiline then takeContinuation? cs else none

theorem takeContinuation?_length_le {cs text rest : List Char}
    (h : takeContinuation? cs = some (text, rest)) : rest.length ≤ cs.length := by
  unfold takeContinuation? at h
  split at h
  · rename_i after hAfter
    simp only [Option.some.injEq, Prod.mk.injEq] at h
    have hFirst : (cs.dropWhile isBlank).length ≤ cs.length :=
      (List.dropWhile_suffix isBlank).length_le
    have hSecond : (after.dropWhile isGap).length ≤ after.length :=
      (List.dropWhile_suffix isGap).length_le
    rw [hAfter, List.length_cons] at hFirst
    rw [← h.2]
    omega
  · cases h

theorem takeCodePoint?_length_le {width : Nat} {cs text rest : List Char}
    (h : takeCodePoint? width cs = some (text, rest)) : rest.length ≤ cs.length := by
  unfold takeCodePoint? at h
  dsimp only at h
  split at h
  · simp only [Option.some.injEq, Prod.mk.injEq] at h
    rw [← h.2, List.length_drop]
    omega
  · cases h

/-- An escape leaves no more than the text behind its backslash. -/
theorem takeEscape?_length_le {multiline : Bool} {cs text rest : List Char}
    (h : takeEscape? multiline cs = some (text, rest)) : rest.length ≤ cs.length := by
  unfold takeEscape? at h
  split at h
  case h_8 => have := takeCodePoint?_length_le h; simp only [List.length_cons]; omega
  case h_9 => have := takeCodePoint?_length_le h; simp only [List.length_cons]; omega
  case h_10 =>
    split at h
    · exact takeContinuation?_length_le h
    · cases h
  all_goals
    simp only [Option.some.injEq, Prod.mk.injEq] at h
    rw [← h.2, List.length_cons]
    omega

/-- The rest of a string in double quotes, up to the closing quote or quotes. -/
def takeBasic? (multiline : Bool) (cs : List Char) : Option (List Char × List Char) :=
  match cs with
  | [] => none
  | c :: rest =>
    if c = '"' then
      if !multiline then some ([], rest)
      else if rest.take 2 = ['"', '"'] then some ([], rest.drop 2)
      else (takeBasic? multiline rest).map fun (text, after) => (c :: text, after)
    else if c = '\\' then
      match h : takeEscape? multiline rest with
      | some (text, after) =>
        have := takeEscape?_length_le h
        (takeBasic? multiline after).map fun (text', after') => (text ++ text', after')
      | none => none
    else if isForbidden c && !(multiline && c == '\n') then none
    else (takeBasic? multiline rest).map fun (text, after) => (c :: text, after)
termination_by cs.length

/-- The rest of a string in single quotes, up to the closing quote or quotes. -/
def takeLiteral? (multiline : Bool) : List Char → Option (List Char × List Char)
  | [] => none
  | c :: rest =>
    if c = '\'' then
      if !multiline then some ([], rest)
      else if rest.take 2 = ['\'', '\''] then some ([], rest.drop 2)
      else (takeLiteral? multiline rest).map fun (text, after) => (c :: text, after)
    else if isForbidden c && !(multiline && c == '\n') then none
    else (takeLiteral? multiline rest).map fun (text, after) => (c :: text, after)

/-- Up to two quotes directly behind the closing quotes belong to the text. -/
def takeExtraQuotes (quote : Char) (text rest : List Char) : List Char × List Char :=
  let extra := (rest.take 2).takeWhile (· = quote)
  (text ++ extra, rest.drop extra.length)

def dropFirstLineFeed : List Char → List Char
  | '\n' :: rest => rest
  | cs => cs

def takeString? (cs : List Char) : Option (String × List Char) :=
  let result :=
    match cs with
    | '"' :: '"' :: '"' :: rest =>
      (takeBasic? true (dropFirstLineFeed rest)).map fun (text, after) =>
        takeExtraQuotes '"' text after
    | '\'' :: '\'' :: '\'' :: rest =>
      (takeLiteral? true (dropFirstLineFeed rest)).map fun (text, after) =>
        takeExtraQuotes '\'' text after
    | '"' :: rest => takeBasic? false rest
    | '\'' :: rest => takeLiteral? false rest
    | _ => none
  result.map fun (text, after) => (String.ofList text, after)

/-- More digits, with a single underscore allowed before each of them. -/
def takeMoreDigits (isDigit : Char → Bool) : List Char → List Char × List Char
  | [] => ([], [])
  | c :: rest =>
    if isDigit c then
      let (digits, after) := takeMoreDigits isDigit rest
      (c :: digits, after)
    else
      match c, rest with
      | '_', d :: rest' =>
        if isDigit d then
          let (digits, after) := takeMoreDigits isDigit rest'
          (d :: digits, after)
        else ([], c :: rest)
      | _, _ => ([], c :: rest)

/-- Digits in groups, at least one. -/
def takeGroups? (isDigit : Char → Bool) : List Char → Option (List Char × List Char)
  | [] => none
  | c :: rest =>
    if isDigit c then
      let (digits, after) := takeMoreDigits isDigit rest
      some (c :: digits, after)
    else none

/-- A natural in base sixteen, eight or two, by the letter that announces it. -/
def takeBased? : List Char → Option (Nat × List Char)
  | '0' :: 'x' :: rest => (takeGroups? isHexDigit rest).map fun (ds, after) => (natOf 16 ds, after)
  | '0' :: 'o' :: rest =>
    (takeGroups? (fun c => '0' ≤ c && c ≤ '7') rest).map fun (ds, after) => (natOf 8 ds, after)
  | '0' :: 'b' :: rest =>
    (takeGroups? (fun c => c == '0' || c == '1') rest).map fun (ds, after) => (natOf 2 ds, after)
  | _ => none

/-- The whole part of a number: a lone zero, or digits that do not start with one. -/
def takeWhole? : List Char → Option (List Char × List Char)
  | '0' :: rest => some (['0'], rest)
  | cs => takeGroups? isPlainDigit cs

def takeFraction (cs : List Char) : List Char × List Char :=
  match cs with
  | '.' :: rest =>
    match takeGroups? isPlainDigit rest with
    | some (digits, after) => ('.' :: digits, after)
    | none => ([], cs)
  | _ => ([], cs)

def takeExponent (cs : List Char) : List Char × List Char :=
  match cs with
  | c :: rest =>
    if c = 'e' ∨ c = 'E' then
      let (sign, unsigned) :=
        match rest with
        | '+' :: after => (['+'], after)
        | '-' :: after => (['-'], after)
        | _ => ([], rest)
      match takeGroups? isPlainDigit unsigned with
      | some (digits, after) => ('e' :: (sign ++ digits), after)
      | none => ([], cs)
    else ([], cs)
  | [] => ([], [])

def takeDecimal (cs : List Char) : Except Problem (Value × List Char) :=
  let (negative, unsigned) := Number.takeSign cs
  match takeWhole? unsigned with
  | none => .error .malformed
  | some (whole, afterWhole) =>
    let (fraction, afterFraction) := takeFraction afterWhole
    let (exponent, after) := takeExponent afterFraction
    if fraction.isEmpty && exponent.isEmpty then
      if digitLimit < whole.length then .error (.tooManyDigits whole.length)
      else
        let n : Int := natOf 10 whole
        .ok (.integer (if negative then -n else n), after)
    else
      required ((Number.readChars? (Number.signed negative (whole ++ fraction ++ exponent))).map
        fun x => (.real x, after))

def takeNamed? (cs : List Char) : Option (Value × List Char) :=
  let (negative, unsigned) := Number.takeSign cs
  match unsigned with
  | 'i' :: 'n' :: 'f' :: rest => some (.real (Number.infinity negative), rest)
  | 'n' :: 'a' :: 'n' :: rest => some (.real Number.undefined, rest)
  | _ => none

/-- Exactly `count` digits that form a number in a range. -/
def takeField? (count low high : Nat) (cs : List Char) : Option (Nat × List Char) :=
  let digits := cs.take count
  let n := natOf 10 digits
  if digits.length = count ∧ digits.all isPlainDigit ∧ low ≤ n ∧ n ≤ high then
    some (n, cs.drop count)
  else none

def takeChar? (c : Char) : List Char → Option (List Char)
  | d :: rest => if d = c then some rest else none
  | [] => none

/-- Year, month and day with dashes. The day need not be in the calendar. -/
def takeDate? (cs : List Char) : Option (Date × List Char) := do
  let (year, cs) ← takeField? 4 0 9999 cs
  let cs ← takeChar? '-' cs
  let (month, cs) ← takeField? 2 1 12 cs
  let cs ← takeChar? '-' cs
  let (day, cs) ← takeField? 2 1 31 cs
  return (⟨year, month, day⟩, cs)

/-- The microseconds of a fraction of a second; digits behind the sixth are dropped. -/
def takeMicros (cs : List Char) : Nat × List Char :=
  match cs with
  | '.' :: rest =>
    let digits := rest.takeWhile isPlainDigit
    let six := digits.take 6
    if digits.isEmpty then (0, cs)
    else (natOf 10 (six ++ List.replicate (6 - six.length) '0'), rest.dropWhile isPlainDigit)
  | _ => (0, cs)

/-- Hours, minutes and seconds with colons, and perhaps a fraction. -/
def takeTime? (cs : List Char) : Option (Time × List Char) := do
  let (hour, cs) ← takeField? 2 0 23 cs
  let cs ← takeChar? ':' cs
  let (minute, cs) ← takeField? 2 0 59 cs
  let cs ← takeChar? ':' cs
  let (second, cs) ← takeField? 2 0 59 cs
  let (micro, cs) := takeMicros cs
  return (⟨hour, minute, second, micro⟩, cs)

def takeHourMinute? (cs : List Char) : Option (Nat × List Char) := do
  let (hour, cs) ← takeField? 2 0 23 cs
  let cs ← takeChar? ':' cs
  let (minute, cs) ← takeField? 2 0 59 cs
  return (60 * hour + minute, cs)

/-- The offset from universal time in minutes, if there is one. -/
def takeOffset (cs : List Char) : Option Int × List Char :=
  match cs with
  | 'Z' :: rest | 'z' :: rest => (some 0, rest)
  | '+' :: rest =>
    match takeHourMinute? rest with
    | some (minutes, after) => (some minutes, after)
    | none => (none, cs)
  | '-' :: rest =>
    match takeHourMinute? rest with
    | some (minutes, after) => (some (-minutes), after)
    | none => (none, cs)
  | _ => (none, cs)

def takeDayTime? : List Char → Option (Time × List Char)
  | c :: rest => if c = 'T' ∨ c = 't' ∨ c = ' ' then takeTime? rest else none
  | [] => none

/-- A date, perhaps with a time and an offset, that is in the calendar. -/
def takeDateTime? (cs : List Char) : Option (Value × List Char) :=
  match takeDate? cs with
  | some (d, afterDate) =>
    if d.valid then
      match takeDayTime? afterDate with
      | some (t, afterTime) =>
        let (offset, after) := takeOffset afterTime
        some (.dateTime d t offset, after)
      | none => some (.date d, afterDate)
    else none
  | none => (takeTime? cs).map fun (t, after) => (.time t, after)

def takeBoolean? : List Char → Option (Value × List Char)
  | 't' :: 'r' :: 'u' :: 'e' :: rest => some (.boolean true, rest)
  | 'f' :: 'a' :: 'l' :: 's' :: 'e' :: rest => some (.boolean false, rest)
  | _ => none

/-- A value that holds no other values and is not a number in decimal digits. -/
def takeSimple? (cs : List Char) : Option (Value × List Char) :=
  ((takeString? cs).map fun (s, after) => (.text s, after))
    <|> takeBoolean? cs
    <|> takeDateTime? cs
    <|> ((takeBased? cs).map fun (n, after) => (.integer n, after))
    <|> takeNamed? cs

/-- A value that holds no other values. A date is tried before a number, because it starts like
one. -/
def takeScalar (cs : List Char) : Except Problem (Value × List Char) :=
  match takeSimple? cs with
  | some found => .ok found
  | none => takeDecimal cs

end StackCalc.Toml
