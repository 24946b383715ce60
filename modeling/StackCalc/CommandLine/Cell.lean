import StackCalc.CommandLine.Styled
import StackCalc.Text.Width

/-! Cells of a table. A text is laid out in lines of a given width: it is broken in front of a word
that does not fit any more, and each line is cut off or filled with spaces. -/
namespace StackCalc.Styled
open Text

def isLineEnd (c : Char) : Bool :=
  let n := c.toNat
  (0x0A ≤ n && n ≤ 0x0D) || (0x1C ≤ n && n ≤ 0x1E) || n == 0x85 || n == 0x2028 || n == 0x2029

/-- The width of the widest line; `line` holds the characters of the current one, backwards. -/
def measureFrom (line : List Char) : List Char → Nat
  | [] => width line.reverse
  | c :: rest =>
    if isLineEnd c then max (width line.reverse) (measureFrom [] rest)
    else measureFrom (c :: line) rest

def measure (s : Styled) : Nat :=
  measureFrom [] s.chars

/-- Cuts a text in front of every word, that is where a blank is followed by another character. -/
def cutAtWords : List Char → List (List Char)
  | [] => []
  | [c] => [[c]]
  | c :: d :: rest =>
    if isBlank c && !isBlank d then [c] :: cutAtWords (d :: rest)
    else
      match cutAtWords (d :: rest) with
      | first :: others => (c :: first) :: others
      | [] => [[c]]

/-- The words of a text, each with the blanks behind it. Blanks at the start belong to the first
word. -/
def spacedWords (cs : List Char) : List (List Char) :=
  match cutAtWords cs with
  | first :: second :: others =>
    if first.all isBlank then (first ++ second) :: others else first :: second :: others
  | pieces => pieces

def withoutEnd (cs : List Char) : List Char :=
  (cs.reverse.dropWhile isBlank).reverse

/-- The offsets at which lines of at most `limit` cells begin, the first line apart. `used` counts
the cells of the current line, and `start` is the offset of the next word. -/
def breaksFrom (limit used start : Nat) : List (List Char) → List Nat
  | [] => []
  | word :: rest =>
    let next := start + word.length
    if used + width (withoutEnd word) ≤ limit then breaksFrom limit (used + width word) next rest
    else if start = 0 then breaksFrom limit (width word) next rest
    else start :: breaksFrom limit (width word) next rest

/-- The part of a text between two offsets. Only stretches that reach into it stay. -/
def slice (s : Styled) (start stop : Nat) : Styled :=
  { s with
    chars := (s.chars.take stop).drop start
    spans := s.spans.filterMap fun (first, behind) =>
      let first := first - start
      let behind := min behind stop - start
      if first < behind then some (first, behind) else none }

def slices (s : Styled) (start : Nat) : List Nat → List Styled
  | [] => [s.slice start s.chars.length]
  | stop :: rest => s.slice start stop :: slices s stop rest

def broken (limit : Nat) (s : Styled) : List Styled :=
  match breaksFrom limit 0 0 (spacedWords s.chars) with
  | [] => [s]
  | breaks => s.slices 0 breaks

/-- Exchanges the characters for others; stretches end where the characters do. -/
def withChars (s : Styled) (chars : List Char) : Styled :=
  if chars.length < s.chars.length then
    { s with
      chars := chars
      spans := (s.spans.filter fun span => span.1 < chars.length).map fun span =>
        (span.1, min span.2 chars.length) }
  else { s with chars := chars }

/-- Drops blanks at the end of a line with more characters than it has cells. -/
def withoutExcess (limit : Nat) (s : Styled) : Styled :=
  let length := s.chars.length
  let blanks := length - (withoutEnd s.chars).length
  s.withChars (s.chars.take (length - min blanks (length - limit)))

/-- Brings a line to its width. A line that is too long ends in an ellipsis. -/
def fitted (limit : Nat) (s : Styled) : Styled :=
  if limit < width s.chars then s.withChars (resized (limit - 1) s.chars ++ ['…'])
  else s.withChars (s.chars ++ List.replicate (limit - width s.chars) ' ')

/-- Cuts characters at offsets, counted from `offset`. -/
def cutAt (cuts : List Nat) (offset : Nat) : List Char → List (List Char)
  | [] => []
  | c :: rest =>
    match cutAt cuts (offset + 1) rest with
    | [] => [[c]]
    | first :: others =>
      if cuts.contains (offset + 1) then [c] :: first :: others else (c :: first) :: others

/-- The runs of characters that are printed together, because they have the same styles. -/
def runs (s : Styled) : List (List Char) :=
  cutAt (s.spans.flatMap fun span => [span.1, span.2]) 0 s.chars

/-- As many runs as fill a number of cells. -/
def fillRuns (cells : Nat) : List (List Char) → List Char
  | [] => []
  | run :: rest =>
    if width run < cells then run ++ fillRuns (cells - width run) rest else resized cells run

/-- A line as it is printed. Runs are measured one by one, so their widths may not add up to that of
the line; what is missing is filled with spaces, and what is too much is cut off. -/
def printed (limit : Nat) (s : Styled) : String :=
  let total := s.runs.foldr (fun run total => width run + total) 0
  String.ofList
    (if total ≤ limit then s.runs.flatten ++ List.replicate (limit - total) ' '
    else fillRuns limit s.runs)

def cellLines (limit : Nat) (s : Styled) : List String :=
  (s.broken limit).map fun line => ((line.withoutExcess limit).fitted limit).printed limit

end StackCalc.Styled
