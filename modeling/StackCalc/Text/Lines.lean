/-! Lines of a text. A text read from a file has one kind of line end; a text typed at a prompt is
cut at line feeds only. -/
namespace StackCalc.Text

/-- One kind of line end: a carriage return, with or without a line feed behind it, is a line
feed. -/
def unifyLineEnds : List Char → List Char
  | '\r' :: '\n' :: rest => '\n' :: unifyLineEnds rest
  | '\r' :: rest => '\n' :: unifyLineEnds rest
  | c :: rest => c :: unifyLineEnds rest
  | [] => []

/-- The lines of a text, without their line feeds. A last line need not end in one, and what
follows the last line feed is a line only if it is not empty. -/
def lines : List Char → List (List Char)
  | [] => []
  | '\n' :: rest => [] :: lines rest
  | c :: rest =>
    match lines rest with
    | first :: others => (c :: first) :: others
    | [] => [[c]]

end StackCalc.Text
