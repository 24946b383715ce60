import StackCalc.CommandLine.Cell
import StackCalc.Registers

/-! The table of registers, drawn with box characters: a title, a head with two columns, and a row
for each register in the order of the names. A name may hold tags. -/
namespace StackCalc.Grid

def fill (n : Nat) (c : Char) : String :=
  String.ofList (List.replicate n c)

def width (text : String) : Nat :=
  Text.width text.toList

def padRight (cells : Nat) (text : String) : String :=
  text ++ fill (cells - width text) ' '

def padLeft (cells : Nat) (text : String) : String :=
  fill (cells - width text) ' ' ++ text

/-- A text in the middle of a width; an odd space goes to the right. -/
def centred (cells : Nat) (text : String) : String :=
  padRight cells (fill ((cells - width text) / 2) ' ' ++ text)

/-- The name of a register as a cell shows it. -/
def nameCell : Name → Except MarkupError Styled
  | .text s => Styled.ofMarkup s
  | name => .ok ⟨name.describe.toList, [], []⟩

def cells (bar first second : String) : String :=
  bar ++ " " ++ first ++ " " ++ bar ++ " " ++ second ++ " " ++ bar

/-- The lines of a row: the first cell may have several, the second stands on the first of them. -/
def row (left right : Nat) (first : Styled) (second : String) : List String :=
  match first.cellLines left with
  | [] => []
  | line :: others =>
    cells "│" line (padLeft right second) ::
      others.map fun line => cells "│" line (fill right ' ')

/-- The lines of a table with two columns, the first flush left and the second flush right. -/
def draw (title : String) (head : String × String) (rows : List (Styled × String)) : List String :=
  let left := (rows.map fun r => r.1.measure).foldl max (width head.1)
  let right := (rows.map fun r => width r.2).foldl max (width head.2)
  let rule (start cross stop : String) (line : Char) :=
    start ++ fill (left + 2) line ++ cross ++ fill (right + 2) line ++ stop
  [centred (left + right + 7) title,
    rule "┏" "┳" "┓" '━',
    cells "┃" (padRight left head.1) (padLeft right head.2),
    rule "┡" "╇" "┩" '━'] ++
  (rows.flatMap fun r => row left right r.1 r.2) ++
  [rule "└" "┴" "┘" '─']

/-- The table of registers. All names are measured before the first of them is shown, so a tag that
closes nothing is found first. -/
def registers (r : Registers) : Except MarkupError (List String) := do
  let measured ← r.sorted.mapM fun (name, x) => do return (← nameCell name, Number.brief x)
  let rows ← measured.mapM fun (name, x) => do return (← name.checked, x)
  return draw "Registers" ("Name", "Value") rows

end StackCalc.Grid
