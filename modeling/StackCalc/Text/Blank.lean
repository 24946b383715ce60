/-! Blank characters and trimming. Three sets of blanks are in use: all blanks, for names and
lines; the blanks around a number, which leave out the four information separators; and the
single space between tokens, which needs no predicate. -/
namespace StackCalc.Text

/-- The blanks of plain text: space, tab, line feed, vertical tab, form feed, carriage return. -/
def isPlainBlank (c : Char) : Bool :=
  c == ' ' || (0x09 ≤ c.toNat && c.toNat ≤ 0x0D)

/-- Every blank character: the plain blanks, the information separators, the next-line mark and
all space separators. -/
def isBlank (c : Char) : Bool :=
  let n := c.toNat
  isPlainBlank c || (0x1C ≤ n && n ≤ 0x1F) || n == 0x85 || n == 0xA0 || n == 0x1680 ||
    (0x2000 ≤ n && n ≤ 0x200A) || n == 0x2028 || n == 0x2029 || n == 0x202F || n == 0x205F ||
    n == 0x3000

/-- The blanks that may surround a number: the plain ones and the blanks beyond ASCII. -/
def isNumberBlank (c : Char) : Bool :=
  isPlainBlank c || (0x80 ≤ c.toNat && isBlank c)

def trim (drop : Char → Bool) (cs : List Char) : List Char :=
  ((cs.dropWhile drop).reverse.dropWhile drop).reverse

def stripped (text : String) : String :=
  String.ofList (trim isBlank text.toList)

end StackCalc.Text
