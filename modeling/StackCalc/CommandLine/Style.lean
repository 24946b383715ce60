import StackCalc.CommandLine.Color
import StackCalc.Text.Blank
import StackCalc.Text.Lower

/-! Styles of terminal text. A style is given by words: attributes, perhaps with `not` in front, a
color, a background behind `on`, and an address behind `link`. Several texts may give one style, so
each style has one description. -/
namespace StackCalc

/-- What a style can switch on or off. -/
inductive Style.Attribute where
  | bold
  | dim
  | italic
  | underline
  | blink
  | blink2
  | reverse
  | conceal
  | strike
  | underline2
  | frame
  | encircle
  | overline
deriving DecidableEq, Repr

structure Style where
  /-- The attributes that are switched on or off. -/
  attributes : List (Style.Attribute × Bool) := []
  color : Option (List Char) := none
  background : Option (List Char) := none
  link : Option (List Char) := none
deriving DecidableEq, Repr

namespace Style

/-- The attributes with their names, in the order of descriptions. -/
def Attribute.named : List (Attribute × String) := [
  (.bold, "bold"), (.dim, "dim"), (.italic, "italic"), (.underline, "underline"),
  (.blink, "blink"), (.blink2, "blink2"), (.reverse, "reverse"), (.conceal, "conceal"),
  (.strike, "strike"), (.underline2, "underline2"), (.frame, "frame"), (.encircle, "encircle"),
  (.overline, "overline")
]

def Attribute.abbreviated : List (Attribute × String) := [
  (.bold, "b"), (.dim, "d"), (.italic, "i"), (.underline, "u"), (.reverse, "r"), (.conceal, "c"),
  (.strike, "s"), (.underline2, "uu"), (.overline, "o")
]

def Attribute.ofName? (word : List Char) : Option Attribute :=
  ((named ++ abbreviated).find? fun entry => entry.2.toList = word).map (·.1)

def switch (s : Style) (a : Attribute) (on : Bool) : Style :=
  { s with attributes := (a, on) :: s.attributes }

/-- Why words give no style. -/
inductive Problem where
  | notStyle
  /-- One of three components of a color has no digits. -/
  | missingNumber
deriving DecidableEq, Repr

def colorOf (word : List Char) : Except Problem (List Char) :=
  let word := Text.lowered word
  match Color.read word with
  | .color => .ok word
  | .noColor => .error .notStyle
  | .missingNumber => .error .missingNumber

/-- Reads the words of a style, the first that has no meaning being the problem. -/
def readWords (s : Style) : List (List Char) → Except Problem Style
  | [] => .ok s
  | [word] =>
    let lower := Text.lowered word
    if ["on", "not", "link"].contains (String.ofList lower) then .error .notStyle
    else
      match Attribute.ofName? lower with
      | some a => .ok (s.switch a true)
      | none => (colorOf word).map fun color => { s with color := some color }
  | word :: next :: rest =>
    let lower := Text.lowered word
    match String.ofList lower with
    | "on" =>
      match colorOf next with
      | .ok color => readWords { s with background := some color } rest
      | .error problem => .error problem
    | "not" =>
      match Attribute.ofName? next with
      | some a => readWords (s.switch a false) rest
      | none => .error .notStyle
    | "link" => readWords { s with link := some next } rest
    | _ =>
      match Attribute.ofName? lower with
      | some a => readWords (s.switch a true) (next :: rest)
      | none =>
        match colorOf word with
        | .ok color => readWords { s with color := some color } (next :: rest)
        | .error problem => .error problem

def words : List Char → List (List Char)
  | [] => []
  | [c] => if Text.isBlank c then [] else [[c]]
  | c :: d :: rest =>
    if Text.isBlank c then words (d :: rest)
    else if Text.isBlank d then [c] :: words (d :: rest)
    else
      match words (d :: rest) with
      | first :: others => (c :: first) :: others
      | [] => [[c]]

/-- The style that a text gives. The word `none` alone gives the style that changes nothing. -/
def read (text : List Char) : Except Problem Style :=
  if Text.trim Text.isBlank text = "none".toList then .ok {} else readWords {} (words text)

/-- A style in words; two texts give one style if these words agree. -/
def describe (s : Style) : List Char :=
  let attributes := Attribute.named.filterMap fun (a, name) =>
    (s.attributes.lookup a).map fun on => if on then name.toList else "not ".toList ++ name.toList
  let parts := attributes ++ s.color.toList ++
    (s.background.map fun color => "on ".toList ++ color).toList ++
    (s.link.map fun address => "link ".toList ++ address).toList
  if parts.isEmpty then "none".toList else [' '].intercalate parts

/-- The one form of all texts that give the same style. A text that gives none is kept, in lower
case and without blanks at its ends. -/
def canonical (text : List Char) : Except Problem (List Char) :=
  match read text with
  | .ok s => .ok s.describe
  | .error .notStyle => .ok (Text.lowered (Text.trim Text.isBlank text))
  | .error .missingNumber => .error .missingNumber

end Style

end StackCalc
