import StackCalc.Text.Digit

/-! Colors of terminal text. A color has a name, or a number in a palette, or three components. -/
namespace StackCalc.Color

def names : List String := [
  "default", "black", "red", "green", "yellow", "blue", "magenta", "cyan", "white",
  "bright_black", "bright_red", "bright_green", "bright_yellow", "bright_blue", "bright_magenta",
  "bright_cyan", "bright_white", "navy_blue", "dark_blue", "blue3", "blue1", "dark_green",
  "deep_sky_blue4", "dodger_blue3", "dodger_blue2", "green4", "spring_green4", "turquoise4",
  "deep_sky_blue3", "dodger_blue1", "green3", "spring_green3", "dark_cyan", "light_sea_green",
  "deep_sky_blue2", "deep_sky_blue1", "spring_green2", "cyan3", "dark_turquoise", "turquoise2",
  "green1", "spring_green1", "medium_spring_green", "cyan2", "cyan1", "dark_red", "deep_pink4",
  "purple4", "purple3", "blue_violet", "orange4", "medium_purple4", "slate_blue3", "royal_blue1",
  "chartreuse4", "dark_sea_green4", "pale_turquoise4", "steel_blue", "steel_blue3",
  "cornflower_blue", "chartreuse3", "cadet_blue", "sky_blue3", "steel_blue1", "pale_green3",
  "sea_green3", "aquamarine3", "medium_turquoise", "chartreuse2", "sea_green2", "sea_green1",
  "aquamarine1", "dark_slate_gray2", "dark_magenta", "dark_violet", "purple", "light_pink4",
  "plum4", "medium_purple3", "slate_blue1", "yellow4", "wheat4", "light_slate_grey",
  "light_slate_gray", "medium_purple", "light_slate_blue", "dark_olive_green3", "dark_sea_green",
  "light_sky_blue3", "sky_blue2", "dark_sea_green3", "dark_slate_gray3", "sky_blue1",
  "chartreuse1", "light_green", "pale_green1", "dark_slate_gray1", "red3", "medium_violet_red",
  "magenta3", "dark_orange3", "indian_red", "hot_pink3", "medium_orchid3", "medium_orchid",
  "medium_purple2", "dark_goldenrod", "light_salmon3", "rosy_brown", "medium_purple1", "gold3",
  "dark_khaki", "navajo_white3", "light_steel_blue3", "light_steel_blue", "yellow3",
  "dark_sea_green2", "light_cyan3", "light_sky_blue1", "green_yellow", "dark_olive_green2",
  "dark_sea_green1", "pale_turquoise1", "deep_pink3", "magenta2", "hot_pink2", "orchid",
  "medium_orchid1", "orange3", "light_pink3", "pink3", "plum3", "violet", "light_goldenrod3",
  "tan", "misty_rose3", "thistle3", "plum2", "khaki3", "light_goldenrod2", "light_yellow3",
  "light_steel_blue1", "yellow2", "dark_olive_green1", "honeydew2", "light_cyan1", "red1",
  "deep_pink2", "deep_pink1", "magenta1", "orange_red1", "indian_red1", "hot_pink", "dark_orange",
  "salmon1", "light_coral", "pale_violet_red1", "orchid2", "orchid1", "orange1", "sandy_brown",
  "light_salmon1", "light_pink1", "pink1", "plum1", "gold1", "navajo_white1", "misty_rose1",
  "thistle1", "yellow1", "light_goldenrod1", "khaki1", "wheat1", "cornsilk1"
]

/-- The shades of gray that have names, by the number in the name. -/
def shades : List Nat := [
  0, 3, 7, 11, 15, 19, 23, 27, 30, 35, 37, 39, 42, 46, 50, 53, 54, 58, 62, 63, 66, 69, 70, 74, 78,
  82, 84, 85, 89, 93, 100
]

def isNamed (word : String) : Bool :=
  names.contains word ||
    shades.any fun n => word = s!"gray{n}" || word = s!"grey{n}"

/-- What a word says about a color. -/
inductive Reading where
  | color
  | noColor
  /-- One of three components has no digits. -/
  | missingNumber
deriving DecidableEq, Repr

/-- What stands between an opening text and a closing bracket, if the word has that form. -/
def inside? (opening : String) (word : List Char) : Option (List Char) :=
  match opening.toList.isPrefixOf? word with
  | some rest => if rest.getLast? = some ')' then some rest.dropLast else none
  | none => none

/-- The number that decimal digits of any script stand for; nothing if there is none or if another
character is among them. -/
def numberOf? (cs : List Char) : Option Nat :=
  if cs.isEmpty then none
  else cs.foldl (fun n c => n.bind fun n => (Text.digitValue? c).map (10 * n + ·)) (some 0)

def components : List Char → List (List Char)
  | [] => [[]]
  | c :: rest =>
    if c = ',' then [] :: components rest
    else
      match components rest with
      | first :: others => (c :: first) :: others
      | [] => [[c]]

/-- Understands three components, each at most 255. -/
def readComponents (inside : List Char) : Reading :=
  if inside.all fun c => c = ',' || (Text.digitValue? c).isSome then
    match components inside with
    | [red, green, blue] =>
      match numberOf? red, numberOf? green, numberOf? blue with
      | some r, some g, some b => if r ≤ 255 && g ≤ 255 && b ≤ 255 then .color else .noColor
      | _, _, _ => .missingNumber
    | _ => .noColor
  else .noColor

def read (word : List Char) : Reading :=
  if isNamed (String.ofList word) then .color
  else
    match word with
    | '#' :: digits =>
      if digits.length = 6 && digits.all fun c => Text.isPlainDigit c || ('a' ≤ c && c ≤ 'f') then
        .color
      else .noColor
    | _ =>
      match inside? "color(" word, inside? "rgb(" word with
      | some digits, _ =>
        let isNumber := digits.length ≤ 3 && digits.all Text.isPlainDigit
        if isNumber && (numberOf? digits).any (· ≤ 255) then .color else .noColor
      | none, some inside => readComponents inside
      | none, none => .noColor

end StackCalc.Color
