import StackCalc.Number.Written
import StackCalc.Text.Quoted
import StackCalc.Toml.Problem

/-! The values of a TOML document, and how they are shown in messages. -/
namespace StackCalc.Toml

structure Date where
  year : Nat
  month : Nat
  day : Nat
deriving DecidableEq, Repr

structure Time where
  hour : Nat
  minute : Nat
  second : Nat
  micro : Nat
deriving DecidableEq, Repr

/-- A value of a document. The entries of a table keep their order. -/
inductive Value where
  | text (s : String)
  | integer (n : Int)
  | real (x : Float)
  | boolean (b : Bool)
  | date (d : Date)
  | time (t : Time)
  /-- A day and a time, with the minutes ahead of universal time if an offset is given. -/
  | dateTime (d : Date) (t : Time) (offset : Option Int)
  | array (items : List Value)
  | table (entries : List (String × Value))

abbrev Table := List (String × Value)

def daysIn (year month : Nat) : Nat :=
  if month = 2 then
    if (year % 4 = 0 ∧ year % 100 ≠ 0) ∨ year % 400 = 0 then 29 else 28
  else if month = 4 ∨ month = 6 ∨ month = 9 ∨ month = 11 then 30
  else 31

/-- Whether a day is in the calendar, which starts with the year one. -/
def Date.valid (d : Date) : Bool :=
  1 ≤ d.year && 1 ≤ d.month && d.month ≤ 12 && 1 ≤ d.day && d.day ≤ daysIn d.year d.month

/-- Hour and minute, then seconds and microseconds unless both, or the latter, are zero. -/
def Time.fields (t : Time) : List Nat :=
  if t.micro ≠ 0 then [t.hour, t.minute, t.second, t.micro]
  else if t.second ≠ 0 then [t.hour, t.minute, t.second]
  else [t.hour, t.minute]

def Date.fields (d : Date) : List Nat :=
  [d.year, d.month, d.day]

def listed (fields : List Nat) : String :=
  ", ".intercalate (fields.map fun n => String.ofList (Nat.toDigits 10 n))

/-- An offset from universal time, in whole days and the seconds of the last one. -/
def describeOffset (minutes : Int) : String :=
  let seconds := minutes * 60
  let days := seconds / 86400
  let rest := seconds % 86400
  let span := (if days ≠ 0 then [s!"days={days}"] else []) ++
    (if rest ≠ 0 then [s!"seconds={rest}"] else [])
  let inside := ", ".intercalate span
  if minutes = 0 then "datetime.timezone.utc"
  else s!"datetime.timezone(datetime.timedelta({inside}))"

mutual

def Value.describe : Value → String
  | .text s => Text.quoted s
  | .integer n => String.ofList (Number.writtenInt n)
  | .real x => Number.text x
  | .boolean true => "True"
  | .boolean false => "False"
  | .date d => s!"datetime.date({listed d.fields})"
  | .time t => s!"datetime.time({listed t.fields})"
  | .dateTime d t none => s!"datetime.datetime({listed (d.fields ++ t.fields)})"
  | .dateTime d t (some offset) =>
    s!"datetime.datetime({listed (d.fields ++ t.fields)}, tzinfo={describeOffset offset})"
  | .array items => "[" ++ ", ".intercalate (describeItems items) ++ "]"
  | .table entries => "\x7b" ++ ", ".intercalate (describeEntries entries) ++ "\x7d"

def describeItems : List Value → List String
  | [] => []
  | item :: rest => item.describe :: describeItems rest

def describeEntries : List (String × Value) → List String
  | [] => []
  | (key, value) :: rest => (Text.quoted key ++ ": " ++ value.describe) :: describeEntries rest

end

/-- Why messages cannot show a value. -/
inductive Obstacle where
  /-- An integer has more digits than are written. -/
  | tooLong
  /-- Values are nested deeper than they are shown. -/
  | tooDeep
deriving DecidableEq, Repr

mutual

/-- What keeps messages from showing a value, if anything does: the first obstacle in its text.
`room` is what is left for the value and those nested in it, also for an offset and its span. -/
def Value.obstacle? : Nat → Value → Option Obstacle
  | 0, _ => some .tooDeep
  | room + 1, value =>
    match value with
    | .integer n => if Nat.pow 10 digitLimit ≤ n.natAbs then some .tooLong else none
    | .dateTime _ _ (some offset) =>
      if room < (if offset = 0 then 1 else 2) then some .tooDeep else none
    | .array items => itemsObstacle? room items
    | .table entries => entriesObstacle? room entries
    | _ => none

def itemsObstacle? : Nat → List Value → Option Obstacle
  | _, [] => none
  | room, item :: rest =>
    match item.obstacle? room with
    | some obstacle => some obstacle
    | none => itemsObstacle? room rest

def entriesObstacle? : Nat → List (String × Value) → Option Obstacle
  | _, [] => none
  | room, (_, value) :: rest =>
    match value.obstacle? room with
    | some obstacle => some obstacle
    | none => entriesObstacle? room rest

end

def Value.typeName : Value → String
  | .text _ => "str"
  | .integer _ => "int"
  | .real _ => "float"
  | .boolean _ => "bool"
  | .date _ => "datetime.date"
  | .time _ => "datetime.time"
  | .dateTime .. => "datetime.datetime"
  | .array _ => "list"
  | .table _ => "dict"

end StackCalc.Toml
