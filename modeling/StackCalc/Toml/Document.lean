import StackCalc.Toml.Scalar

/-! Reading a TOML document. A document is a list of statements: a table header, an array-of-tables
header, or an entry of the table opened last. A table may be built up from several places, but not
reopened once it has been declared, and what an inline value holds cannot be added to. -/
namespace StackCalc.Toml
open Text (isPlainDigit)

abbrev Path := List String

/-- Gives a key a value, in its old place if it has one. -/
def Table.put (key : String) (value : Value) : Table → Table
  | [] => [(key, value)]
  | entry :: rest =>
    if entry.1 = key then (key, value) :: rest else entry :: Table.put key value rest

def Table.add? (t : Table) (key : String) (value : Value) : Option Table :=
  if (t.lookup key).isSome then none else some (t ++ [(key, value)])

/-- Changes the table at a path. Tables that are missing on the way are made; a list of tables
stands for its last one if `throughArrays` is set; anything else on the way is a failure. -/
def Table.alter? (throughArrays : Bool) (path : Path) (change : Table → Option Table) (t : Table) :
    Option Table :=
  match path with
  | [] => change t
  | key :: path =>
    match t.lookup key with
    | none => (alter? throughArrays path change []).map fun sub => t.put key (.table sub)
    | some (.table sub) =>
      (alter? throughArrays path change sub).map fun sub' => t.put key (.table sub')
    | some (.array items) =>
      match throughArrays, items.getLast? with
      | true, some (.table sub) =>
        (alter? throughArrays path change sub).map fun sub' =>
          t.put key (.array (items.dropLast ++ [.table sub']))
      | _, _ => none
    | some _ => none

/-- Adds an empty table to the list of tables under a key. -/
def Table.append? (key : String) (t : Table) : Option Table :=
  match t.lookup key with
  | none => some (t.put key (.array [.table []]))
  | some (.array items) => some (t.put key (.array (items ++ [.table []])))
  | some _ => none

def Value.isCompound : Value → Bool
  | .array _ | .table _ => true
  | _ => false

def isKeyChar (c : Char) : Bool :=
  ('a' ≤ c && c ≤ 'z') || ('A' ≤ c && c ≤ 'Z') || isPlainDigit c || c == '-' || c == '_'

def takeKeyPart? (cs : List Char) : Option (String × List Char) :=
  match cs with
  | '"' :: rest => (takeBasic? false rest).map fun (text, after) => (String.ofList text, after)
  | '\'' :: rest => (takeLiteral? false rest).map fun (text, after) => (String.ofList text, after)
  | _ =>
    let bare := cs.takeWhile isKeyChar
    if bare.isEmpty then none else some (String.ofList bare, cs.dropWhile isKeyChar)

/-- A key: parts with dots between them, and blanks around the dots and behind the key. The number
of parts is bounded by `fuel`. -/
def takeKeyWithin? : Nat → List Char → Option (Path × List Char)
  | 0, _ => none
  | fuel + 1, cs =>
    match takeKeyPart? cs with
    | none => none
    | some (part, after) =>
      match after.dropWhile isBlank with
      | '.' :: rest =>
        (takeKeyWithin? fuel (rest.dropWhile isBlank)).map fun (path, after') =>
          (part :: path, after')
      | rest => some ([part], rest)

def takeKey? (cs : List Char) : Option (Path × List Char) :=
  takeKeyWithin? (cs.length + 1) cs

/-- Drops a comment, up to the end of its line; a control character in it is a failure. -/
def dropComment? (cs : List Char) : Option (List Char) :=
  match cs with
  | '#' :: rest =>
    if (rest.takeWhile (· ≠ '\n')).any isForbidden then none else some (rest.dropWhile (· ≠ '\n'))
  | _ => some cs

/-- Drops blanks, line feeds and comments inside an array. The number of comments is bounded by
`fuel`. -/
def dropGapsWithin? : Nat → List Char → Option (List Char)
  | 0, _ => none
  | fuel + 1, cs =>
    match cs.dropWhile isGap with
    | '#' :: rest => (dropComment? ('#' :: rest)).bind (dropGapsWithin? fuel)
    | rest => some rest

def dropGaps? (cs : List Char) : Option (List Char) :=
  dropGapsWithin? (cs.length + 1) cs

/-- An inline table being read: its entries, and the paths that hold inline values. -/
structure InlineTable where
  entries : Table
  closed : List Path

/-- Adds an entry to an inline table. What an inline value holds cannot be added to. -/
def InlineTable.add? (t : InlineTable) (key : Path) (value : Value) : Option InlineTable :=
  if t.closed.any (·.isPrefixOf key) then none
  else
    let added := t.entries.alter? false key.dropLast fun nest => nest.add? (key.getLastD "") value
    added.map fun entries => ⟨entries, if value.isCompound then key :: t.closed else t.closed⟩

mutual

/-- A value. The depth of nesting and the number of items are bounded by `fuel`, and `room` is what
is left for nested values. -/
def takeValueWithin : Nat → Nat → List Char → Except Problem (Value × List Char)
  | 0, _, _ => .error .malformed
  | fuel + 1, room, cs =>
    match cs with
    | '[' :: rest =>
      if room < arrayRoom then .error .tooDeep
      else do
        let (values, after) ← takeItems fuel (room - arrayRoom) (← required (dropGaps? rest))
        return (.array values, after)
    | '\x7b' :: rest =>
      if room < tableRoom then .error .tooDeep
      else
        match rest.dropWhile isBlank with
        | '\x7d' :: after => .ok (.table [], after)
        | entries => do
          let (t, after) ← takeEntries fuel (room - tableRoom) ⟨[], []⟩ entries
          return (.table t, after)
    | _ => takeScalar cs

/-- The items of an array up to its closing bracket; a comma may stand behind the last one. -/
def takeItems : Nat → Nat → List Char → Except Problem (List Value × List Char)
  | 0, _, _ => .error .malformed
  | fuel + 1, room, cs =>
    match cs with
    | ']' :: after => .ok ([], after)
    | _ => do
      let (value, afterValue) ← takeValueWithin fuel room cs
      match dropGaps? afterValue with
      | some (']' :: after) => return ([value], after)
      | some (',' :: rest) =>
        let (values, after) ← takeItems fuel room (← required (dropGaps? rest))
        return (value :: values, after)
      | _ => .error .malformed

/-- The entries of an inline table up to its closing brace; no comma may stand behind the last
one. -/
def takeEntries : Nat → Nat → InlineTable → List Char → Except Problem (Table × List Char)
  | 0, _, _, _ => .error .malformed
  | fuel + 1, room, t, cs =>
    match takeKey? cs with
    | some (key, '=' :: rest) => do
      let (value, afterValue) ← takeValueWithin fuel room (rest.dropWhile isBlank)
      match t.add? key value, afterValue.dropWhile isBlank with
      | some t', '\x7d' :: after => return (t'.entries, after)
      | some t', ',' :: rest' => takeEntries fuel room t' (rest'.dropWhile isBlank)
      | _, _ => .error .malformed
    | _ => .error .malformed

end

def takeValue (cs : List Char) : Except Problem (Value × List Char) :=
  takeValueWithin (2 * cs.length + 2) nestingRoom cs

def takeEntry (cs : List Char) : Except Problem (Path × Value × List Char) :=
  match takeKey? cs with
  | some (key, '=' :: rest) =>
    (takeValue (rest.dropWhile isBlank)).map fun (value, after) => (key, value, after)
  | _ => .error .malformed

/-- A document being read. -/
structure Document where
  root : Table
  /-- The path of the table opened last. -/
  header : Path
  /-- Tables that cannot be opened by a header any more. -/
  declared : List Path
  /-- Tables built by dotted keys under the current header; they are declared at the next one. -/
  pending : List Path
  /-- Paths that hold inline values. -/
  closed : List Path

namespace Document

def empty : Document := ⟨[], [], [], [], []⟩

/-- Whether a path lies in an inline value. -/
def isClosed (d : Document) (path : Path) : Bool :=
  d.closed.any (·.isPrefixOf path)

/-- The tables on the way of a dotted key, from the header on. -/
def waypoints (header key : Path) : List Path :=
  (List.range (key.length - 1)).map fun i => header ++ key.take (i + 1)

def add? (d : Document) (key : Path) (value : Value) : Option Document :=
  let ways := waypoints d.header key
  let parent := d.header ++ key.dropLast
  if ways.any d.declared.contains || d.isClosed parent then none
  else
    (d.root.alter? true parent fun nest => nest.add? (key.getLastD "") value).map fun root =>
      { d with
        root
        pending := ways ++ d.pending
        closed := if value.isCompound then (d.header ++ key) :: d.closed else d.closed }

/-- Declares the tables that dotted keys have built. -/
def settle (d : Document) : Document :=
  { d with declared := d.pending ++ d.declared, pending := [] }

def openTable? (d : Document) (path : Path) : Option Document :=
  let d := d.settle
  if d.declared.contains path || d.isClosed path then none
  else
    (d.root.alter? true path some).map fun root =>
      { d with root, header := path, declared := path :: d.declared }

/-- Appends a table to a list of tables and opens it. Everything below the path may be declared
again. -/
def openItem? (d : Document) (path : Path) : Option Document :=
  let d := d.settle
  if d.isClosed path then none
  else
    (d.root.alter? true path.dropLast (Table.append? (path.getLastD ""))).map fun root =>
      { d with
        root
        header := path
        declared := path :: d.declared.filter (!path.isPrefixOf ·)
        closed := d.closed.filter (!path.isPrefixOf ·) }

/-- One statement, up to what stands behind it on its line. -/
def statement (d : Document) (cs : List Char) : Except Problem (Document × List Char) :=
  match cs with
  | '[' :: '[' :: rest =>
    match takeKey? (rest.dropWhile isBlank) with
    | some (path, ']' :: ']' :: after) => required ((d.openItem? path).map (·, after))
    | _ => .error .malformed
  | '[' :: rest =>
    match takeKey? (rest.dropWhile isBlank) with
    | some (path, ']' :: after) => required ((d.openTable? path).map (·, after))
    | _ => .error .malformed
  | '#' :: _ => .ok (d, cs)
  | _ => do
    let (key, value, after) ← takeEntry cs
    required ((d.add? key value).map (·, after))

/-- Reads statements to the end of the text. The number of lines is bounded by `fuel`. -/
def readWithin : Nat → Document → List Char → Except Problem Document
  | 0, _, _ => .error .malformed
  | fuel + 1, d, cs =>
    match cs.dropWhile isBlank with
    | [] => .ok d
    | '\n' :: rest => readWithin fuel d rest
    | start => do
      let (d', after) ← d.statement start
      match dropComment? (after.dropWhile isBlank) with
      | some [] => return d'
      | some ('\n' :: rest) => readWithin fuel d' rest
      | _ => .error .malformed

end Document

def read (text : List Char) : Except Problem Table :=
  (Document.empty.readWithin (text.length + 1) text).map (·.root)

end StackCalc.Toml
