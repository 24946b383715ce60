import StackCalc.Number.Reader
import StackCalc.Registers

/-! Registers set by hand, as items of the form `NAME=VALUE`. -/
namespace StackCalc

/-- Why an item cannot be used. -/
inductive AssignmentError where
  /-- There is no equals sign, or no name before it. -/
  | malformed (item : String)
  /-- What follows the first equals sign is no number. -/
  | notNumeric (text : String)
deriving DecidableEq, Repr

def AssignmentError.message : AssignmentError → String
  | .malformed item => s!"Expected NAME=VALUE, got {Text.quoted item}"
  | .notNumeric text => s!"Not a number: {Text.quoted text}"

/-- Reads one item. The name is everything before the first equals sign, without the blanks at its
ends. -/
def readAssignment (item : String) : Except AssignmentError (String × Float) :=
  let cs := item.toList
  let name := Text.trim Text.isBlank (cs.takeWhile (· ≠ '='))
  match name, cs.dropWhile (· ≠ '=') with
  | _ :: _, '=' :: value =>
    match Number.readChars? value with
    | some x => .ok (String.ofList name, x)
    | none => .error (.notNumeric (String.ofList value))
  | _, _ => .error (.malformed item)

/-- Reads items in order, up to the first that cannot be used. -/
def readEntries : List String → Except AssignmentError (List (String × Float))
  | [] => .ok []
  | item :: rest =>
    match readAssignment item with
    | .error e => .error e
    | .ok entry => (readEntries rest).map (entry :: ·)

/-- The registers that items set. A later item for a name overrides an earlier one in its place. -/
def readAssignments (items : List String) : Except AssignmentError Registers :=
  (readEntries items).map fun entries =>
    .ofList (entries.map fun (name, value) => (.text name, value))

end StackCalc
