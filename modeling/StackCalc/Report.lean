/-! Reports of failures. A report has a message and may name a place in a source, which it then
shows on a line of its own with a caret under the place. -/
namespace StackCalc

structure Place where
  source : String
  offset : Int
deriving DecidableEq, Repr

/-- The source, and below it a caret under the offset; an offset before the source counts as its
start. Both lines are indented. -/
def Place.marked (p : Place) : String :=
  let indent := String.ofList (List.replicate p.offset.toNat ' ')
  s!"  {p.source}\n  {indent}^"

/-- A message and the place it is about. -/
structure Report where
  message : String
  place : Option Place
deriving DecidableEq, Repr

def Report.text (r : Report) : String :=
  match r.place with
  | some place => s!"{r.message}\n{place.marked}"
  | none => r.message

end StackCalc
