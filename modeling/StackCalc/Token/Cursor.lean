import StackCalc.Compile

/-! Reading tokens one at a time. A cursor holds the token to be taken next. Taking it moves the
cursor on; where the scan stopped, the first attempt to move on fails and leaves the cursor in
place, and later ones find the source at its end. -/
namespace StackCalc

/-- A place between the tokens of a source. -/
structure Cursor where
  source : String
  current : Option Token
  upcoming : List Token
  /-- Where the scan stopped, as long as nobody has run into it. -/
  stop : Option Stop
deriving DecidableEq, Repr

namespace Cursor

/-- The offset of the current token, or of the end of the source. -/
def position (c : Cursor) : Nat :=
  c.current.elim c.source.length (·.pos)

def strange (source : String) (s : Stop) : CompileError :=
  ⟨.strangeCharacter s.char, source, s.pos⟩

def start (source : String) : Except CompileError Cursor :=
  match scan source with
  | ⟨t :: rest, stop⟩ => .ok ⟨source, some t, rest, stop⟩
  | ⟨[], some stop⟩ => .error (strange source stop)
  | ⟨[], none⟩ => .ok ⟨source, none, [], none⟩

/-- Takes the current token. The cursor that comes back is the one to go on with, after a failure
too. -/
def advance (c : Cursor) : Except CompileError Token × Cursor :=
  match c.current, c.upcoming, c.stop with
  | none, _, _ => (.error ⟨.unexpectedEnd, c.source, c.source.length⟩, c)
  | some t, next :: rest, _ => (.ok t, { c with current := some next, upcoming := rest })
  | some _, [], some stop => (.error (strange c.source stop), { c with stop := none })
  | some t, [], none => (.ok t, { c with current := none })

end Cursor

end StackCalc
