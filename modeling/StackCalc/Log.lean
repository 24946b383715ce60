import StackCalc.Fold

/-! Log records. The library reports its work as records, which a host may print or drop. -/
namespace StackCalc

/-- How much a record matters. -/
inductive Log.Level where
  | debug
  | warning
deriving DecidableEq, Repr

/-- The part of the library that a record comes from. -/
inductive Log.Origin where
  | program
  | folding
  | registers
  | settings
deriving DecidableEq, Repr

structure Log.Record where
  level : Log.Level
  origin : Log.Origin
  text : String
deriving DecidableEq, Repr

namespace Log

def compiled (source : String) (ops : List Opcode) : Record :=
  ⟨.debug, .program, s!"Compiled {Text.quoted source} into {ops.length} opcode(s)"⟩

def folded (ops : List Opcode) (outcome : Folded) : Record :=
  let text :=
    match outcome with
    | .constant _ => s!"Folded {ops.length} opcode(s) into a constant"
    | .shorter kept => s!"Optimized {ops.length} opcode(s) down to {kept.length}"
    | .unchanged => s!"Nothing to fold in {ops.length} opcode(s)"
  ⟨.debug, .folding, text⟩

def merged (r : Registers) (target : Machine) : Record :=
  ⟨.debug, .registers, s!"Merging {r.size} register(s) into {target.describe}"⟩

end Log

end StackCalc
