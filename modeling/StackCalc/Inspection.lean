import StackCalc.Program

/-! Inspecting a program: how it runs, what folding makes of it, and how that runs. -/
namespace StackCalc

/-- What folding makes of a program. -/
structure Inspection.Optimized where
  /-- Whether there was nothing to fold. -/
  same : Bool
  program : Program
  /-- A run of the folded program. -/
  run : Result Registers Float
  /-- Whether folding it again changes nothing. -/
  againSame : Bool

/-- A program run both as it is and folded, each time from the same registers. -/
structure Inspection where
  plain : Result Registers Float
  optimized : Except Fault Inspection.Optimized
  log : List Log.Record

namespace Program

def foldLogged (p : Program) : Except Fault (Option Program) × List Log.Record :=
  match fold p.opcodes with
  | .error fault => (.error fault, [])
  | .ok outcome => (.ok (outcome.opcodes?.map Program.mk), [Log.folded p.opcodes outcome])

def ofSourceLogged (source : String) : Except CompileError Program × List Log.Record :=
  match ofSource source with
  | .error e => (.error e, [])
  | .ok p => (.ok p, [Log.compiled source p.opcodes])

def inspect (p : Program) (r : Registers) : Inspection :=
  let run (q : Program) : Result Registers Float := q.execute (Context.fresh r)
  match p.foldLogged with
  | (.error fault, log) => ⟨run p, .error fault, log⟩
  | (.ok folded, log) =>
    let q := folded.getD p
    let (again, log') := q.foldLogged
    let againSame :=
      match again with
      | .ok none => true
      | _ => false
    ⟨run p, .ok ⟨folded.isNone, q, run q, againSame⟩, log ++ log'⟩

end Program

end StackCalc
