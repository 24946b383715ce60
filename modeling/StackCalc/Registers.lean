import StackCalc.Opcode
import StackCalc.Text.Quoted

/-! Registers. A register has a name and a value; no two names are equal by value, and the registers
keep the order in which their names were first set. -/
namespace StackCalc

/-- A register is named by the payload of the identifier opcode that refers to it. In compiled code
and in settings that is always a text. -/
abbrev Name := Payload

namespace Payload

/-- What a register is found by. Names that are equal by value have the same key: the two zeros name
one register. -/
def key : Payload → Payload
  | .number x => .number (if x == 0 then 0 else x)
  | p => p

def describe : Payload → String
  | .empty => "None"
  | .number x => Number.text x
  | .text s => Text.quoted s

/-- The order of listings: texts by their characters, behind all other payloads. -/
def listedBefore : Payload → Payload → Bool
  | .text s, .text t => s ≤ t
  | .text _, _ => false
  | _, _ => true

@[simp] theorem key_text (s : String) : key (.text s) = .text s := rfl

end Payload

/-- Gives a name a value. If the name is known, its entry keeps its place and the name under which
it was first set; else there is a new entry at the end. -/
def setEntry (name : Name) (value : Float) : List (Name × Float) → List (Name × Float)
  | [] => [(name, value)]
  | entry :: rest =>
    if entry.1.key = name.key then (entry.1, value) :: rest else entry :: setEntry name value rest

/-- Setting a known name keeps the names; setting a new one appends it. -/
theorem map_fst_setEntry (name : Name) (value : Float) (entries : List (Name × Float)) :
    (setEntry name value entries).map Prod.fst =
      if name.key ∈ (entries.map Prod.fst).map Payload.key then entries.map Prod.fst
      else entries.map Prod.fst ++ [name] := by
  induction entries with
  | nil => simp [setEntry]
  | cons entry rest ih =>
    by_cases hEntry : entry.1.key = name.key
    · simp [setEntry, hEntry]
    · simp only [setEntry, if_neg hEntry, List.map_cons, ih, List.mem_cons,
        or_iff_right (Ne.symm hEntry)]
      split <;> rfl

theorem nodup_setEntry (name : Name) (value : Float) {entries : List (Name × Float)}
    (h : ((entries.map Prod.fst).map Payload.key).Nodup) :
    (((setEntry name value entries).map Prod.fst).map Payload.key).Nodup := by
  rw [map_fst_setEntry]
  split
  · exact h
  · rename_i hNew
    rw [List.map_append]
    exact List.nodup_append.mpr ⟨h, by simp, by
      intro a ha b hb hab
      exact hNew (List.mem_singleton.mp hb ▸ hab ▸ ha)⟩

/-- Named values in the order of their first appearance. -/
@[ext] structure Registers where
  entries : List (Name × Float)
  distinct : ((entries.map Prod.fst).map Payload.key).Nodup
deriving DecidableEq

namespace Registers

def empty : Registers := ⟨[], List.nodup_nil⟩

instance : Inhabited Registers := ⟨empty⟩

def get? (r : Registers) (name : Name) : Option Float :=
  (r.entries.find? fun entry => entry.1.key = name.key).map Prod.snd

def set (r : Registers) (name : Name) (value : Float) : Registers :=
  ⟨setEntry name value r.entries, nodup_setEntry name value r.distinct⟩

def setAll (r : Registers) (entries : List (Name × Float)) : Registers :=
  entries.foldl (fun r entry => r.set entry.1 entry.2) r

/-- The registers of a list, in which a later value of a name overrides an earlier one. -/
def ofList (entries : List (Name × Float)) : Registers :=
  empty.setAll entries

def size (r : Registers) : Nat :=
  r.entries.length

/-- Copies every register into `target`. -/
def mergeInto (r target : Registers) : Registers :=
  target.setAll r.entries

def sorted (r : Registers) : List (Name × Float) :=
  r.entries.mergeSort fun a b => a.1.listedBefore b.1

def describe (r : Registers) : String :=
  let entries := r.entries.map fun (name, value) => s!"{name.describe}: {Number.text value}"
  let body := ", ".intercalate entries
  s!"\x7b{body}\x7d"

@[simp] theorem entries_empty : empty.entries = [] := rfl

@[simp] theorem get?_empty (name : Name) : empty.get? name = none := rfl

@[simp] theorem entries_set (r : Registers) (name : Name) (value : Float) :
    (r.set name value).entries = setEntry name value r.entries := rfl

end Registers

end StackCalc
