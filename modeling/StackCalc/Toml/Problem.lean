/-! Why a text cannot be read as a TOML document. -/
namespace StackCalc.Toml

/-- What is wrong with a text, at the first place where something is. -/
inductive Problem where
  /-- The text breaks a rule of the format. -/
  | malformed
  /-- A decimal integer has more digits than are read. -/
  | tooManyDigits (count : Nat)
  /-- Values are nested deeper than they are read. -/
  | tooDeep
deriving DecidableEq, Repr

/-- How many digits a decimal integer may have to be read, and any integer to be shown. -/
def digitLimit : Nat := 4300

def nestingRoom : Nat := 976

def arrayRoom : Nat := 2

def tableRoom : Nat := 3

/-- How much room there is for showing a value and those nested in it. -/
def shownRoom : Nat := 981

/-- What is not there is missing against the rules of the format. -/
def required {α : Type} (found : Option α) : Except Problem α :=
  found.elim (.error .malformed) .ok

end StackCalc.Toml
