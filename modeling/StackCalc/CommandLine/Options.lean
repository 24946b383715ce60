/-! Options of a command line. An option has a long name, perhaps a letter, and perhaps a value. A
value follows its option, or is attached to it: behind an equals sign for a long name, directly for
a letter. Letters without values can be given together. Two dashes end the options. -/
namespace StackCalc.Options

structure Known (τ : Type) where
  tag : τ
  long : String
  letter : Option Char
  takesValue : Bool

/-- The options that were given, in order, each with its value or an empty text; and the arguments
that are no options. -/
structure Given (τ : Type) where
  options : List (τ × String)
  arguments : List String

variable {τ : Type}

/-- Reads letters given together. An option that takes a value takes the rest of the letters; if
there is none, it still wants one. -/
def letters (known : List (Known τ)) : List Char → Option (List (τ × String) × Option τ)
  | [] => some ([], none)
  | c :: rest =>
    match known.find? (·.letter = some c) with
    | none => none
    | some o =>
      if o.takesValue then
        if rest.isEmpty then some ([], some o.tag) else some ([(o.tag, String.ofList rest)], none)
      else (letters known rest).map fun (options, wanting) => ((o.tag, "") :: options, wanting)

/-- Reads one argument that starts with a dash: the options it gives, and the option that still
wants a value. -/
def one (known : List (Known τ)) (arg : List Char) : Option (List (τ × String) × Option τ) :=
  let name := String.ofList (arg.takeWhile (· ≠ '='))
  match known.find? (·.long = name), arg.dropWhile (· ≠ '=') with
  | some o, _ :: value =>
    if o.takesValue then some ([(o.tag, String.ofList value)], none) else none
  | some o, [] => if o.takesValue then some ([], some o.tag) else some ([(o.tag, "")], none)
  | none, _ => if arg.take 2 = ['-', '-'] then none else letters known (arg.drop 1)

/-- Reads arguments. If options may stand between other arguments, all are read; otherwise the first
that is no option ends them. Nothing comes back if an option is unknown, lacks its value or has one
too many. -/
def read? (known : List (Known τ)) (between : Bool) : List String → Option (Given τ)
  | [] => some ⟨[], []⟩
  | arg :: rest =>
    if arg = "--" then some ⟨[], rest⟩
    else if arg.toList.head? = some '-' ∧ 1 < arg.length then
      match one known arg.toList with
      | none => none
      | some (options, none) =>
        (read? known between rest).map fun g => { g with options := options ++ g.options }
      | some (options, some tag) =>
        match rest with
        | [] => none
        | value :: rest' =>
          (read? known between rest').map fun g =>
            { g with options := options ++ (tag, value) :: g.options }
    else if between then
      (read? known between rest).map fun g => { g with arguments := arg :: g.arguments }
    else some ⟨[], arg :: rest⟩

/-- The values of an option, in the order in which they were given. -/
def Given.values [DecidableEq τ] (g : Given τ) (tag : τ) : List String :=
  (g.options.filter (·.1 = tag)).map (·.2)

def Given.has [DecidableEq τ] (g : Given τ) (tag : τ) : Bool :=
  g.options.any (·.1 = tag)

end StackCalc.Options
