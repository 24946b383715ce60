import StackCalc.Text.Blank
import StackCalc.Text.Lines

/-! The version of a distribution. It stands in the distribution's manifest on a line of its own, as
`version = "..."`; without a manifest that has such a line, the version of the installed package
counts. -/
namespace StackCalc.Version
open Text

/-- The text between quotes at the start of a text, if it is not empty. -/
def quotedText? : List Char → Option (List Char)
  | '"' :: rest =>
    let body := rest.takeWhile (· ≠ '"')
    match body, rest.dropWhile (· ≠ '"') with
    | _ :: _, '"' :: _ => some body
    | _, _ => none
  | _ => none

/-- The version given at the start of a text. Blanks around the equals sign may run over several
lines. -/
def atStart? (cs : List Char) : Option (List Char) :=
  match ("version".toList).isPrefixOf? cs with
  | some rest =>
    match rest.dropWhile isBlank with
    | '=' :: after => quotedText? (after.dropWhile isBlank)
    | _ => none
  | none => none

/-- The version given at the first start of a line where one is given. The flag says whether the
text starts a line. -/
def search? : Bool → List Char → Option (List Char)
  | _, [] => none
  | lineStart, c :: rest =>
    match (if lineStart then atStart? (c :: rest) else none) with
    | some version => some version
    | none => search? (c = '\n') rest

/-- The version when none can be found. -/
def unknown : String := "0.0.0"

/-- The version by the manifest, else that of the installed package, else the unknown one. -/
def resolve (manifest installed : Option String) : String :=
  match manifest.bind fun text => search? true (unifyLineEnds text.toList) with
  | some version => String.ofList version
  | none => installed.getD unknown

/-- The version that this calculator is packaged as. -/
def packaged : String := "0.3.0"

/-- What is known about the distribution that a command is run from. -/
structure Distribution where
  /-- The text of its manifest, if there is one. -/
  manifest : Option String := none
  /-- The version of the package, if it is installed. -/
  installed : Option String := some packaged
  /-- The line that says what the program runs on, where it is to be shown. -/
  platform : Option String := none

def Distribution.report (d : Distribution) : String :=
  let lines := s!"opcalc {resolve d.manifest d.installed}" :: d.platform.toList
  String.join (lines.map (· ++ "\n"))

end StackCalc.Version
