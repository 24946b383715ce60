import StackCalc.CommandLine.Handler
import StackCalc.CommandLine.Markup
import StackCalc.CommandLine.Style
import StackCalc.Text.Quoted

/-! Styled text. The tags of a text open and close styles. A closing tag closes the innermost open
tag of its style, or the innermost of all if it names none; a style that is never closed lasts to
the end. -/
namespace StackCalc

/-- A tag: its name, and what stands behind an equals sign. -/
structure Tag where
  name : List Char
  parameters : Option (List Char)
deriving DecidableEq, Repr

namespace Tag

def ofBody (body : List Char) : Tag :=
  match body.dropWhile (· ≠ '=') with
  | _ :: parameters => ⟨body.takeWhile (· ≠ '='), some parameters⟩
  | [] => ⟨body, none⟩

def shown (t : Tag) : String :=
  let parameters := t.parameters.elim [] ('=' :: ·)
  String.ofList (('[' :: t.name) ++ parameters ++ [']'])

/-- The style that a tag asks for, in words. -/
def style (t : Tag) : List Char :=
  t.name ++ t.parameters.elim [] (' ' :: ·)

end Tag

/-- Why a text with tags cannot be shown. -/
inductive MarkupError where
  /-- A closing tag without a name stands where nothing is open. -/
  | nothingToClose (offset : Nat)
  /-- A closing tag names a style that is not open. -/
  | notOpen (tag : Tag) (offset : Nat)
  /-- The arguments of a handler are no literal. -/
  | badHandler (parameters : List Char) (fault : String)
  /-- One of three components of a color has no digits. -/
  | missingNumber
deriving DecidableEq, Repr

def MarkupError.message : MarkupError → String
  | .nothingToClose offset => s!"closing tag '[/]' at position {offset} has nothing to close"
  | .notOpen tag offset =>
    s!"closing tag '{tag.shown}' at position {offset} doesn't match any open tag"
  | .badHandler parameters fault =>
    let arguments := Text.quoted (String.ofList (Handler.arguments parameters))
    let all := Text.quoted (String.ofList parameters)
    s!"error parsing {arguments} in {all}; {fault}"
  | .missingNumber => "invalid literal for int() with base 10: ''"

/-- A text that shows in several styles. -/
structure Styled where
  chars : List Char
  /-- The stretches with a style of their own: the first offset, and the offset behind the last. -/
  spans : List (Nat × Nat)
  /-- The styles of these stretches, in words. -/
  styles : List (List Char)
deriving DecidableEq, Repr

namespace Styled

/-- A text in which some tags are still open, the innermost first, each with the offset where its
style begins. -/
structure Open where
  done : Styled
  tags : List (Nat × Tag)
deriving DecidableEq, Repr

/-- The innermost open tag with a name, and the other ones. -/
def takeOpen? (name : List Char) : List (Nat × Tag) → Option ((Nat × Tag) × List (Nat × Tag))
  | [] => none
  | entry :: rest =>
    if entry.2.name = name then some (entry, rest)
    else (takeOpen? name rest).map fun (found, others) => (found, entry :: others)

/-- Adds a stretch from the given offset to the end. -/
def addSpan (s : Styled) (start : Nat) (style : List Char) : Styled :=
  { s with spans := (start, s.chars.length) :: s.spans, styles := style :: s.styles }

/-- Ends the style of an open tag. A handler is no style, but its arguments have to make sense. -/
def endTag (s : Styled) (entry : Nat × Tag) : Except MarkupError Styled :=
  match entry.2.name with
  | '@' :: _ =>
    match entry.2.parameters with
    | none | some [] => .ok (s.addSpan entry.1 [])
    | some parameters =>
      match Handler.fault? (Handler.arguments parameters) with
      | none => .ok (s.addSpan entry.1 [])
      | some fault => .error (.badHandler parameters fault)
  | _ => .ok (s.addSpan entry.1 entry.2.style)

/-- The one form of a tag's name. -/
def canonicalName (name : List Char) : Except MarkupError (List Char) :=
  (Style.canonical name).mapError fun _ => .missingNumber

def Open.close (o : Open) (tag : Tag) (offset : Nat) : Except MarkupError Open := do
  let name := Text.trim Text.isBlank (tag.name.drop 1)
  if name.isEmpty then
    match o.tags with
    | entry :: rest => return ⟨← o.done.endTag entry, rest⟩
    | [] => .error (.nothingToClose offset)
  else
    match takeOpen? (← canonicalName name) o.tags with
    | some (entry, rest) => return ⟨← o.done.endTag entry, rest⟩
    | none => .error (.notOpen tag offset)

def Open.take (o : Open) : Markup.Piece → Except MarkupError Open
  | .text cs => .ok { o with done := { o.done with chars := o.done.chars ++ cs } }
  | .tag offset body =>
    let tag := Tag.ofBody body
    if tag.name.head? = some '/' then o.close tag offset
    else do
      let name ← canonicalName tag.name
      return { o with tags := (o.done.chars.length, { tag with name := name }) :: o.tags }

def Open.finish (o : Open) : Styled :=
  o.tags.foldl (fun s entry => s.addSpan entry.1 entry.2.style) o.done

def ofMarkup (text : String) : Except MarkupError Styled := do
  let o ← (Markup.pieces text).foldlM Open.take ⟨⟨[], [], []⟩, []⟩
  return o.finish

/-- The text if all its styles can be looked up. A style that is none is left out, but a color
without one of its numbers is an error. -/
def checked (s : Styled) : Except MarkupError Styled :=
  let missing := s.styles.any fun style =>
    match Style.read style with
    | .error .missingNumber => true
    | _ => false
  if missing then .error .missingNumber else .ok s

end Styled

end StackCalc
