/-! Terminal markup. Text that is printed may hold tags in square brackets, which choose a style and
do not show. Backslashes in front of a tag keep it from being one. -/
namespace StackCalc.Markup

def startsTag (c : Char) : Bool :=
  ('a' ≤ c && c ≤ 'z') || c == '#' || c == '/' || c == '@'

/-- The tag at the start of a text, with its brackets, and what follows it. A tag holds no opening
bracket of its own. -/
def takeTag? (cs : List Char) : Option (List Char × List Char) :=
  match cs with
  | '[' :: c :: rest =>
    let body := rest.takeWhile fun d => d ≠ '[' ∧ d ≠ ']'
    match rest.dropWhile fun d => d ≠ '[' ∧ d ≠ ']' with
    | ']' :: after => if startsTag c then some ('[' :: c :: body ++ [']'], after) else none
    | _ => none
  | _ => none

theorem takeTag?_length_lt {cs tag after : List Char} (h : takeTag? cs = some (tag, after)) :
    after.length < cs.length := by
  unfold takeTag? at h
  split at h
  · rename_i c rest
    split at h
    · rename_i after' hRest
      split at h
      · simp only [Option.some.injEq, Prod.mk.injEq] at h
        have hDrop :=
          (List.dropWhile_suffix (fun d => decide (d ≠ '[' ∧ d ≠ ']')) (l := rest)).length_le
        rw [hRest, List.length_cons] at hDrop
        rw [← h.2]
        simp only [List.length_cons]
        omega
      · cases h
    · cases h
  · cases h

/-- Keeps every tag of a text from being one; `slashes` counts the backslashes just before. -/
def escapeFrom (slashes : Nat) (cs : List Char) : List Char :=
  match h : takeTag? cs with
  | some (tag, after) =>
    have := takeTag?_length_lt h
    List.replicate (slashes + 1) '\\' ++ tag ++ escapeFrom 0 after
  | none =>
    match cs with
    | [] => []
    | c :: rest => c :: escapeFrom (if c = '\\' then slashes + 1 else 0) rest
termination_by cs.length

/-- A text in which nothing is a tag. A single backslash at its end is doubled, so that it does not
run into what follows. -/
def escape (text : String) : String :=
  let cs := escapeFrom 0 text.toList
  let single := cs.getLast? = some '\\' && cs.dropLast.getLast? ≠ some '\\'
  String.ofList (if single then cs ++ ['\\'] else cs)

/-- What shows of a text without tags: a backslash in front of an opening bracket does not. -/
def plain : List Char → List Char
  | '\\' :: '[' :: rest => '[' :: plain rest
  | c :: rest => c :: plain rest
  | [] => []

/-- A part of a text with tags. -/
inductive Piece where
  /-- Characters that show. -/
  | text (cs : List Char)
  /-- What a tag holds between its brackets, and the offset of the tag. -/
  | tag (offset : Nat) (body : List Char)
deriving DecidableEq, Repr

/-- The parts of a text from an offset on. Of the backslashes in front of a tag every second one
shows; if their number is odd, the tag shows too. `before` holds the characters since the last tag,
backwards, and `slashes` counts the backslashes at its front. -/
def piecesFrom (offset : Nat) (before : List Char) (slashes : Nat) (cs : List Char) : List Piece :=
  match h : takeTag? cs with
  | some (tag, after) =>
    have := takeTag?_length_lt h
    .text (plain (before.drop slashes).reverse ++ List.replicate (slashes / 2) '\\') ::
      (if slashes % 2 = 1 then .text tag else .tag offset (tag.drop 1).dropLast) ::
      piecesFrom (offset + tag.length) [] 0 after
  | none =>
    match cs with
    | [] => [.text (plain before.reverse)]
    | c :: rest =>
      piecesFrom (offset + 1) (c :: before) (if c = '\\' then slashes + 1 else 0) rest
termination_by cs.length

def pieces (text : String) : List Piece :=
  piecesFrom 0 [] 0 text.toList

def Piece.shown : Piece → List Char
  | .text cs => cs
  | .tag .. => []

def visible (text : String) : String :=
  String.ofList ((pieces text).flatMap Piece.shown)

end StackCalc.Markup
