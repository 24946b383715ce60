import StackCalc.Proofs.Grammar

/-! Reading words as an expression. A reading goes through words as the compiler does, but where the
compiler has already emitted opcodes it still has the expressions they come from. Forgetting the
expressions turns every step of a reading into a step of the compiler, and a reading finds exactly
the expressions of the grammar whose brackets are not nested too deeply. -/
namespace StackCalc

/-- What waits for its right side, together with the left operand of an operator. -/
inductive Frame where
  | operator (left : Expression) (op : Operator)
  | bracket
deriving DecidableEq

namespace Frame

/-- A frame as the compiler keeps it. -/
def pending : Frame → Pending
  | .operator _ op => .operator op
  | .bracket => .bracket

def brackets : List Frame → Nat
  | [] => 0
  | .bracket :: frames => brackets frames + 1
  | .operator _ _ :: frames => brackets frames

/-- The opcodes of all operands that wait, the latest first. -/
def emitted : List Frame → List Opcode
  | [] => []
  | .bracket :: frames => emitted frames
  | .operator l _ :: frames => l.postorder.reverse ++ emitted frames

def lexemes : List Frame → List Lexeme
  | [] => []
  | .bracket :: frames => lexemes frames ++ [.symbol .openBracket]
  | .operator l op :: frames => lexemes frames ++ (l.lexemes ++ [.symbol (.operator op)])

/-- Gives an operand to the operators that bind at least as tightly as `level`, up to the innermost
bracket. -/
def close (level : Nat) : List Frame → Expression → List Frame × Expression
  | .operator l op :: frames, t =>
    if level ≤ op.level then close level frames (.binary op l t) else (.operator l op :: frames, t)
  | frames, t => (frames, t)

/-- The innermost operator, if no bracket comes before it, binds less tightly than `level`. -/
def Below (level : Nat) : List Frame → Prop
  | .operator _ op :: _ => op.level < level
  | _ => True

/-- Every left operand has a level that its operator admits, and no bracket is one too many. -/
def Fits (limit : Nat) : List Frame → Prop
  | [] => True
  | .bracket :: frames => Fits limit frames ∧ brackets frames < limit
  | .operator l op :: frames =>
    Fits limit frames ∧ l.Levelled ∧ op.level ≤ l.level ∧ Below op.level frames ∧
      brackets frames + l.nesting ≤ limit

/-- An operand that may follow the frames. -/
structure Takes (limit : Nat) (frames : List Frame) (t : Expression) : Prop where
  fits : Fits limit frames
  levelled : t.Levelled
  below : Below t.level frames
  nesting : brackets frames + t.nesting ≤ limit

theorem Below.mono {j k : Nat} {frames : List Frame} (h : Below j frames) (hLe : j ≤ k) :
    Below k frames := by
  cases frames with
  | nil => trivial
  | cons frame frames =>
      cases frame with
      | bracket => trivial
      | operator l op => exact Nat.lt_of_lt_of_le h hLe

theorem below_primaryLevel (frames : List Frame) : Below primaryLevel frames := by
  cases frames with
  | nil => trivial
  | cons frame frames =>
      cases frame with
      | bracket => trivial
      | operator l op => exact op.level_lt_primaryLevel

/-- Nothing is to be given to operators that bind less tightly. -/
theorem close_of_below {level : Nat} {frames : List Frame} (h : Below level frames)
    (t : Expression) : close level frames t = (frames, t) := by
  cases frames with
  | nil => rfl
  | cons frame frames =>
      cases frame with
      | bracket => rfl
      | operator l op => exact if_neg (Nat.not_le_of_lt h)

/-- Closing a level first closes all higher ones. -/
theorem close_close {j k : Nat} (hLe : k ≤ j) (frames : List Frame) (t : Expression) :
    close k (close j frames t).1 (close j frames t).2 = close k frames t := by
  induction frames generalizing t with
  | nil => rfl
  | cons frame frames ih =>
      cases frame with
      | bracket => rfl
      | operator l op =>
          by_cases hOp : j ≤ op.level
          · simp only [close, if_pos hOp, if_pos (Nat.le_trans hLe hOp), ih]
          · simp only [close, if_neg hOp]

theorem brackets_close (level : Nat) (frames : List Frame) (t : Expression) :
    brackets (close level frames t).1 = brackets frames := by
  induction frames generalizing t with
  | nil => rfl
  | cons frame frames ih =>
      cases frame with
      | bracket => rfl
      | operator l op =>
          simp only [close]
          split
          · exact ih _
          · rfl

/-- Closing moves operands into operations and loses no word. -/
theorem lexemes_close (level : Nat) (frames : List Frame) (t : Expression) :
    lexemes (close level frames t).1 ++ (close level frames t).2.lexemes =
      lexemes frames ++ t.lexemes := by
  induction frames generalizing t with
  | nil => rfl
  | cons frame frames ih =>
      cases frame with
      | bracket => rfl
      | operator l op =>
          simp only [close]
          split
          · simp only [ih, lexemes, Expression.lexemes, List.append_assoc, List.singleton_append]
          · rfl

/-- The compiler emits waiting operators as a reading closes their frames. -/
theorem flush_pending (level : Nat) (frames : List Frame) (t : Expression) :
    Emitter.flush level (frames.map pending) (t.postorder.reverse ++ emitted frames) =
      ((close level frames t).1.map pending,
        (close level frames t).2.postorder.reverse ++ emitted (close level frames t).1) := by
  induction frames generalizing t with
  | nil => rfl
  | cons frame frames ih =>
      cases frame with
      | bracket => rfl
      | operator l op =>
          simp only [List.map_cons, pending, emitted, Emitter.flush, close]
          split
          · have hStep := ih (.binary op l t)
            simpa only [Expression.postorder, List.reverse_append, List.reverse_singleton,
              List.append_assoc, List.cons_append, List.nil_append] using hStep
          · rfl

/-- An operand that may follow still may after closing, and it then stands at the closed level. -/
theorem Takes.close {limit level : Nat} {frames : List Frame} {t : Expression}
    (h : Takes limit frames t) (hLevel : level ≤ t.level) :
    Takes limit (Frame.close level frames t).1 (Frame.close level frames t).2 ∧
      level ≤ (Frame.close level frames t).2.level ∧
      Below level (Frame.close level frames t).1 := by
  induction frames generalizing t with
  | nil => exact ⟨h, hLevel, trivial⟩
  | cons frame frames ih =>
      cases frame with
      | bracket => exact ⟨h, hLevel, trivial⟩
      | operator l op =>
          simp only [Frame.close]
          split
          · rename_i hOp
            obtain ⟨hFits, hLeft, hLe, hBelow, hNesting⟩ := h.fits
            have hTakes : Takes limit frames (.binary op l t) :=
              { fits := hFits
                levelled := ⟨hLeft, h.levelled, hLe, h.below⟩
                below := hBelow
                nesting := by
                  have hRight := h.nesting
                  simp only [brackets, Expression.nesting] at hRight ⊢
                  omega }
            exact ih hTakes hOp
          · rename_i hOp
            exact ⟨h, hLevel, Nat.lt_of_not_le hOp⟩

/-- At the lowest level everything up to the innermost bracket is closed. -/
theorem close_zero (frames : List Frame) (t : Expression) :
    (close 0 frames t).1 = [] ∨ ∃ rest, (close 0 frames t).1 = .bracket :: rest := by
  induction frames generalizing t with
  | nil => exact .inl rfl
  | cons frame frames ih =>
      cases frame with
      | bracket => exact .inr ⟨frames, rfl⟩
      | operator l op =>
          simp only [close, Nat.zero_le, if_true]
          exact ih _

end Frame

/-- A reading in progress. -/
inductive Reading where
  /-- An operand is due. -/
  | operand (frames : List Frame)
  /-- The number that a minus belongs to is due. -/
  | magnitude (frames : List Frame)
  /-- An operand is complete. -/
  | operator (frames : List Frame) (last : Expression)
deriving DecidableEq

namespace Reading
open CompileError
variable {limit : Nat}

/-- Takes the next word. At most `limit` brackets may be open at once. -/
def feed (limit : Nat) : Reading → Lexeme → Except Cause Reading
  | .operand frames, .number text => .ok (.operator frames (.number text))
  | .operand frames, .identifier name => .ok (.operator frames (.identifier name))
  | .operand frames, .symbol (.operator (.arithmetic .subtract)) => .ok (.magnitude frames)
  | .operand frames, .symbol .openBracket =>
    if limit ≤ Frame.brackets frames then .error .tooDeep
    else .ok (.operand (.bracket :: frames))
  | .operand _, .symbol s => .error (.unexpectedToken (.symbol s))
  | .magnitude frames, .number text => .ok (.operator frames (.negative text))
  | .magnitude _, _ => .error .expectedNumber
  | .operator frames last, .symbol (.operator op) =>
    let closed := Frame.close op.level frames last
    .ok (.operand (.operator closed.2 op :: closed.1))
  | .operator frames last, l =>
    match Frame.close 0 frames last with
    | (.bracket :: rest, t) =>
      if l = .symbol .closeBracket then .ok (.operator rest (.group t)) else .error .missingBracket
    | _ => .error (.trailingToken l)

def finish : Reading → Except Cause Expression
  | .operand _ => .error .unexpectedEnd
  | .magnitude _ => .error .expectedNumber
  | .operator frames last =>
    match Frame.close 0 frames last with
    | (.bracket :: _, _) => .error .missingBracket
    | (_, t) => .ok t

def feedAll (limit : Nat) (r : Reading) : List Lexeme → Except Cause Reading
  | [] => .ok r
  | l :: rest =>
    match r.feed limit l with
    | .ok r' => feedAll limit r' rest
    | .error cause => .error cause

def emitter : Reading → Emitter
  | .operand frames =>
    ⟨.operand, frames.map Frame.pending, Frame.brackets frames, Frame.emitted frames⟩
  | .magnitude frames =>
    ⟨.magnitude, frames.map Frame.pending, Frame.brackets frames, Frame.emitted frames⟩
  | .operator frames last =>
    ⟨.operator, frames.map Frame.pending, Frame.brackets frames,
      last.postorder.reverse ++ Frame.emitted frames⟩

def lexemes : Reading → List Lexeme
  | .operand frames => Frame.lexemes frames
  | .magnitude frames =>
    Frame.lexemes frames ++ [.symbol (.operator (.arithmetic .subtract))]
  | .operator frames last => Frame.lexemes frames ++ last.lexemes

/-- What the words that were taken may be. A complete operand is no operation yet: operators are
closed by the word that follows. -/
def Fits (limit : Nat) : Reading → Prop
  | .operand frames | .magnitude frames => Frame.Fits limit frames
  | .operator frames last => Frame.Takes limit frames last ∧ last.level = primaryLevel

/-- A word that is no operator either closes the innermost bracket or is a fault. -/
private theorem feed_emitter_closing (frames : List Frame) (last : Expression) (l : Lexeme)
    (h : ∀ op, l ≠ .symbol (.operator op)) :
    (operator frames last).emitter.feed l =
      ((operator frames last).feed nestingLimit l).map emitter := by
  have hFlush := Frame.flush_pending 0 frames last
  have hBrackets := Frame.brackets_close 0 frames last
  rcases hClose : Frame.close 0 frames last with ⟨closed, t⟩
  rw [hClose] at hFlush hBrackets
  have hZero := Frame.close_zero frames last
  rw [hClose] at hZero
  rcases hZero with rfl | ⟨rest, rfl⟩
  · simp only [List.map_nil] at hFlush
    simp [emitter, Emitter.feed, feed, hFlush, hClose, Except.map]
  · simp only [List.map_cons, Frame.pending, Frame.emitted, Frame.brackets] at hFlush hBrackets
    by_cases hl : l = .symbol .closeBracket
    · simp [emitter, Emitter.feed, feed, hFlush, hClose, Except.map, hl, ← hBrackets,
        Expression.postorder]
    · simp [emitter, Emitter.feed, feed, hFlush, hClose, Except.map, hl]

/-- One step of a reading is one step of the compiler, faults included. -/
theorem feed_emitter (r : Reading) (l : Lexeme) :
    r.emitter.feed l = (r.feed nestingLimit l).map emitter := by
  cases r with
  | operand frames =>
      rcases l with text | name | (op | _ | _)
      · rfl
      · rfl
      · rcases op with a | _
        · cases a <;> rfl
        · rfl
      · by_cases hDeep : nestingLimit ≤ Frame.brackets frames
        · simp [emitter, feed, Emitter.feed, hDeep, Except.map]
        · simp [emitter, feed, Emitter.feed, hDeep, Except.map, Frame.pending, Frame.brackets,
            Frame.emitted]
      · rfl
  | magnitude frames => cases l <;> rfl
  | operator frames last =>
      rcases l with text | name | (op | _ | _)
      · exact feed_emitter_closing frames last _ (by simp)
      · exact feed_emitter_closing frames last _ (by simp)
      · simp only [emitter, feed, Emitter.feed, Frame.flush_pending, Except.map, Frame.emitted,
          Frame.brackets, Frame.brackets_close, List.map_cons, Frame.pending]
      · exact feed_emitter_closing frames last _ (by simp)
      · exact feed_emitter_closing frames last _ (by simp)

theorem finish_emitter (r : Reading) :
    r.emitter.finish = r.finish.map Expression.postorder := by
  cases r with
  | operand frames => rfl
  | magnitude frames => rfl
  | operator frames last =>
      have hFlush := Frame.flush_pending 0 frames last
      have hZero := Frame.close_zero frames last
      rcases hClose : Frame.close 0 frames last with ⟨closed, t⟩
      rw [hClose] at hFlush hZero
      rcases hZero with rfl | ⟨rest, rfl⟩
      · simp [emitter, Emitter.finish, finish, hFlush, hClose, Except.map, Frame.emitted]
      · simp only [List.map_cons, Frame.pending] at hFlush
        simp [emitter, Emitter.finish, finish, hFlush, hClose, Except.map]

/-- A complete operand that is no operation fits behind any frames that fit. -/
private theorem fits_operator {frames : List Frame} {last : Expression}
    (hFrames : Frame.Fits limit frames) (hLevelled : last.Levelled)
    (hLevel : last.level = primaryLevel) (hNesting : Frame.brackets frames + last.nesting ≤ limit) :
    (operator frames last).Fits limit :=
  ⟨⟨hFrames, hLevelled, hLevel ▸ Frame.below_primaryLevel frames, hNesting⟩, hLevel⟩

theorem brackets_le_of_fits {frames : List Frame} (h : Frame.Fits limit frames) :
    Frame.brackets frames ≤ limit := by
  cases frames with
  | nil => exact Nat.zero_le _
  | cons frame frames =>
      cases frame with
      | bracket => exact h.2
      | operator l op => exact Nat.le_trans (Nat.le_add_right _ _) h.2.2.2.2

/-- A step keeps what was read fitting, and adds its word to it. -/
theorem Fits.feed {r r' : Reading} {l : Lexeme} (h : r.Fits limit)
    (hFeed : r.feed limit l = .ok r') : r'.Fits limit ∧ r'.lexemes = r.lexemes ++ [l] := by
  revert hFeed
  fun_cases Reading.feed limit r l with
  | case1 frames text =>
      rintro ⟨⟩
      exact ⟨fits_operator h trivial rfl (brackets_le_of_fits h), rfl⟩
  | case2 frames name =>
      rintro ⟨⟩
      exact ⟨fits_operator h trivial rfl (brackets_le_of_fits h), rfl⟩
  | case3 frames =>
      rintro ⟨⟩
      exact ⟨h, rfl⟩
  | case5 frames hDeep =>
      rintro ⟨⟩
      exact ⟨⟨h, Nat.lt_of_not_le hDeep⟩, rfl⟩
  | case7 frames text =>
      rintro ⟨⟩
      refine ⟨fits_operator h trivial rfl (brackets_le_of_fits h), ?_⟩
      simp only [lexemes, Expression.lexemes, List.append_assoc, List.singleton_append]
  | case9 frames last op closed =>
      rintro ⟨⟩
      obtain ⟨hTakes, hLast⟩ := h
      have hLevel : op.level ≤ last.level := hLast ▸ Nat.le_of_lt op.level_lt_primaryLevel
      obtain ⟨hClosed, hLe, hBelow⟩ := hTakes.close hLevel
      refine ⟨⟨hClosed.fits, hClosed.levelled, hLe, hBelow, hClosed.nesting⟩, ?_⟩
      simp only [lexemes, Frame.lexemes, ← List.append_assoc, closed, Frame.lexemes_close]
  | case10 frames last rest t hClose =>
      rintro ⟨⟩
      obtain ⟨hTakes, _⟩ := h
      have hClosed := (hTakes.close (Nat.zero_le _)).1
      have hLexemes := Frame.lexemes_close 0 frames last
      rw [hClose] at hClosed hLexemes
      obtain ⟨⟨hRest, _⟩, hLevelled, _, hNesting⟩ := hClosed
      refine ⟨fits_operator hRest hLevelled rfl ?_, ?_⟩
      · simp only [Frame.brackets, Expression.nesting] at hNesting ⊢
        omega
      · simp only [lexemes, Expression.lexemes, ← hLexemes, Frame.lexemes, List.append_assoc,
          List.cons_append, List.nil_append]
  | case4 | case6 | case8 | case11 | case12 => rintro ⟨⟩

/-- What is complete when the words end is an expression of the grammar. -/
theorem Fits.finish {r : Reading} {t : Expression} (h : r.Fits limit) (hFinish : r.finish = .ok t) :
    Derives 0 r.lexemes t ∧ t.nesting ≤ limit := by
  revert hFinish
  fun_cases Reading.finish r with
  | case1 | case2 | case3 => rintro ⟨⟩
  | case4 frames last closed t hNoBracket hClose =>
      rintro ⟨⟩
      have hClosed := (h.1.close (Nat.zero_le _)).1
      have hLexemes := Frame.lexemes_close 0 frames last
      have hZero := Frame.close_zero frames last
      rw [hClose] at hClosed hLexemes hZero
      obtain rfl : closed = [] := by
        rcases hZero with hNil | ⟨rest, hBracket⟩
        · exact hNil
        · exact (hNoBracket rest hBracket).elim
      refine ⟨derives_iff.mpr ⟨hLexemes.symm, hClosed.levelled, Nat.zero_le _⟩, ?_⟩
      simpa [Frame.brackets] using hClosed.nesting

theorem Fits.feedAll {r r' : Reading} {words : List Lexeme} (h : r.Fits limit)
    (hFeed : r.feedAll limit words = .ok r') : r'.Fits limit ∧ r'.lexemes = r.lexemes ++ words := by
  induction words generalizing r with
  | nil =>
      cases hFeed
      exact ⟨h, (List.append_nil _).symm⟩
  | cons l rest ih =>
      simp only [Reading.feedAll] at hFeed
      split at hFeed
      · rename_i middle hStep
        obtain ⟨hMiddle, hLexemes⟩ := h.feed hStep
        obtain ⟨hFits, hAll⟩ := ih hMiddle hFeed
        exact ⟨hFits, by rw [hAll, hLexemes, List.append_assoc, List.singleton_append]⟩
      · cases hFeed

theorem feedAll_append {r r' : Reading} {first : List Lexeme} (h : r.feedAll limit first = .ok r')
    (second : List Lexeme) : r.feedAll limit (first ++ second) = r'.feedAll limit second := by
  induction first generalizing r with
  | nil =>
      cases h
      rfl
  | cons l rest ih =>
      simp only [feedAll, List.cons_append] at h ⊢
      split at h
      · rename_i middle hStep
        exact ih h
      · cases h

/-- The words of a levelled expression are read to their end wherever an operand of level `k` may
stand, if it has that level. Closing the level then gives the expression back. -/
theorem feedAll_lexemes {t : Expression} (hLevelled : t.Levelled) {k : Nat} (hLevel : k ≤ t.level)
    (frames : List Frame) (hBelow : Frame.Below k frames)
    (hNesting : Frame.brackets frames + t.nesting ≤ limit) :
    ∃ rest last, (operand frames).feedAll limit t.lexemes = .ok (operator rest last) ∧
      Frame.close k rest last = (frames, t) := by
  -- The induction is on the expression; `frames` and `k` are what surrounds it, so they vary.
  induction t generalizing k frames with
  | number text => exact ⟨frames, .number text, rfl, Frame.close_of_below hBelow _⟩
  | negative text => exact ⟨frames, .negative text, rfl, Frame.close_of_below hBelow _⟩
  | identifier name => exact ⟨frames, .identifier name, rfl, Frame.close_of_below hBelow _⟩
  | group t ih =>
      have hRoom : ¬ limit ≤ Frame.brackets frames := by
        simp only [Expression.nesting] at hNesting
        omega
      have hInside : Frame.brackets (.bracket :: frames) + t.nesting ≤ limit := by
        simp only [Expression.nesting, Frame.brackets] at hNesting ⊢
        omega
      obtain ⟨rest, last, hInner, hClose⟩ :=
        ih hLevelled (Nat.zero_le _) (.bracket :: frames) trivial hInside
      refine ⟨frames, .group t, ?_, Frame.close_of_below hBelow _⟩
      have hOpen : (operand frames).feed limit (.symbol .openBracket) =
          .ok (operand (.bracket :: frames)) := if_neg hRoom
      have hShut : (operator rest last).feed limit (.symbol .closeBracket) =
          .ok (operator frames (.group t)) := by
        simp only [feed, hClose, if_true]
      simp only [Expression.lexemes, feedAll, hOpen]
      rw [feedAll_append hInner]
      simp only [feedAll, hShut]
  | binary op l r ihLeft ihRight =>
      obtain ⟨hLeft, hRight, hLe, hLt⟩ := hLevelled
      simp only [Expression.level, Expression.nesting] at hLevel hNesting
      obtain ⟨rest, last, hFirst, hClose⟩ :=
        ihLeft hLeft hLe frames (hBelow.mono hLevel) (by omega)
      have hOp : (operator rest last).feed limit (.symbol (.operator op)) =
          .ok (operand (.operator l op :: frames)) := by
        simp only [feed, hClose]
      have hInside : Frame.brackets (.operator l op :: frames) + r.nesting ≤ limit := by
        simp only [Frame.brackets]
        omega
      obtain ⟨rest', last', hSecond, hClose'⟩ :=
        ihRight hRight hLt (.operator l op :: frames) (Nat.lt_succ_self _) hInside
      refine ⟨rest', last', ?_, ?_⟩
      · rw [Expression.lexemes, feedAll_append hFirst]
        simp only [feedAll, hOp, hSecond]
      · -- Closing `k` first closes what binds tighter than `op`, then `op`, then stops.
        have hAll := Frame.close_close (Nat.le_succ_of_le hLevel) rest' last'
        rw [hClose'] at hAll
        rw [← hAll, Frame.close, if_pos hLevel, Frame.close_of_below hBelow]

end Reading

def Expression.read (limit : Nat) (words : List Lexeme) : Except CompileError.Cause Expression :=
  match (Reading.operand []).feedAll limit words with
  | .ok r => r.finish
  | .error cause => .error cause

/-- Words can be read exactly when the grammar derives an expression from them whose brackets are
not nested too deeply, and the expression that is read is then this one. -/
theorem Expression.read_eq_ok_iff {limit : Nat} {words : List Lexeme} {t : Expression} :
    Expression.read limit words = .ok t ↔ Derives 0 words t ∧ t.nesting ≤ limit := by
  constructor
  · intro h
    simp only [Expression.read] at h
    split at h
    · rename_i r hFeed
      obtain ⟨hFits, hLexemes⟩ := Reading.Fits.feedAll (r := .operand []) trivial hFeed
      have hDerives := hFits.finish h
      rwa [hLexemes] at hDerives
    · cases h
  · rintro ⟨hDerives, hNesting⟩
    obtain ⟨rfl, hLevelled, hLevel⟩ := derives_iff.mp hDerives
    have hInside : Frame.brackets [] + t.nesting ≤ limit := by
      simpa [Frame.brackets] using hNesting
    obtain ⟨rest, last, hFeed, hClose⟩ :=
      Reading.feedAll_lexemes hLevelled hLevel [] trivial hInside
    simp only [Expression.read, hFeed, Reading.finish, hClose]

/-- The grammar reads words in one way only. -/
theorem Derives.unique {words : List Lexeme} {s t : Expression} (hs : Derives 0 words s)
    (ht : Derives 0 words t) : s = t := by
  have hs' := Expression.read_eq_ok_iff.mpr ⟨hs, Nat.le_max_left s.nesting t.nesting⟩
  have ht' := Expression.read_eq_ok_iff.mpr ⟨ht, Nat.le_max_right s.nesting t.nesting⟩
  exact Except.ok.inj (hs'.symm.trans ht')

end StackCalc
