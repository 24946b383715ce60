import StackCalc.Proofs.Compilation
import StackCalc.Proofs.Scanning

/-! Where a compilation fails. The compiler reads from left to right and takes a word only if some
expression goes on with it: whatever it has taken can be completed by a number and closing brackets.
So the offset of its error is the first place at which nothing can be saved any more. -/
namespace StackCalc

/-- Closing everything runs into a bracket exactly if one is open. -/
theorem Frame.close_zero_brackets (frames : List Frame) (t : Expression) :
    (brackets frames = 0 ∧ ∃ s, close 0 frames t = ([], s)) ∨
      ∃ rest s, brackets frames = brackets rest + 1 ∧ close 0 frames t = (.bracket :: rest, s) := by
  induction frames generalizing t with
  | nil => exact .inl ⟨rfl, t, rfl⟩
  | cons frame frames ih =>
      cases frame with
      | bracket => exact .inr ⟨frames, t, rfl, rfl⟩
      | operator l op => exact ih (.binary op l t)

namespace Reading
variable {limit : Nat}

/-- A bracket for each one that is open completes what was read. -/
theorem feedAll_closing (n : Nat) (frames : List Frame) (last : Expression)
    (h : Frame.brackets frames = n) :
    ∃ r t, (operator frames last).feedAll limit (.replicate n (.symbol .closeBracket)) = .ok r ∧
      r.finish = .ok t := by
  induction n generalizing frames last with
  | zero =>
      rcases Frame.close_zero_brackets frames last with ⟨-, t, hClose⟩ | ⟨rest, t, hOpen, -⟩
      · exact ⟨_, t, rfl, by simp only [finish, hClose]⟩
      · omega
  | succ n ih =>
      rcases Frame.close_zero_brackets frames last with ⟨hNone, -⟩ | ⟨rest, t, hOpen, hClose⟩
      · omega
      · obtain ⟨r, s, hFeed, hFinish⟩ := ih rest (.group t) (by omega)
        refine ⟨r, s, ?_, hFinish⟩
        simp only [List.replicate_succ, feedAll, feed, hClose, if_true, hFeed]

/-- Whatever was read can be completed. -/
theorem exists_completion (limit : Nat) (r : Reading) :
    ∃ words r' t, (∀ l ∈ words, l.Proper) ∧ r.feedAll limit words = .ok r' ∧
      r'.finish = .ok t := by
  have hZero : Numeral (['0'] ++ [] ++ []) := .mk .zero .absent .absent
  have hClosing : ∀ n, ∀ l ∈ List.replicate n (Lexeme.symbol .closeBracket), l.Proper := by
    intro n l hl
    rw [List.eq_of_mem_replicate hl]
    trivial
  cases r with
  | operand frames =>
      obtain ⟨r', t, hFeed, hFinish⟩ := feedAll_closing _ frames (.number "0") rfl
      exact ⟨.number "0" :: _, r', t, List.forall_mem_cons.mpr ⟨hZero, hClosing _⟩, hFeed, hFinish⟩
  | magnitude frames =>
      obtain ⟨r', t, hFeed, hFinish⟩ := feedAll_closing _ frames (.negative "0") rfl
      exact ⟨.number "0" :: _, r', t, List.forall_mem_cons.mpr ⟨hZero, hClosing _⟩, hFeed, hFinish⟩
  | operator frames last =>
      obtain ⟨r', t, hFeed, hFinish⟩ := feedAll_closing _ frames last rfl
      exact ⟨_, r', t, hClosing _, hFeed, hFinish⟩

/-- A fault stays where it is, whatever words follow. -/
theorem feedAll_append_error {r : Reading} {first : List Lexeme} {cause : CompileError.Cause}
    (h : r.feedAll limit first = .error cause) (second : List Lexeme) :
    r.feedAll limit (first ++ second) = .error cause := by
  induction first generalizing r with
  | nil => cases h
  | cons l rest ih =>
      simp only [feedAll, List.cons_append] at h ⊢
      split at h
      · exact ih h
      · exact h

/-- Where the compiler fails at a token, a reading has taken the words before it and fails too. -/
theorem feedAll_emitter_error {r : Reading} {tokens : List Token} {cause : CompileError.Cause}
    {pos : Nat} (h : r.emitter.feedAll tokens = .error (cause, pos)) :
    ∃ before t after r', tokens = before ++ t :: after ∧ t.pos = pos ∧
      r.feedAll nestingLimit (before.map Token.lexeme) = .ok r' ∧
      r'.feed nestingLimit t.lexeme = .error cause := by
  induction tokens generalizing r with
  | nil => cases h
  | cons t rest ih =>
      simp only [Emitter.feedAll, feed_emitter] at h
      cases hFeed : r.feed nestingLimit t.lexeme with
      | error cause' =>
          rw [hFeed] at h
          cases h
          exact ⟨[], t, rest, r, rfl, rfl, rfl, hFeed⟩
      | ok middle =>
          rw [hFeed] at h
          obtain ⟨before, u, after, r', rfl, hPos, hBefore, hFault⟩ := ih h
          refine ⟨t :: before, u, after, r', rfl, hPos, ?_, hFault⟩
          simp only [List.map_cons, feedAll, hFeed, hBefore]

end Reading

/-- Some expression with at most 64 brackets open at once begins with the words. -/
def Viable (words : List Lexeme) : Prop :=
  ∃ rest t, (∀ l ∈ words ++ rest, l.Proper) ∧ Derives 0 (words ++ rest) t ∧ t.nesting ≤ 64

/-- A reading takes exactly the words that an expression begins with. -/
theorem viable_iff_feedAll {words : List Lexeme} (hProper : ∀ l ∈ words, l.Proper) :
    Viable words ↔ ∃ r, (Reading.operand []).feedAll nestingLimit words = .ok r := by
  constructor
  · rintro ⟨rest, t, -, hDerives, hNesting⟩
    have hRead : Expression.read nestingLimit (words ++ rest) = .ok t :=
      Expression.read_eq_ok_iff.mpr ⟨hDerives, hNesting⟩
    cases hFeed : (Reading.operand []).feedAll nestingLimit words with
    | ok r => exact ⟨r, rfl⟩
    | error cause =>
        rw [Expression.read, Reading.feedAll_append_error hFeed] at hRead
        cases hRead
  · rintro ⟨r, hFeed⟩
    obtain ⟨rest, r', t, hRest, hClose, hFinish⟩ := r.exists_completion nestingLimit
    have hRead : Expression.read nestingLimit (words ++ rest) = .ok t := by
      simp only [Expression.read, Reading.feedAll_append hFeed, hClose, hFinish]
    obtain ⟨hDerives, hNesting⟩ := Expression.read_eq_ok_iff.mp hRead
    exact ⟨rest, t, List.forall_mem_append.mpr ⟨hProper, hRest⟩, hDerives, hNesting⟩

namespace Scan

/-- The words of the tokens that start before an offset. -/
def wordsBefore (s : Scan) (k : Nat) : List Lexeme :=
  (s.tokens.filter (·.pos < k)).map Token.lexeme

theorem wordsBefore_eq_lexemes {s : Scan} {k : Nat} (h : ∀ t ∈ s.tokens, t.pos < k) :
    s.wordsBefore k = s.lexemes := by
  have hAll : s.tokens.filter (·.pos < k) = s.tokens :=
    List.filter_eq_self.mpr fun t ht => decide_eq_true (h t ht)
  rw [wordsBefore, lexemes, hAll]

/-- Offsets increase, so the tokens that start before a token are those it comes after. -/
theorem Places.wordsBefore_token {source : List Char} {pos : Nat} {s : Scan}
    (h : Places source pos s) {before after : List Token} {t : Token}
    (hTokens : s.tokens = before ++ t :: after) :
    s.wordsBefore t.pos = before.map Token.lexeme ∧
      s.wordsBefore (t.pos + 1) = before.map Token.lexeme ++ [t.lexeme] := by
  have hIncreasing := h.increasing
  rw [hTokens, List.pairwise_append, List.pairwise_cons] at hIncreasing
  obtain ⟨-, ⟨hAfter, -⟩, hBefore⟩ := hIncreasing
  have hLow : ∀ k, t.pos ≤ k → before.filter (·.pos < k) = before := by
    intro k hk
    refine List.filter_eq_self.mpr fun u hu => decide_eq_true ?_
    exact Nat.lt_of_lt_of_le (hBefore u hu t (List.mem_cons_self ..)) hk
  have hHigh : ∀ k, k ≤ t.pos + 1 → after.filter (·.pos < k) = [] := by
    intro k hk
    refine List.filter_eq_nil_iff.mpr fun u hu => ?_
    have hu' := hAfter u hu
    simp only [decide_eq_true_eq]
    omega
  constructor
  · rw [wordsBefore, hTokens, List.filter_append, hLow _ (Nat.le_refl _),
      List.filter_cons_of_neg (by simp), hHigh _ (Nat.le_succ _), List.append_nil]
  · rw [wordsBefore, hTokens, List.filter_append, hLow _ (Nat.le_succ _),
      List.filter_cons_of_pos (by simp), hHigh _ (Nat.le_refl _), List.map_append]
    rfl

theorem Places.proper_wordsBefore {source : List Char} {pos : Nat} {s : Scan}
    (h : Places source pos s) (k : Nat) : ∀ l ∈ s.wordsBefore k, l.Proper := by
  intro l hl
  obtain ⟨t, ht, rfl⟩ := List.mem_map.mp hl
  exact h.proper t (List.mem_filter.mp ht).1

end Scan

/-- A token starts at `k`, and no expression goes on with it. -/
def TokenFault (source : String) (k : Nat) : Prop :=
  (∃ t ∈ (scan source).tokens, t.pos = k) ∧ ¬ Viable ((scan source).wordsBefore (k + 1))

/-- The scan stops at `k`, before a character that is no space and starts no token. -/
def CharacterFault (source : String) (k : Nat) : Prop :=
  ∃ c, (scan source).stop = some ⟨k, c⟩ ∧ source.toList[k]? = some c ∧ c ≠ ' ' ∧
    ∀ l : Lexeme, l.Proper → ¬ l.spelling <+: source.toList.drop k

/-- The source ends at `k`, and its words are no expression. -/
def EndFault (source : String) (k : Nat) : Prop :=
  k = source.length ∧ (scan source).stop = none ∧
    ¬ ∃ t, Derives 0 (scan source).lexemes t ∧ t.nesting ≤ 64

theorem TokenFault.lt_length {source : String} {k : Nat} (h : TokenFault source k) :
    k < source.length := by
  obtain ⟨⟨t, ht, rfl⟩, -⟩ := h
  have hInside := (Scan.places_scan source).pos_lt ht
  rwa [String.length_toList] at hInside

theorem CharacterFault.lt_length {source : String} {k : Nat} (h : CharacterFault source k) :
    k < source.length := by
  obtain ⟨c, -, hChar, -⟩ := h
  obtain ⟨hInside, -⟩ := List.getElem?_eq_some_iff.mp hChar
  rwa [String.length_toList] at hInside

theorem TokenFault.not_characterFault {source : String} {k : Nat} (h : TokenFault source k) :
    ¬ CharacterFault source k := by
  obtain ⟨⟨t, ht, rfl⟩, -⟩ := h
  rintro ⟨c, hStop, -⟩
  have hBefore := ((Scan.places_scan source).before_stop _ hStop).2 t ht
  exact Nat.lt_irrefl _ hBefore

theorem EndFault.not_lt_length {source : String} {k : Nat} (h : EndFault source k) :
    ¬ k < source.length := by
  rw [h.1]
  exact Nat.lt_irrefl _

/-- All tokens start before `k` and could be taken, so an expression begins with them. -/
theorem viable_of_feedAll {source : String} {k : Nat} {r : Reading}
    (hTokens : ∀ t ∈ (scan source).tokens, t.pos < k)
    (hRead : (Reading.operand []).feedAll nestingLimit (scan source).lexemes = .ok r) :
    Viable ((scan source).wordsBefore k) := by
  rw [viable_iff_feedAll ((Scan.places_scan source).proper_wordsBefore k),
    Scan.wordsBefore_eq_lexemes hTokens]
  exact ⟨r, hRead⟩

/-- A token that a reading refuses after the tokens before it. -/
theorem tokenFault_of_feed {source : String} {before after : List Token} {t : Token} {r : Reading}
    {cause : CompileError.Cause} (hTokens : (scan source).tokens = before ++ t :: after)
    (hBefore : (Reading.operand []).feedAll nestingLimit (before.map Token.lexeme) = .ok r)
    (hFault : r.feed nestingLimit t.lexeme = .error cause) :
    Viable ((scan source).wordsBefore t.pos) ∧ TokenFault source t.pos := by
  have hPlaces := Scan.places_scan source
  obtain ⟨hWords, hThrough⟩ := hPlaces.wordsBefore_token hTokens
  refine ⟨(viable_iff_feedAll (hPlaces.proper_wordsBefore _)).mpr ⟨r, hWords ▸ hBefore⟩,
    ⟨t, by simp [hTokens], rfl⟩, ?_⟩
  rw [viable_iff_feedAll (hPlaces.proper_wordsBefore _), hThrough, Reading.feedAll_append hBefore]
  rintro ⟨r', hTake⟩
  simp only [Reading.feedAll, hFault] at hTake
  cases hTake

theorem characterFault_of_stop {source : String} {stop : Stop}
    (hStop : (scan source).stop = some stop) : CharacterFault source stop.pos := by
  obtain ⟨hChar, hSpace, hTake⟩ := (Scan.places_scan source).stopped stop hStop
  exact ⟨stop.char, hStop, hChar, hSpace, fun l => Lexeme.not_spelled_of_take?_eq_none hTake⟩

theorem endFault_of_finish {source : String} {r : Reading} {cause : CompileError.Cause}
    (hStop : (scan source).stop = none)
    (hRead : (Reading.operand []).feedAll nestingLimit (scan source).lexemes = .ok r)
    (hFinish : r.finish = .error cause) : EndFault source source.length := by
  refine ⟨rfl, hStop, ?_⟩
  rintro ⟨t, hDerives, hNesting⟩
  have hWhole : Expression.read nestingLimit (scan source).lexemes = .ok t :=
    Expression.read_eq_ok_iff.mpr ⟨hDerives, hNesting⟩
  simp only [Expression.read, hRead, hFinish] at hWhole
  cases hWhole

/-- How far the compiler has come when it fails: to a token that cannot be taken, to the place where
the scan stopped, or to the end. -/
theorem compile_error_cases {source : String} {e : CompileError} (h : compile source = .error e) :
    e.source = source ∧
      ((∃ before t after r, (scan source).tokens = before ++ t :: after ∧ e.offset = t.pos ∧
          (Reading.operand []).feedAll nestingLimit (before.map Token.lexeme) = .ok r ∧
          r.feed nestingLimit t.lexeme = .error e.cause) ∨
        ∃ r, (Reading.operand []).feedAll nestingLimit (scan source).lexemes = .ok r ∧
          ((∃ stop, (scan source).stop = some stop ∧ e.offset = stop.pos) ∨
            (scan source).stop = none ∧ e.offset = source.length ∧
              r.finish = .error e.cause)) := by
  unfold compile at h
  cases hScan : compileScan (scan source) source.length with
  | ok ops =>
      rw [hScan] at h
      cases h
  | error fault =>
      rw [hScan] at h
      cases h
      refine ⟨rfl, ?_⟩
      unfold compileScan at hScan
      split at hScan
      · rename_i hFeed
        cases hScan
        obtain ⟨before, t, after, r, hTokens, hPos, hBefore, hFault⟩ :=
          Reading.feedAll_emitter_error (r := .operand []) hFeed
        exact .inl ⟨before, t, after, r, hTokens, hPos.symm, hBefore, hFault⟩
      · rename_i emitter hFeed
        obtain ⟨r, hRead, rfl⟩ := (Reading.feedAll_emitter (.operand []) _ _).mp hFeed
        refine .inr ⟨r, hRead, ?_⟩
        split at hScan
        · rename_i stop hStop
          cases hScan
          exact .inl ⟨stop, hStop, rfl⟩
        · rename_i hStop
          rw [Reading.finish_emitter] at hScan
          cases hFinish : r.finish with
          | ok t =>
              rw [hFinish] at hScan
              cases hScan
          | error cause =>
              rw [hFinish] at hScan
              cases hScan
              exact .inr ⟨hStop, rfl, rfl⟩

/-- A compilation fails at the first place that offends. The tokens before it are the beginning of
an expression, and at it stands either a token that no expression goes on with, or a character that
starts no token, or the end of words that are no expression. -/
theorem compile_fails_at_first_fault {source : String} {e : CompileError}
    (h : compile source = .error e) :
    e.source = source ∧ e.offset ≤ source.length ∧
      Viable ((scan source).wordsBefore e.offset) ∧
      ((TokenFault source e.offset ∧ ¬ CharacterFault source e.offset ∧
          ¬ EndFault source e.offset) ∨
        (¬ TokenFault source e.offset ∧ CharacterFault source e.offset ∧
          ¬ EndFault source e.offset) ∨
        (¬ TokenFault source e.offset ∧ ¬ CharacterFault source e.offset ∧
          EndFault source e.offset)) := by
  have hPlaces := Scan.places_scan source
  obtain ⟨hSource, hCases⟩ := compile_error_cases h
  refine ⟨hSource, ?_⟩
  rcases hCases with ⟨before, t, after, r, hTokens, hOffset, hBefore, hFault⟩ | ⟨r, hRead, hRest⟩
  · obtain ⟨hViable, hToken⟩ := tokenFault_of_feed hTokens hBefore hFault
    rw [hOffset]
    exact ⟨Nat.le_of_lt hToken.lt_length, hViable, .inl
      ⟨hToken, hToken.not_characterFault, fun hEnd => hEnd.not_lt_length hToken.lt_length⟩⟩
  · rcases hRest with ⟨stop, hStop, hOffset⟩ | ⟨hStop, hOffset, hFinish⟩
    · have hCharacter := characterFault_of_stop hStop
      have hViable := viable_of_feedAll (hPlaces.before_stop stop hStop).2 hRead
      rw [hOffset]
      exact ⟨Nat.le_of_lt hCharacter.lt_length, hViable, .inr (.inl
        ⟨fun hToken => hToken.not_characterFault hCharacter, hCharacter,
          fun hEnd => hEnd.not_lt_length hCharacter.lt_length⟩)⟩
    · have hEnd := endFault_of_finish hStop hRead hFinish
      have hInside : ∀ t ∈ (scan source).tokens, t.pos < source.length := fun t ht =>
        String.length_toList ▸ hPlaces.pos_lt ht
      rw [hOffset]
      exact ⟨Nat.le_refl _, viable_of_feedAll hInside hRead, .inr (.inr
        ⟨fun hToken => hEnd.not_lt_length hToken.lt_length,
          fun hCharacter => hEnd.not_lt_length hCharacter.lt_length, hEnd⟩)⟩

/-- The bracket has to be closed at offset 7, long before the scan stops. -/
theorem compile_fails_before_stop :
    compile "(a + 1 b) $" = .error ⟨.missingBracket, "(a + 1 b) $", 7⟩ ∧
      TokenFault "(a + 1 b) $" 7 ∧ ¬ CharacterFault "(a + 1 b) $" 7 := by
  have hScan : scan "(a + 1 b) $" =
      ⟨[⟨.symbol .openBracket, 0⟩, ⟨.identifier "a", 1⟩,
        ⟨.symbol (.operator (.arithmetic .add)), 3⟩, ⟨.number "1", 5⟩,
        ⟨.identifier "b", 7⟩, ⟨.symbol .closeBracket, 8⟩], some ⟨10, '$'⟩⟩ := by
    decide +kernel
  have hCompile : compile "(a + 1 b) $" = .error ⟨.missingBracket, "(a + 1 b) $", 7⟩ := by
    rw [compile, hScan]
    rfl
  obtain ⟨-, -, -, hFault⟩ := compile_fails_at_first_fault hCompile
  rcases hFault with ⟨hToken, hCharacter, -⟩ | ⟨-, ⟨c, hAt, -⟩, -⟩ | ⟨-, -, hEnd, -⟩
  · exact ⟨hCompile, hToken, hCharacter⟩
  · rw [hScan] at hAt
    cases hAt
  · exact absurd hEnd (by decide)

end StackCalc
