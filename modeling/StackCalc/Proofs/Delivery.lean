import StackCalc.Proofs.Scanning
import StackCalc.Token.Cursor

/-! What a cursor delivers. It holds one token and looks one ahead, so it runs into the place where
the scan stopped one call early, with a token still in hand. That call fails and takes nothing away:
the next one hands the token out, and only then is the cursor at its end. -/
namespace StackCalc.Cursor

/-- The cursor after a number of calls, each made whatever the ones before it gave back. -/
def after (c : Cursor) : Nat → Cursor
  | 0 => c
  | n + 1 => (c.after n).advance.2

/-- What a call gives back. Calls are counted from zero. -/
def answer (c : Cursor) (n : Nat) : Except CompileError Token :=
  (c.after n).advance.1

/-- The tokens that the first `n` calls give back. -/
def delivered (c : Cursor) : Nat → List Token
  | 0 => []
  | n + 1 => c.delivered n ++ (c.answer n).toOption.toList

/-- The failure of a call at the end of the source. -/
def exhausted (source : String) : CompileError :=
  ⟨.unexpectedEnd, source, source.length⟩

/-- What a call can do: hand the current token out and move on, run into the place where the scan
stopped, or find the source at its end. -/
theorem advance_cases (c : Cursor) :
    (∃ t, c.current = some t ∧ (c.upcoming = [] → c.stop = none) ∧
      c.advance = (.ok t, { c with current := c.upcoming.head?, upcoming := c.upcoming.tail })) ∨
    (∃ t stop, c.current = some t ∧ c.upcoming = [] ∧ c.stop = some stop ∧
      c.advance = (.error (strange c.source stop), { c with stop := none })) ∨
    (c.current = none ∧ c.advance = (.error (exhausted c.source), c)) := by
  obtain ⟨source, current, upcoming, stop⟩ := c
  cases current with
  | none => exact .inr (.inr ⟨rfl, rfl⟩)
  | some t =>
      cases upcoming with
      | cons next rest => exact .inl ⟨t, rfl, nofun, rfl⟩
      | nil =>
          cases stop with
          | none => exact .inl ⟨t, rfl, fun _ => rfl, rfl⟩
          | some stop => exact .inr (.inl ⟨t, stop, rfl, rfl, rfl, rfl⟩)

theorem advance_of_current_eq_none {c : Cursor} (h : c.current = none) :
    c.advance = (.error (exhausted c.source), c) := by
  rw [advance, h]
  rfl

/-- Where a cursor is in a source: `past` has been handed out, and what is left of the tokens is the
current one and those behind it. -/
structure At (source : String) (past : List Token) (c : Cursor) : Prop where
  source_eq : c.source = source
  tokens_eq : past ++ (c.current.toList ++ c.upcoming) = (scan source).tokens
  last : c.current = none → c.upcoming = []
  stop_eq : c.stop = (scan source).stop ∨ c.stop = none ∧ c.upcoming = []

namespace At
variable {source : String} {past : List Token} {c : Cursor}

theorem start (h : Cursor.start source = .ok c) : At source [] c := by
  unfold Cursor.start at h
  split at h
  · rename_i hScan
    cases h
    exact ⟨rfl, by simp [hScan], nofun, .inl (by rw [hScan])⟩
  · cases h
  · rename_i hScan
    cases h
    exact ⟨rfl, by simp [hScan], fun _ => rfl, .inl (by rw [hScan])⟩

theorem advance (h : At source past c) :
    At source (past ++ c.advance.1.toOption.toList) c.advance.2 := by
  rcases c.advance_cases with ⟨t, hCurrent, -, hAdvance⟩ | ⟨t, stop, hCurrent, hLast, -, hAdvance⟩ |
    ⟨hCurrent, hAdvance⟩
  · rw [hAdvance]
    refine ⟨h.source_eq, ?_, ?_, ?_⟩
    · have hTokens := h.tokens_eq
      rw [hCurrent] at hTokens
      rw [← hTokens]
      cases hUpcoming : c.upcoming <;> simp [Except.toOption]
    · intro hNone
      simp only [List.head?_eq_none_iff] at hNone
      simp [hNone]
    · rcases h.stop_eq with hStop | ⟨hStop, hLast⟩
      · exact .inl hStop
      · exact .inr ⟨hStop, by simp [hLast]⟩
  · rw [hAdvance]
    exact ⟨h.source_eq, by simpa [Except.toOption] using h.tokens_eq, h.last, .inr ⟨rfl, hLast⟩⟩
  · rw [hAdvance]
    simpa [Except.toOption] using h

theorem after (h : At source [] c) (n : Nat) : At source (c.delivered n) (c.after n) := by
  induction n with
  | zero => exact h
  | succ n ih => exact ih.advance

theorem prefix_tokens (h : At source past c) : past <+: (scan source).tokens :=
  ⟨_, h.tokens_eq⟩

/-- Nothing is left in hand exactly when everything has been handed out. -/
theorem current_eq_none_iff (h : At source past c) :
    c.current = none ↔ past = (scan source).tokens := by
  rw [← h.tokens_eq, List.self_eq_append_right, List.append_eq_nil_iff, Option.toList_eq_nil_iff]
  exact ⟨fun hNone => ⟨hNone, h.last hNone⟩, And.left⟩

/-- The position of a cursor is the offset of its token, which lies behind those handed out and
before those to come. -/
theorem position_le_advance (h : At source past c) : c.position ≤ c.advance.2.position := by
  rcases c.advance_cases with ⟨t, hCurrent, -, hAdvance⟩ | ⟨t, stop, -, -, -, hAdvance⟩ |
    ⟨-, hAdvance⟩
  · have hPlaces := Scan.places_scan source
    have hTokens := h.tokens_eq
    rw [hCurrent] at hTokens
    rw [hAdvance]
    simp only [position, hCurrent, Option.elim_some, h.source_eq]
    cases hUpcoming : c.upcoming with
    | nil =>
        have hMem : t ∈ (scan source).tokens := by simp [← hTokens]
        have hLt := hPlaces.pos_lt hMem
        rw [String.length_toList] at hLt
        exact Nat.le_of_lt hLt
    | cons next rest =>
        have hIncreasing := hPlaces.increasing
        rw [← hTokens, hUpcoming] at hIncreasing
        have hLt : t.pos < next.pos := by
          have hBehind := (List.pairwise_append.mp hIncreasing).2.1
          exact List.rel_of_pairwise_cons hBehind (by simp)
        exact Nat.le_of_lt hLt
  · exact Nat.le_of_eq (congrArg (fun call => call.2.position) hAdvance).symm
  · exact Nat.le_of_eq (congrArg (fun call => call.2.position) hAdvance).symm

end At

section
variable {c : Cursor}

/-- A failing call is the only one that meets the stop, or it is made at the end. It keeps the
current token in any case. -/
theorem answer_error_cases {n : Nat} {e : CompileError} (h : c.answer n = .error e) :
    (c.after (n + 1)).current = (c.after n).current ∧
      ((∃ stop, (c.after n).stop = some stop ∧ (c.after (n + 1)).stop = none ∧
          e = strange (c.after n).source stop) ∨
        (c.after n).current = none ∧ e = exhausted (c.after n).source) := by
  rw [answer] at h
  rw [after]
  rcases (c.after n).advance_cases with ⟨t, -, -, hAdvance⟩ | ⟨t, stop, -, -, hStop, hAdvance⟩ |
    ⟨hCurrent, hAdvance⟩
  · rw [hAdvance] at h
    cases h
  · rw [hAdvance] at h ⊢
    cases h
    exact ⟨rfl, .inl ⟨stop, hStop, rfl, rfl⟩⟩
  · rw [hAdvance] at h ⊢
    cases h
    exact ⟨rfl, .inr ⟨hCurrent, rfl⟩⟩

/-- A call fails with the stop of the scan or at the end of the source. -/
theorem At.error_cases {source : String} {n : Nat} {e : CompileError} (h : At source [] c)
    (hError : c.answer n = .error e) :
    e = exhausted source ∨ ∃ stop ∈ (scan source).stop, e = strange source stop := by
  obtain ⟨-, hCause⟩ := answer_error_cases hError
  rw [(h.after n).source_eq] at hCause
  rcases hCause with ⟨stop, hStop, -, rfl⟩ | ⟨-, rfl⟩
  · right
    rcases (h.after n).stop_eq with hScan | ⟨hNone, -⟩
    · exact ⟨stop, hScan ▸ hStop, rfl⟩
    · rw [hNone] at hStop
      cases hStop
  · exact .inl rfl

/-- Once it has been met, the stop is gone for good. -/
theorem stop_after_of_le {m n : Nat} (hStop : (c.after m).stop = none) (h : m ≤ n) :
    (c.after n).stop = none := by
  induction h with
  | refl => exact hStop
  | @step n _ ih =>
      rw [after]
      rcases (c.after n).advance_cases with ⟨_, -, -, hAdvance⟩ | ⟨_, _, -, -, -, hAdvance⟩ |
        ⟨-, hAdvance⟩
      · rw [hAdvance]
        exact ih
      · rw [hAdvance]
      · rw [hAdvance]
        exact ih

/-- The call that meets the stop removes it, so no later one meets it again. -/
theorem not_lt_of_answer_strange {source : String} {m n : Nat} {stop stop' : Stop}
    (hFirst : c.answer m = .error (strange source stop))
    (hSecond : c.answer n = .error (strange source stop')) : ¬ m < n := by
  intro hLt
  rcases (answer_error_cases hFirst).2 with ⟨-, -, hGone, -⟩ | ⟨-, hEnd⟩
  · rcases (answer_error_cases hSecond).2 with ⟨_, hStop, -⟩ | ⟨-, hEnd⟩
    · rw [stop_after_of_le hGone hLt] at hStop
      cases hStop
    · cases hEnd
  · cases hEnd

theorem current_after_of_le {m n : Nat} (hCurrent : (c.after m).current = none) (h : m ≤ n) :
    (c.after n).current = none := by
  induction h with
  | refl => exact hCurrent
  | @step n _ ih =>
      rw [after, advance_of_current_eq_none ih]
      exact ih

/-- Until the cursor is at its end every call hands out a token, but for one that meets the stop. -/
theorem le_length_delivered (c : Cursor) (n : Nat) :
    (c.after n).current = none ∨
      n + (c.after n).stop.toList.length ≤ (c.delivered n).length + c.stop.toList.length := by
  induction n with
  | zero => exact .inr (by simp [after, delivered])
  | succ n ih =>
      rcases ih with hNone | hCount
      · exact .inl (current_after_of_le hNone (Nat.le_succ n))
      · rw [after, delivered, answer]
        rcases (c.after n).advance_cases with ⟨t, -, -, hAdvance⟩ |
          ⟨t, stop, -, -, hStop, hAdvance⟩ | ⟨hCurrent, hAdvance⟩
        · right
          rw [hAdvance, List.length_append]
          simp only [Except.toOption, Option.toList_some, List.length_singleton]
          omega
        · right
          rw [hStop] at hCount
          rw [hAdvance, List.length_append]
          simp only [Option.toList_some, Option.toList_none, List.length_singleton,
            List.length_nil] at hCount ⊢
          omega
        · left
          rw [hAdvance]
          exact hCurrent

end

/-- One call more than there are tokens is enough to get them all. -/
theorem At.delivered_eq {source : String} {c : Cursor} (h : At source [] c) :
    c.delivered ((scan source).tokens.length + 1) = (scan source).tokens := by
  have hAfter := h.after ((scan source).tokens.length + 1)
  rcases c.le_length_delivered ((scan source).tokens.length + 1) with hNone | hCount
  · exact hAfter.current_eq_none_iff.mp hNone
  · apply hAfter.prefix_tokens.eq_of_length_le
    have hStop : c.stop.toList.length ≤ 1 := by cases c.stop <;> simp
    omega

theorem exists_start {source : String}
    (h : (scan source).tokens ≠ [] ∨ (scan source).stop = none) :
    ∃ c, start source = .ok c := by
  unfold start
  split
  · exact ⟨_, rfl⟩
  · rename_i hScan
    simp [hScan] at h
  · exact ⟨_, rfl⟩

/-- A cursor delivers every token exactly once, in order, also where the scan stops. Its position
never decreases, a failing call keeps the current token, and it fails with the stop of the scan, at
most once, or at the end of the source. There it fails for good. -/
theorem delivers_each_token_once {source : String}
    (h : (scan source).tokens ≠ [] ∨ (scan source).stop = none) :
    ∃ c, start source = .ok c ∧
      (∀ n, c.delivered n <+: (scan source).tokens) ∧
      c.delivered ((scan source).tokens.length + 1) = (scan source).tokens ∧
      (∀ n, (c.after n).position ≤ (c.after (n + 1)).position) ∧
      (∀ n e, c.answer n = .error e → (c.after (n + 1)).current = (c.after n).current ∧
        (e = exhausted source ∨ ∃ stop ∈ (scan source).stop, e = strange source stop)) ∧
      (∀ m n stop stop', c.answer m = .error (strange source stop) →
        c.answer n = .error (strange source stop') → m = n) ∧
      ∀ m n, c.delivered m = (scan source).tokens → m ≤ n →
        ∃ e, c.answer n = .error e ∧ e.message = "Unexpected end of expression" ∧
          e.source = source ∧ e.offset = source.length := by
  obtain ⟨c, hStart⟩ := exists_start h
  have hAt := At.start hStart
  refine ⟨c, hStart, fun n => (hAt.after n).prefix_tokens, hAt.delivered_eq,
    fun n => (hAt.after n).position_le_advance, ?_, ?_, ?_⟩
  · intro n e hError
    exact ⟨(answer_error_cases hError).1, hAt.error_cases hError⟩
  · intro m n stop stop' hFirst hSecond
    have hNotBefore := not_lt_of_answer_strange hFirst hSecond
    have hNotBehind := not_lt_of_answer_strange hSecond hFirst
    omega
  · intro m n hAll hLe
    have hNone := current_after_of_le ((hAt.after m).current_eq_none_iff.mpr hAll) hLe
    refine ⟨exhausted source, ?_, rfl, rfl, rfl⟩
    rw [answer, advance_of_current_eq_none hNone, (hAt.after n).source_eq]

/-- The second call runs into the dollar sign and still leaves the plus sign to the third. -/
theorem delivers_token_before_stop :
    (scan "1 + $").tokens =
        [⟨.number "1", 0⟩, ⟨.symbol (.operator (.arithmetic .add)), 2⟩] ∧
      ∃ c, start "1 + $" = .ok c ∧
        c.answer 1 = .error (strange "1 + $" ⟨4, '$'⟩) ∧
        (c.after 2).current = (c.after 1).current ∧
        c.delivered 3 = (scan "1 + $").tokens ∧
        ∀ n ≥ 3, ∃ e, c.answer n = .error e ∧ e.message = "Unexpected end of expression" ∧
          e.source = "1 + $" ∧ e.offset = 5 := by
  have hScan : scan "1 + $" =
      ⟨[⟨.number "1", 0⟩, ⟨.symbol (.operator (.arithmetic .add)), 2⟩], some ⟨4, '$'⟩⟩ := by
    decide +kernel
  have hStart : start "1 + $" = .ok ⟨"1 + $", some ⟨.number "1", 0⟩,
      [⟨.symbol (.operator (.arithmetic .add)), 2⟩], some ⟨4, '$'⟩⟩ := by
    rw [start, hScan]
  have hTokens := congrArg Scan.tokens hScan
  have hSome : (scan "1 + $").tokens ≠ [] ∨ (scan "1 + $").stop = none := by simp [hTokens]
  obtain ⟨c, hc, -, hAll, -, hKept, -, hEnd⟩ := delivers_each_token_once hSome
  have hStop : c.answer 1 = .error (strange "1 + $" ⟨4, '$'⟩) := by
    rw [← Except.ok.inj (hStart.symm.trans hc)]
    rfl
  rw [hTokens] at hAll hEnd ⊢
  exact ⟨rfl, c, hc, hStop, (hKept 1 _ hStop).1, hAll, fun n hn => hEnd 3 n hAll hn⟩

end StackCalc.Cursor
