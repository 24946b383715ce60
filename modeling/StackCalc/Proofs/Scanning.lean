import StackCalc.Proofs.LongestMatch

/-! Where the tokens of a source stand. Every token is spelled at its offset and has the pattern of
its kind, offsets increase from token to token, and where a scan stops no lexeme of any pattern
starts. A scan leaves no character out but spaces: it comes to each place in the only possible way,
from the place before a space or before the longest lexeme that starts there. -/
namespace StackCalc

namespace Scan

/-- What a scan that began at offset `pos` finds in a source. -/
structure Places (source : List Char) (pos : Nat) (s : Scan) : Prop where
  increasing : s.tokens.Pairwise fun t u => t.pos < u.pos
  from_pos : ∀ t ∈ s.tokens, pos ≤ t.pos
  proper : ∀ t ∈ s.tokens, t.lexeme.Proper
  spelled : ∀ t ∈ s.tokens, t.lexeme.spelling <+: source.drop t.pos
  before_stop : ∀ stop ∈ s.stop, pos ≤ stop.pos ∧ ∀ t ∈ s.tokens, t.pos < stop.pos
  stopped : ∀ stop ∈ s.stop, source[stop.pos]? = some stop.char ∧ stop.char ≠ ' ' ∧
    Lexeme.take? (source.drop stop.pos) = none

/-- The text after a lexeme starts where its spelling ends. -/
theorem drop_of_take? {source after : List Char} {pos : Nat} {l : Lexeme}
    (h : Lexeme.take? (source.drop pos) = some (l, after)) :
    source.drop (pos + l.spelling.length) = after := by
  rw [← List.drop_drop, (Lexeme.take?_append h).1, List.drop_left]

theorem of_drop_eq_cons {source rest : List Char} {pos : Nat} {c : Char}
    (h : source.drop pos = c :: rest) :
    source[pos]? = some c ∧ source.drop (pos + 1) = rest := by
  rw [← List.head?_drop, ← List.tail_drop, h]
  exact ⟨rfl, rfl⟩

/-- A token in front of what is found behind it. -/
theorem Places.cons {source after : List Char} {pos : Nat} {l : Lexeme} {s : Scan}
    (hTake : Lexeme.take? (source.drop pos) = some (l, after))
    (h : Places source (pos + l.spelling.length) s) :
    Places source pos ⟨⟨l, pos⟩ :: s.tokens, s.stop⟩ := by
  obtain ⟨hAppend, hNe⟩ := Lexeme.take?_append hTake
  have hLength : 0 < l.spelling.length := List.length_pos_iff.mpr hNe
  have hBehind : ∀ t ∈ s.tokens, pos < t.pos := fun t ht => by
    have hFrom := h.from_pos t ht
    omega
  exact
    { increasing := List.pairwise_cons.mpr ⟨hBehind, h.increasing⟩
      from_pos := List.forall_mem_cons.mpr
        ⟨Nat.le_refl _, fun t ht => Nat.le_of_lt (hBehind t ht)⟩
      proper := List.forall_mem_cons.mpr ⟨Lexeme.proper_of_take? hTake, h.proper⟩
      spelled := List.forall_mem_cons.mpr ⟨⟨after, hAppend.symm⟩, h.spelled⟩
      before_stop := by
        intro stop hStop
        obtain ⟨hFrom, hTokens⟩ := h.before_stop stop hStop
        exact ⟨by omega, List.forall_mem_cons.mpr ⟨show pos < stop.pos by omega, hTokens⟩⟩
      stopped := h.stopped }

/-- Every token stands where it says, by induction on the remaining characters. -/
theorem places_scanFrom (source : List Char) (pos : Nat) (cs : List Char)
    (h : source.drop pos = cs) : Places source pos (scanFrom pos cs) := by
  fun_induction scanFrom pos cs with
  | case1 pos => exact ⟨.nil, by simp, by simp, by simp, by simp, by simp⟩
  | case2 pos rest ih =>
      have hPlaces := ih (of_drop_eq_cons h).2
      exact
        { hPlaces with
          from_pos := fun t ht => Nat.le_of_succ_le (hPlaces.from_pos t ht)
          before_stop := fun stop hStop =>
            ⟨Nat.le_of_succ_le (hPlaces.before_stop stop hStop).1,
              (hPlaces.before_stop stop hStop).2⟩ }
  | case3 pos c rest hSpace hTake =>
      refine ⟨.nil, by simp, by simp, by simp, ?_, ?_⟩
      · rintro stop ⟨⟩
        exact ⟨Nat.le_refl _, by simp⟩
      · rintro stop ⟨⟩
        exact ⟨(of_drop_eq_cons h).1, hSpace, h ▸ hTake⟩
  | case4 pos c rest hSpace l after hTake hLength following ih =>
      rw [← h] at hTake
      exact Places.cons hTake (ih (drop_of_take? hTake))

/-- Every token of a source and its stop are where they should be. -/
theorem places_scan (source : String) : Places source.toList 0 (scan source) :=
  places_scanFrom source.toList 0 source.toList rfl

/-- Positions lie within the source. -/
theorem Places.pos_lt {source : List Char} {pos : Nat} {s : Scan} (h : Places source pos s)
    {t : Token} (ht : t ∈ s.tokens) : t.pos < source.length := by
  have hLength := (h.spelled t ht).length_le
  have hNe := List.length_pos_iff.mpr (h.proper t ht).spelling_ne_nil
  rw [List.length_drop] at hLength
  omega

/-- How far a scan of a source gets: to its end, or to the place where it stops. -/
def reach (s : Scan) (source : List Char) : Nat :=
  s.stop.elim source.length Stop.pos

end Scan

def Token.finish (t : Token) : Nat :=
  t.pos + t.lexeme.spelling.length

namespace Scan

theorem Places.le_reach {source : List Char} {pos : Nat} {s : Scan} (h : Places source pos s)
    (hPos : pos ≤ source.length) : pos ≤ s.reach source := by
  cases hStop : s.stop with
  | none => simpa [reach, hStop] using hPos
  | some stop => simpa [reach, hStop] using (h.before_stop stop hStop).1

/-- A scan that began at offset `pos` covers the source from there on: its tokens do not overlap,
each of them is the longest lexeme in its place, and all characters between them are spaces. -/
structure Covers (source : List Char) (pos : Nat) (s : Scan) : Prop where
  apart : s.tokens.Pairwise fun t u => t.finish ≤ u.pos
  within : ∀ t ∈ s.tokens, t.finish ≤ s.reach source
  longest : ∀ t ∈ s.tokens, t.lexeme.Longest (source.drop t.pos)
  spaces : ∀ i, pos ≤ i → i < s.reach source → (∀ t ∈ s.tokens, i < t.pos ∨ t.finish ≤ i) →
    source[i]? = some ' '

/-- Every scan covers the source, by induction on the characters that remain. -/
theorem covers_scanFrom (source : List Char) (pos : Nat) (cs : List Char)
    (h : source.drop pos = cs) : Covers source pos (scanFrom pos cs) := by
  fun_induction scanFrom pos cs with
  | case1 pos =>
      have hLength := List.drop_eq_nil_iff.mp h
      refine ⟨.nil, by simp, by simp, ?_⟩
      intro i hFrom hReach
      change i < source.length at hReach
      omega
  | case2 pos rest ih =>
      obtain ⟨hChar, hRest⟩ := of_drop_eq_cons h
      have hCovers := ih hRest
      refine { hCovers with spaces := ?_ }
      intro i hFrom hReach hOutside
      rcases Nat.eq_or_lt_of_le hFrom with rfl | hBehind
      · exact hChar
      · exact hCovers.spaces i hBehind hReach hOutside
  | case3 pos c rest hSpace hTake =>
      refine ⟨.nil, by simp, by simp, ?_⟩
      intro i hFrom hReach
      change i < pos at hReach
      omega
  | case4 pos c rest hSpace l after hTake hLength following ih =>
      rw [← h] at hTake
      have hLongest := Lexeme.longest_of_take? hTake
      have hAfter := drop_of_take? hTake
      have hCovers := ih hAfter
      have hPlaces : Places source (pos + l.spelling.length) following :=
        places_scanFrom source _ after hAfter
      have hFits : pos + l.spelling.length ≤ source.length := by
        have hPrefix := hLongest.starts.length_le
        have hSome := List.length_pos_iff.mpr hLongest.proper.spelling_ne_nil
        rw [List.length_drop] at hPrefix
        omega
      refine ⟨?_, ?_, ?_, ?_⟩
      · exact List.pairwise_cons.mpr ⟨hPlaces.from_pos, hCovers.apart⟩
      · exact List.forall_mem_cons.mpr ⟨hPlaces.le_reach hFits, hCovers.within⟩
      · exact List.forall_mem_cons.mpr ⟨hLongest, hCovers.longest⟩
      · intro i hFrom hReach hOutside
        obtain ⟨hFirst, hOthers⟩ := List.forall_mem_cons.mp hOutside
        have hBehind : pos + l.spelling.length ≤ i := by
          rcases hFirst with hBefore | hBehind
          · change i < pos at hBefore
            omega
          · exact hBehind
        exact hCovers.spaces i hBehind hReach hOthers

end Scan

/-- The places that reading from left to right comes to, past one space or one longest lexeme at a
time. -/
inductive Visits (source : List Char) : Nat → Prop where
  | start : Visits source 0
  | space {i : Nat} (visited : Visits source i) (space : source[i]? = some ' ') :
      Visits source (i + 1)
  | lexeme {i : Nat} {l : Lexeme} (visited : Visits source i)
      (longest : l.Longest (source.drop i)) : Visits source (i + l.spelling.length)

theorem scanFrom_space (pos : Nat) (rest : List Char) :
    scanFrom pos (' ' :: rest) = scanFrom (pos + 1) rest := by
  rw [scanFrom, if_pos rfl]

/-- One step of the scanner over a lexeme. -/
theorem scanFrom_of_take? {cs after : List Char} {l : Lexeme}
    (h : Lexeme.take? cs = some (l, after)) (pos : Nat) :
    scanFrom pos cs =
      ⟨⟨l, pos⟩ :: (scanFrom (pos + l.spelling.length) after).tokens,
        (scanFrom (pos + l.spelling.length) after).stop⟩ := by
  cases cs with
  | nil => cases h
  | cons c rest =>
      have hSpace : c ≠ ' ' := by
        rintro rfl
        cases h
      rw [scanFrom, if_neg hSpace]
      split
      · rename_i hNone
        rw [h] at hNone
        cases hNone
      · rename_i hTake
        rw [h] at hTake
        cases hTake
        rfl

/-- A character that starts no lexeme stops the scanner. -/
theorem scanFrom_of_take?_eq_none {c : Char} {rest : List Char} (hSpace : c ≠ ' ')
    (h : Lexeme.take? (c :: rest) = none) (pos : Nat) :
    scanFrom pos (c :: rest) = ⟨[], some ⟨pos, c⟩⟩ := by
  rw [scanFrom, if_neg hSpace]
  split
  · rfl
  · rename_i hTake
    rw [h] at hTake
    cases hTake

namespace Visits

/-- A scan from a visited place has its tokens and its stop at visited places. -/
theorem of_mem_scanFrom {source : List Char} (pos : Nat) (cs : List Char) (h : source.drop pos = cs)
    (hPos : Visits source pos) :
    (∀ t ∈ (scanFrom pos cs).tokens, Visits source t.pos) ∧
      ∀ stop ∈ (scanFrom pos cs).stop, Visits source stop.pos := by
  fun_induction scanFrom pos cs with
  | case1 pos => simp
  | case2 pos rest ih =>
      obtain ⟨hChar, hRest⟩ := Scan.of_drop_eq_cons h
      exact ih hRest (hPos.space hChar)
  | case3 pos c rest hSpace hTake => simpa using hPos
  | case4 pos c rest hSpace l after hTake hLength following ih =>
      rw [← h] at hTake
      obtain ⟨hTokens, hStop⟩ :=
        ih (Scan.drop_of_take? hTake) (hPos.lexeme (Lexeme.longest_of_take? hTake))
      exact ⟨List.forall_mem_cons.mpr ⟨hPos, hTokens⟩, hStop⟩

/-- A scan comes to every visited place, and goes on from there as if it had begun there. -/
theorem exists_scanFrom {source : List Char} {i : Nat} (h : Visits source i) :
    ∃ before, (scanFrom 0 source).tokens = before ++ (scanFrom i (source.drop i)).tokens ∧
      (scanFrom 0 source).stop = (scanFrom i (source.drop i)).stop := by
  induction h with
  | start => exact ⟨[], rfl, rfl⟩
  | @space i _ hSpace ih =>
      obtain ⟨before, hTokens, hStop⟩ := ih
      have hDrop : source.drop i = ' ' :: source.drop (i + 1) := by
        obtain ⟨hLt, hChar⟩ := List.getElem?_eq_some_iff.mp hSpace
        rw [List.drop_eq_getElem_cons hLt, hChar]
      rw [hDrop, scanFrom_space] at hTokens hStop
      exact ⟨before, hTokens, hStop⟩
  | @lexeme i l _ hLongest ih =>
      obtain ⟨before, hTokens, hStop⟩ := ih
      obtain ⟨after, hTake⟩ := hLongest.take?
      rw [scanFrom_of_take? hTake] at hTokens hStop
      refine ⟨before ++ [⟨l, i⟩], ?_, ?_⟩
      · rw [hTokens, Scan.drop_of_take? hTake, List.append_assoc, List.singleton_append]
      · rw [hStop, Scan.drop_of_take? hTake]

end Visits

namespace Scan

/-- The tokens of a source are the longest lexemes at the places that are visited. -/
theorem mem_tokens_iff {source : String} {t : Token} :
    t ∈ (scan source).tokens ↔
      Visits source.toList t.pos ∧ t.lexeme.Longest (source.toList.drop t.pos) := by
  constructor
  · intro ht
    exact ⟨(Visits.of_mem_scanFrom 0 source.toList rfl .start).1 t ht,
      (covers_scanFrom source.toList 0 source.toList rfl).longest t ht⟩
  · rintro ⟨hVisits, hLongest⟩
    obtain ⟨before, hTokens, -⟩ := hVisits.exists_scanFrom
    obtain ⟨after, hTake⟩ := hLongest.take?
    rw [scan, hTokens, scanFrom_of_take? hTake]
    exact List.mem_append_right before List.mem_cons_self

/-- A scan stops at the visited place where there is neither a space nor a lexeme. -/
theorem stop_eq_some_iff {source : String} {stop : Stop} :
    (scan source).stop = some stop ↔
      Visits source.toList stop.pos ∧ source.toList[stop.pos]? = some stop.char ∧
        stop.char ≠ ' ' ∧
          ∀ l : Lexeme, l.Proper → ¬ l.spelling <+: source.toList.drop stop.pos := by
  constructor
  · intro hStop
    obtain ⟨hChar, hSpace, hTake⟩ := (places_scan source).stopped stop hStop
    exact ⟨(Visits.of_mem_scanFrom 0 source.toList rfl .start).2 stop hStop, hChar, hSpace,
      fun l hProper => Lexeme.not_spelled_of_take?_eq_none hTake hProper⟩
  · rintro ⟨hVisits, hChar, hSpace, hNone⟩
    obtain ⟨hLt, hGet⟩ := List.getElem?_eq_some_iff.mp hChar
    have hTake : Lexeme.take? (source.toList.drop stop.pos) = none := by
      cases hTake : Lexeme.take? (source.toList.drop stop.pos) with
      | none => rfl
      | some pair =>
          have hLongest := Lexeme.longest_of_take? hTake
          exact absurd hLongest.starts (hNone _ hLongest.proper)
    obtain ⟨before, -, hStop⟩ := hVisits.exists_scanFrom
    rw [List.drop_eq_getElem_cons hLt, hGet] at hTake hStop
    rw [scan, hStop, scanFrom_of_take?_eq_none hSpace hTake]

end Scan

/-- A scan loses and invents nothing and always takes the longest token. Its tokens lie one behind
the other in the part of the source that it reaches, each spelled in its place, and every other
character there is a space. At each visited place with a lexeme it has a token, the longest one. It
stops exactly at a visited place with neither a space nor a lexeme. -/
theorem scan_covers_source (source : String) :
    (scan source).tokens.Pairwise (fun t u => t.pos < u.pos ∧ t.finish ≤ u.pos) ∧
    (∀ t ∈ (scan source).tokens, t.finish ≤ (scan source).reach source.toList ∧
      (source.toList.drop t.pos).take t.lexeme.spelling.length = t.lexeme.spelling) ∧
    (∀ i < (scan source).reach source.toList,
      (∀ t ∈ (scan source).tokens, i < t.pos ∨ t.finish ≤ i) → source.toList[i]? = some ' ') ∧
    (∀ t, t ∈ (scan source).tokens ↔
      Visits source.toList t.pos ∧ t.lexeme.Longest (source.toList.drop t.pos)) ∧
    ∀ stop, (scan source).stop = some stop ↔
      Visits source.toList stop.pos ∧ source.toList[stop.pos]? = some stop.char ∧
        stop.char ≠ ' ' ∧
          ∀ l : Lexeme, l.Proper → ¬ l.spelling <+: source.toList.drop stop.pos := by
  have hPlaces := Scan.places_scan source
  have hCovers := Scan.covers_scanFrom source.toList 0 source.toList rfl
  refine ⟨hPlaces.increasing.and hCovers.apart, ?_, ?_, fun t => Scan.mem_tokens_iff,
    fun stop => Scan.stop_eq_some_iff⟩
  · intro t ht
    exact ⟨hCovers.within t ht, List.prefix_iff_eq_take.mp (hPlaces.spelled t ht) |>.symm⟩
  · intro i hReach hOutside
    exact hCovers.spaces i (Nat.zero_le i) hReach hOutside

/-- A number ends before an exponent without digits, and two of three asterisks are one symbol. -/
theorem scan_covers_asterisks :
    (scan "12.5e+ ***x$").tokens = [⟨.number "12.5", 0⟩, ⟨.identifier "e", 4⟩,
        ⟨.symbol (.operator (.arithmetic .add)), 5⟩, ⟨.symbol (.operator (.arithmetic .power)), 7⟩,
        ⟨.symbol (.operator (.arithmetic .multiply)), 9⟩, ⟨.identifier "x", 10⟩] ∧
      (Lexeme.number "12.5").Longest "12.5e+ ***x$".toList ∧
      "12.5e+ ***x$".toList[6]? = some ' ' ∧
      Visits "12.5e+ ***x$".toList 11 ∧
      ∀ l : Lexeme, l.Proper → ¬ l.spelling <+: ['$'] := by
  have hTokens : (scan "12.5e+ ***x$").tokens = [⟨.number "12.5", 0⟩, ⟨.identifier "e", 4⟩,
      ⟨.symbol (.operator (.arithmetic .add)), 5⟩, ⟨.symbol (.operator (.arithmetic .power)), 7⟩,
      ⟨.symbol (.operator (.arithmetic .multiply)), 9⟩, ⟨.identifier "x", 10⟩] := by
    decide +kernel
  have hStop : (scan "12.5e+ ***x$").stop = some ⟨11, '$'⟩ := by decide +kernel
  obtain ⟨-, -, hSpaces, hLongest, hStops⟩ := scan_covers_source "12.5e+ ***x$"
  obtain ⟨hVisits, -, -, hNone⟩ := (hStops ⟨11, '$'⟩).mp hStop
  refine ⟨hTokens, ?_, ?_, hVisits, hNone⟩
  · exact ((hLongest ⟨.number "12.5", 0⟩).mp (by simp [hTokens])).2
  · refine hSpaces 6 ?_ ?_
    · rw [Scan.reach, hStop]
      decide
    · rw [hTokens]
      decide

end StackCalc
