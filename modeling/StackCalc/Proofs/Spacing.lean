import StackCalc.Proofs.Concatenation

/-! Spaces between words. Whatever the words are, their text with spaces between them is scanned as
these words, and more spaces anywhere but inside a word change nothing: a lexeme that is longer than
the one before the new spaces would have to have a space in it, or it was there before. -/
namespace StackCalc

/-- Spaces in front do not change a cut. -/
theorem Cuts.spaces {cs : List Char} {words : List Lexeme} (h : Cuts cs words) (n : Nat) :
    Cuts (List.replicate n ' ' ++ cs) words := by
  induction n with
  | zero => exact h
  | succ n ih => exact .space ih

namespace Lexeme

/-- The text of words, each with the number of spaces behind it. In front of them there are `before`
spaces. -/
def spaced (before : Nat) : List (Lexeme × Nat) → List Char
  | [] => List.replicate before ' '
  | (l, behind) :: rest => List.replicate before ' ' ++ (l.spelling ++ spaced behind rest)

theorem head?_spaced {before : Nat} {entries : List (Lexeme × Nat)}
    (h : entries ≠ [] → 0 < before) : ∀ c ∈ (spaced before entries).head?, c = ' ' := by
  cases before with
  | zero =>
      cases entries with
      | nil => simp [spaced]
      | cons entry rest => exact absurd (h nofun) (Nat.lt_irrefl 0)
  | succ n => cases entries <;> simp [spaced, List.replicate_succ]

/-- Proper lexemes with a space between any two are cut into themselves. -/
theorem cuts_spaced {entries : List (Lexeme × Nat)} (hProper : ∀ entry ∈ entries, entry.1.Proper)
    (hBetween : ∀ entry ∈ entries.dropLast, 0 < entry.2) (before : Nat) :
    Cuts (spaced before entries) (entries.map Prod.fst) := by
  induction entries generalizing before with
  | nil => simpa [spaced] using Cuts.nil.spaces before
  | cons entry rest ih =>
      obtain ⟨hFirst, hRest⟩ := List.forall_mem_cons.mp hProper
      obtain ⟨hBehind, hOthers⟩ :
          (rest ≠ [] → 0 < entry.2) ∧ ∀ other ∈ rest.dropLast, 0 < other.2 := by
        cases rest with
        | nil => exact ⟨fun hSome => absurd rfl hSome, nofun⟩
        | cons next rest =>
            obtain ⟨hEntry, hOthers⟩ := List.forall_mem_cons.mp hBetween
            exact ⟨fun _ => hEntry, hOthers⟩
      refine Cuts.spaces ((Cuts.of_proper hFirst).append (ih hRest hOthers entry.2) ?_) before
      intro c hc
      rw [head?_spaced hBehind c hc]
      exact separates_of_mem (by simp)

/-- No lexeme has a space in it. -/
theorem Proper.space_not_mem {l : Lexeme} (h : l.Proper) : ' ' ∉ l.spelling := by
  cases hSpelling : l.spelling with
  | nil => simp
  | cons c rest =>
      intro hSpace
      rcases List.mem_cons.mp hSpace with rfl | hTail
      · have hNone : take? (' ' :: rest) = none := rfl
        exact not_spelled_of_take?_eq_none hNone h (hSpelling ▸ List.prefix_rfl)
      · have hSeparates : Separates ' ' := separates_of_mem (by simp)
        exact hSeparates l h (by rwa [hSpelling])

end Lexeme

/-- The text with `gaps i` more spaces in front of its character at offset `i`, and as many at its
end as `gaps` has for it. The text itself begins at offset `pos`. -/
def spread (gaps : Nat → Nat) (pos : Nat) : List Char → List Char
  | [] => List.replicate (gaps pos) ' '
  | c :: rest => List.replicate (gaps pos) ' ' ++ c :: spread gaps (pos + 1) rest

section
variable {gaps : Nat → Nat} {pos : Nat} {cs word : List Char}

/-- Without a gap in it a word stays together, behind the gap in front of it. -/
theorem spread_word (hWord : word ≠ []) (h : ∀ i, pos < i → i < pos + word.length → gaps i = 0)
    (cs : List Char) :
    spread gaps pos (word ++ cs) =
      List.replicate (gaps pos) ' ' ++ (word ++ spread gaps (pos + word.length) cs) := by
  induction word generalizing pos with
  | nil => exact absurd rfl hWord
  | cons c rest ih =>
      cases rest with
      | nil => rfl
      | cons d rest =>
          have hNone : gaps (pos + 1) = 0 := h (pos + 1) (Nat.lt_succ_self pos) (by simp)
          have hRest : spread gaps (pos + 1) (d :: rest ++ cs) =
              d :: rest ++ spread gaps (pos + 1 + (d :: rest).length) cs := by
            rw [ih nofun fun i hFrom hTo => h i (by omega) (by rw [List.length_cons]; omega), hNone]
            rfl
          rw [List.cons_append, spread, hRest, List.length_cons, Nat.add_assoc, Nat.add_comm 1]
          rfl

/-- Spreading a text makes no word that was not there before. -/
theorem prefix_of_prefix_spread (hWord : ' ' ∉ word) (h : word <+: spread gaps pos cs) :
    word <+: cs := by
  induction word generalizing pos cs with
  | nil => exact List.nil_prefix
  | cons d ds ih =>
      obtain ⟨hFirst, hRest⟩ := not_or.mp (mt List.mem_cons.mpr hWord)
      -- In front of the first character there is no gap: it would be a space.
      cases hGap : gaps pos with
      | succ n =>
          have hHead : d = ' ' := by
            cases cs <;> simp [spread, hGap, List.replicate_succ] at h <;> exact h.1
          exact absurd hHead.symm hFirst
      | zero =>
          cases cs with
          | nil => simp [spread, hGap] at h
          | cons c rest =>
              simp only [spread, hGap, List.replicate_zero, List.nil_append] at h
              obtain ⟨rfl, hPrefix⟩ := List.cons_prefix_cons.mp h
              exact List.cons_prefix_cons.mpr ⟨rfl, ih hRest hPrefix⟩

end

/-- Spaces put behind a lexeme leave it the longest. -/
theorem Lexeme.Longest.append_spread {l : Lexeme} {cs : List Char}
    (h : l.Longest (l.spelling ++ cs)) (gaps : Nat → Nat) (pos : Nat) :
    l.Longest (l.spelling ++ spread gaps pos cs) where
  proper := h.proper
  starts := List.prefix_append _ _
  longest := by
    intro l' hProper hStarts
    rcases prefix_append_cases hStarts with hInside | ⟨more, hMore, hSpread⟩
    · exact hInside.length_le
    · -- What lies behind `l` in a longer lexeme has no space in it, so it is in `cs` as it stands.
      have hSpace : ' ' ∉ more := fun hMem =>
        hProper.space_not_mem (hMore ▸ List.mem_append_right _ hMem)
      have hPrefix := prefix_of_prefix_spread hSpace hSpread
      refine h.longest l' hProper ?_
      rw [hMore]
      exact (List.prefix_append_right_inj _).mpr hPrefix

/-- More spaces in front of tokens, behind them and between them leave the words as they are. -/
theorem Cuts.of_spread {gaps : Nat → Nat} (pos : Nat) (cs : List Char)
    (hStop : (scanFrom pos cs).stop = none)
    (hGaps : ∀ t ∈ (scanFrom pos cs).tokens, ∀ i, t.pos < i → i < t.finish → gaps i = 0) :
    Cuts (spread gaps pos cs) (scanFrom pos cs).lexemes := by
  fun_induction scanFrom pos cs with
  | case1 pos => simpa [spread, Scan.lexemes] using Cuts.nil.spaces (gaps pos)
  | case2 pos rest ih => exact (ih hStop hGaps).space.spaces (gaps pos)
  | case3 pos c rest hSpace hTake => cases hStop
  | case4 pos c rest hSpace l after hTake hLength following ih =>
      obtain ⟨hFirst, hRest⟩ := List.forall_mem_cons.mp hGaps
      have hLongest := Lexeme.longest_of_take? hTake
      obtain ⟨hText, hSome⟩ := Lexeme.take?_append hTake
      rw [hText] at hLongest ⊢
      rw [spread_word hSome hFirst]
      exact (Cuts.lexeme (hLongest.append_spread gaps _) (ih hStop hRest)).spaces (gaps pos)

/-- Scanning undoes writing, and more spaces never matter. Words that are written with at least one
space between neighbours are scanned as these words. A source that is scanned to its end keeps its
words when spaces are inserted anywhere but inside a token, so it compiles as before. -/
theorem scan_ignores_spacing :
    (∀ (before : Nat) (entries : List (Lexeme × Nat)),
      (∀ entry ∈ entries, entry.1.Proper) → (∀ entry ∈ entries.dropLast, 0 < entry.2) →
        let s := scan (String.ofList (Lexeme.spaced before entries))
        s.stop = none ∧ s.lexemes = entries.map Prod.fst) ∧
    ∀ (source : String) (gaps : Nat → Nat), (scan source).stop = none →
      (∀ t ∈ (scan source).tokens, ∀ i, t.pos < i → i < t.finish → gaps i = 0) →
        let source' := String.ofList (spread gaps 0 source.toList)
        (scan source').stop = none ∧ (scan source').lexemes = (scan source).lexemes ∧
          ∀ ops, compile source' = .ok ops ↔ compile source = .ok ops := by
  constructor
  · intro before entries hProper hBetween s
    apply Cuts.iff_scan.mp
    rw [String.toList_ofList]
    exact Lexeme.cuts_spaced hProper hBetween before
  · intro source gaps hStop hGaps source'
    have hCuts : Cuts source.toList (scan source).lexemes := Cuts.iff_scan.mpr ⟨hStop, rfl⟩
    have hSpread : Cuts source'.toList (scan source).lexemes := by
      rw [String.toList_ofList]
      exact .of_spread 0 source.toList hStop hGaps
    obtain ⟨hStop', hWords⟩ := Cuts.iff_scan.mp hSpread
    exact ⟨hStop', hWords, compile_eq_ok_iff_of_cuts hSpread hCuts⟩

/-- Without the spaces the first text would be a single number, and the second has none to begin
with. -/
theorem scan_ignores_spacing_of_exponent :
    (scan " 12 e  + 5").lexemes = [.number "12", .identifier "e",
        .symbol (.operator (.arithmetic .add)), .number "5"] ∧
      (scan "2**x").lexemes = [.number "2", .symbol (.operator (.arithmetic .power)),
        .identifier "x"] ∧
      (scan "2 **  x ").lexemes = (scan "2**x").lexemes ∧
      ∀ ops, compile "2 **  x " = .ok ops ↔ compile "2**x" = .ok ops := by
  obtain ⟨hSpaced, hSpread⟩ := scan_ignores_spacing
  let entries : List (Lexeme × Nat) := [(.number "12", 1), (.identifier "e", 2),
    (.symbol (.operator (.arithmetic .add)), 1), (.number "5", 0)]
  let gaps : Nat → Nat := fun i => [0, 1, 0, 2, 1].getD i 0
  have hProper : ∀ entry ∈ entries, entry.1.Proper := by
    have hTake : ∀ l ∈ entries.map Prod.fst, Lexeme.take? l.spelling = some (l, []) := by
      decide +kernel
    intro entry hEntry
    exact Lexeme.proper_of_take? (hTake entry.1 (List.mem_map_of_mem hEntry))
  have hTokens : (scan "2**x").tokens = [⟨.number "2", 0⟩,
      ⟨.symbol (.operator (.arithmetic .power)), 1⟩, ⟨.identifier "x", 3⟩] := by
    decide +kernel
  have hGaps : ∀ t ∈ (scan "2**x").tokens, ∀ i, t.pos < i → i < t.finish → gaps i = 0 := by
    have hInside : ∀ t ∈ (scan "2**x").tokens, ∀ i < t.finish, t.pos < i → gaps i = 0 := by
      rw [hTokens]
      decide
    intro t ht i hFrom hTo
    exact hInside t ht i hTo hFrom
  obtain ⟨-, hWords⟩ := hSpaced 1 entries hProper (by decide)
  obtain ⟨-, hSame, hCompile⟩ := hSpread "2**x" gaps (by decide +kernel) hGaps
  refine ⟨hWords, ?_, hSame, hCompile⟩
  rw [Scan.lexemes, hTokens]
  rfl

end StackCalc
