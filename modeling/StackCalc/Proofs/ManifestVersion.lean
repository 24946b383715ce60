import StackCalc.Version
import StackCalc.Proofs.Characters
import Mathlib.Data.List.Basic

/-! Which version a manifest gives. A version may be given at every start of a line, and what gives
it may run over several lines, so that a line start inside it may give another one. The search takes
the first line start at which a version is given, whatever stands at the line starts before it. -/
namespace StackCalc.Version
open Text

/-- The text starts with a version: the word, an equals sign with blanks around it, and the version
between quotes, which is not empty. The blanks may be line ends. -/
inductive Gives : List Char → List Char → Prop where
  | mk {first second version rest : List Char} (first_blank : ∀ c ∈ first, isBlank c = true)
      (second_blank : ∀ c ∈ second, isBlank c = true) (some : version ≠ [])
      (unquoted : '"' ∉ version) :
      Gives ("version".toList ++ (first ++ '=' :: (second ++ '"' :: (version ++ '"' :: rest))))
        version

/-- A line starts at a place of the text. The flag says whether one starts at its beginning. -/
def StartsLine (lineStart : Bool) (text : List Char) : Nat → Prop
  | 0 => lineStart = true
  | place + 1 => text[place]? = some '\n'

instance (lineStart : Bool) (text : List Char) : DecidablePred (StartsLine lineStart text)
  | 0 => inferInstanceAs (Decidable (lineStart = true))
  | place + 1 => inferInstanceAs (Decidable (text[place]? = some '\n'))

/-- A line starts at the place, and a version is given there. -/
structure GivenAt (lineStart : Bool) (text : List Char) (place : Nat) (version : List Char) :
    Prop where
  starts : StartsLine lineStart text place
  gives : Gives (text.drop place) version

/-- A version is given at the place and at none before it. -/
structure FirstGivenAt (lineStart : Bool) (text : List Char) (place : Nat)
    (version : List Char) : Prop where
  given : GivenAt lineStart text place version
  first : ∀ earlier < place, ∀ other, ¬ GivenAt lineStart text earlier other

/-- The quoted text ends at the first quote, and an empty one is not accepted. -/
theorem quotedText?_eq_some_iff {cs version : List Char} :
    quotedText? cs = some version ↔
      version ≠ [] ∧ '"' ∉ version ∧ ∃ rest, cs = '"' :: (version ++ '"' :: rest) := by
  constructor
  · intro h
    unfold quotedText? at h
    split at h
    · rename_i rest
      dsimp only at h
      split at h
      · rename_i c body after hBody hAfter
        cases h
        obtain ⟨hUnquoted, hRest⟩ := cut_at_iff.mp ⟨rfl, hAfter⟩
        exact ⟨hBody ▸ List.cons_ne_nil c body, hUnquoted, after, congrArg _ hRest⟩
      · cases h
    · cases h
  · rintro ⟨hSome, hUnquoted, rest, rfl⟩
    obtain ⟨hTake, hDrop⟩ := (@cut_at_iff _ version rest _).mpr ⟨hUnquoted, rfl⟩
    simp only [quotedText?, hTake, hDrop]
    cases version with
    | nil => exact absurd rfl hSome
    | cons c body => rfl

/-- The search at one place decides `Gives`. -/
theorem atStart?_eq_some_iff {cs version : List Char} :
    atStart? cs = some version ↔ Gives cs version := by
  constructor
  · intro h
    unfold atStart? at h
    split at h
    · rename_i rest hWord
      split at h
      · rename_i after hEquals
        obtain ⟨hSome, hUnquoted, behind, hQuoted⟩ := quotedText?_eq_some_iff.mp h
        obtain ⟨hFirst, hRest⟩ := (cut_iff (by decide)).mp ⟨rfl, hEquals⟩
        obtain ⟨hSecond, hAfter⟩ := (cut_iff (by decide)).mp ⟨rfl, hQuoted⟩
        rw [← List.isPrefixOf?_eq_some_iff_append_eq.mp hWord, hRest, hAfter]
        exact .mk hFirst hSecond hSome hUnquoted
      · cases h
    · cases h
  · intro h
    cases h with
    | @mk first second version rest hFirst hSecond hSome hUnquoted =>
        obtain ⟨-, hEquals⟩ := (@cut_iff isBlank _ first
          (second ++ '"' :: (version ++ '"' :: rest)) '=' (by decide)).mpr ⟨hFirst, rfl⟩
        obtain ⟨-, hQuote⟩ := (@cut_iff isBlank _ second (version ++ '"' :: rest) '"'
          (by decide)).mpr ⟨hSecond, rfl⟩
        have hWord := List.isPrefixOf?_eq_some_iff_append_eq.mpr
          (rfl : "version".toList ++
            (first ++ '=' :: (second ++ '"' :: (version ++ '"' :: rest))) = _)
        simp only [atStart?, hWord, hEquals, hQuote]
        exact quotedText?_eq_some_iff.mpr ⟨hSome, hUnquoted, rest, rfl⟩

instance (cs version : List Char) : Decidable (Gives cs version) :=
  decidable_of_iff _ atStart?_eq_some_iff

variable {lineStart : Bool} {version : List Char}

theorem givenAt_zero_iff {text : List Char} :
    GivenAt lineStart text 0 version ↔ lineStart = true ∧ Gives text version :=
  ⟨fun h => ⟨h.starts, h.gives⟩, fun h => ⟨h.1, h.2⟩⟩

/-- Behind its first character a text starts a line if the character ends one. -/
theorem givenAt_succ_iff {c : Char} {rest : List Char} {place : Nat} :
    GivenAt lineStart (c :: rest) (place + 1) version ↔
      GivenAt (c = '\n') rest place version := by
  have hStarts : StartsLine lineStart (c :: rest) (place + 1) ↔
      StartsLine (c = '\n') rest place := by
    cases place with
    | zero => simp [StartsLine]
    | succ place => rfl
  exact ⟨fun h => ⟨hStarts.mp h.starts, h.gives⟩, fun h => ⟨hStarts.mpr h.starts, h.gives⟩⟩

theorem not_givenAt_nil {place : Nat} : ¬ GivenAt lineStart [] place version := by
  intro h
  have hGives := h.gives
  rw [List.drop_nil] at hGives
  cases hGives

/-- The search goes on behind the first character where none is given at the beginning. -/
theorem search?_cons_of_not {c : Char} {rest : List Char}
    (h : ∀ version, ¬ GivenAt lineStart (c :: rest) 0 version) :
    search? lineStart (c :: rest) = search? (c = '\n') rest := by
  have hNone : (if lineStart then atStart? (c :: rest) else none) = none := by
    cases lineStart with
    | false => rfl
    | true =>
        rw [if_pos rfl, Option.eq_none_iff_forall_ne_some]
        intro version hFound
        exact h version (givenAt_zero_iff.mpr ⟨rfl, atStart?_eq_some_iff.mp hFound⟩)
  simp only [search?, hNone]

/-- A place that gives a version ends the search. -/
theorem search?_cons_of_given {c : Char} {rest : List Char}
    (h : GivenAt lineStart (c :: rest) 0 version) :
    search? lineStart (c :: rest) = some version := by
  obtain ⟨rfl, hGives⟩ := givenAt_zero_iff.mp h
  simp only [search?, if_true, atStart?_eq_some_iff.mpr hGives]

/-- A search finds nothing only where no version is given. -/
theorem search?_eq_none_iff {text : List Char} :
    search? lineStart text = none ↔ ∀ place version, ¬ GivenAt lineStart text place version := by
  induction text generalizing lineStart with
  | nil => simp [search?, not_givenAt_nil]
  | cons c rest ih =>
      by_cases hHere : ∃ version, GivenAt lineStart (c :: rest) 0 version
      · obtain ⟨version, hGiven⟩ := hHere
        rw [search?_cons_of_given hGiven]
        exact ⟨nofun, fun h => absurd hGiven (h 0 version)⟩
      · rw [not_exists] at hHere
        rw [search?_cons_of_not hHere, ih]
        constructor
        · intro h place version hGiven
          cases place with
          | zero => exact hHere version hGiven
          | succ place => exact h place version (givenAt_succ_iff.mp hGiven)
        · intro h place version hGiven
          exact h (place + 1) version (givenAt_succ_iff.mpr hGiven)

/-- A search finds the version at the first place where one is given. -/
theorem FirstGivenAt.search?_eq {text : List Char} {place : Nat}
    (h : FirstGivenAt lineStart text place version) : search? lineStart text = some version := by
  induction place generalizing lineStart text with
  | zero =>
      cases text with
      | nil => exact absurd h.given not_givenAt_nil
      | cons c rest => exact search?_cons_of_given h.given
  | succ place ih =>
      cases text with
      | nil => exact absurd h.given not_givenAt_nil
      | cons c rest =>
          rw [search?_cons_of_not (h.first 0 (Nat.succ_pos place))]
          refine ih ⟨givenAt_succ_iff.mp h.given, ?_⟩
          intro earlier hEarlier other hGiven
          have hLess := Nat.succ_lt_succ hEarlier
          exact h.first (earlier + 1) hLess other (givenAt_succ_iff.mpr hGiven)

/-- If some place gives a version, there is a first one. -/
theorem exists_firstGivenAt {text : List Char} {place : Nat}
    (h : GivenAt lineStart text place version) :
    ∃ first found, FirstGivenAt lineStart text first found := by
  induction place using Nat.strongRecOn generalizing version with
  | _ place ih =>
      by_cases hEarlier : ∃ earlier < place, ∃ other, GivenAt lineStart text earlier other
      · obtain ⟨earlier, hLess, other, hGiven⟩ := hEarlier
        exact ih earlier hLess hGiven
      · refine ⟨place, version, h, ?_⟩
        intro earlier hLess other hGiven
        exact hEarlier ⟨earlier, hLess, other, hGiven⟩

/-- The version is the one that the manifest gives at the first line start where it gives one,
whatever stands before it; line ends of any kind count. A manifest that gives none counts as no
manifest: then the version is that of the installed package, or the unknown one. -/
theorem resolve_takes_first_given (manifest : String) (installed : Option String) :
    let text := unifyLineEnds manifest.toList
    (∀ place version, FirstGivenAt true text place version →
      resolve (some manifest) installed = String.ofList version) ∧
    ((∃ place version, GivenAt true text place version) →
      ∃ place version, FirstGivenAt true text place version) ∧
    ((¬ ∃ place version, GivenAt true text place version) →
      resolve (some manifest) installed = installed.getD "0.0.0") ∧
    resolve none installed = installed.getD "0.0.0" := by
  intro text
  refine ⟨?_, ?_, ?_, rfl⟩
  · intro place version hFirst
    simp only [resolve, Option.bind_some]
    rw [hFirst.search?_eq]
  · rintro ⟨place, version, hGiven⟩
    exact exists_firstGivenAt hGiven
  · intro hNone
    have hSearch : search? true text = none :=
      search?_eq_none_iff.mpr fun place version hGiven => hNone ⟨place, version, hGiven⟩
    simp only [resolve, Option.bind_some]
    rw [hSearch]
    rfl

/-- The first line gives no version, since there is nothing between its quotes, but its start does
not hide the next one. -/
theorem resolve_skips_empty_version :
    let manifest := "version = \"\"\r\nversion =\n\"1.2\"\n"
    ∃ place version, FirstGivenAt true (unifyLineEnds manifest.toList) place version ∧
      resolve (some manifest) (some "0.9") = String.ofList version ∧
      String.ofList version = "1.2" := by
  intro manifest
  have hGiven : GivenAt true (unifyLineEnds manifest.toList) 13 ['1', '.', '2'] :=
    ⟨by decide +kernel, by decide +kernel⟩
  obtain ⟨hResolve, hExists, -⟩ := resolve_takes_first_given manifest (some "0.9")
  obtain ⟨place, version, hFirst⟩ := hExists ⟨_, _, hGiven⟩
  refine ⟨place, version, hFirst, hResolve place version hFirst, ?_⟩
  rw [← hResolve place version hFirst]
  decide +kernel

end StackCalc.Version
