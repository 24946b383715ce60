/-! General facts on entries that are found by a key, on lists without repetition and on outcomes
that may be errors. -/
namespace StackCalc

section
variable {κ ν : Type} [DecidableEq κ]

/-- A key is looked up in the first entry, and where that has another key, in the others. -/
theorem lookup_entry (key : κ) (entry : κ × ν) (rest : List (κ × ν)) :
    (entry :: rest).lookup key = if key = entry.1 then some entry.2 else rest.lookup key := by
  rcases entry with ⟨first, x⟩
  rw [List.lookup_cons]
  by_cases hKey : key = first
  · simp [hKey]
  · simp [hKey, beq_false_of_ne hKey]

/-- Looking a key up is finding the first entry that has it. -/
theorem lookup_eq_map_find? (entries : List (κ × ν)) (key : κ) :
    entries.lookup key = (entries.find? (·.1 = key)).map Prod.snd := by
  induction entries with
  | nil => rfl
  | cons entry rest ih =>
      rw [lookup_entry, List.find?_cons]
      by_cases hKey : entry.1 = key
      · simp [hKey]
      · simp [hKey, Ne.symm hKey, ih]

end

section
variable {ε κ : Type} [DecidableEq κ] {keyOf : ε → κ} {entries : List ε} {key : κ}

theorem find?_key_eq_none_iff :
    entries.find? (keyOf · = key) = none ↔ key ∉ entries.map keyOf := by
  simp [List.find?_eq_none]

/-- Where no key occurs twice, every entry is found by its key. -/
theorem find?_key_of_mem (hDistinct : (entries.map keyOf).Nodup) {entry : ε} (h : entry ∈ entries) :
    entries.find? (keyOf · = keyOf entry) = some entry := by
  induction entries with
  | nil => cases h
  | cons first rest ih =>
      obtain ⟨hFirst, hRest⟩ := List.nodup_cons.mp hDistinct
      rw [List.find?_cons]
      rcases List.mem_cons.mp h with rfl | hMem
      · simp
      · have hOther : keyOf first ≠ keyOf entry := by
          intro hSame
          exact hFirst (hSame ▸ List.mem_map_of_mem hMem)
        simp only [hOther, decide_false, ih hRest hMem]

/-- Where no key occurs twice, entries can be searched from either end. -/
theorem find?_key_reverse (hDistinct : (entries.map keyOf).Nodup) (key : κ) :
    entries.reverse.find? (keyOf · = key) = entries.find? (keyOf · = key) := by
  cases hFound : entries.find? (keyOf · = key) with
  | none =>
      rw [find?_key_eq_none_iff] at hFound ⊢
      simpa using hFound
  | some entry =>
      have hKey : keyOf entry = key := by simpa using List.find?_some hFound
      have hReverse : (entries.reverse.map keyOf).Nodup := by
        rw [List.map_reverse]
        exact List.pairwise_reverse.mpr (hDistinct.imp Ne.symm)
      subst hKey
      exact find?_key_of_mem hReverse (List.mem_reverse.mpr (List.mem_of_find?_eq_some hFound))

end

section
variable {α : Type} {r r' : α → α → Bool} {as : List α}

/-- Whether an element is a repetition is asked of elements of the list only. -/
theorem eraseDupsBy_congr (h : ∀ a ∈ as, ∀ b ∈ as, r a b = r' a b) :
    as.eraseDupsBy r = as.eraseDupsBy r' := by
  induction hLength : as.length using Nat.strongRecOn generalizing as with
  | ind n ih =>
      cases as with
      | nil => rfl
      | cons a rest =>
          have hFilter : rest.filter (r · a = false) = rest.filter (r' · a = false) := by
            apply List.filter_congr
            intro b hb
            rw [h b (List.mem_cons_of_mem a hb) a List.mem_cons_self]
          have hShorter : (rest.filter (r' · a = false)).length < n := by
            have hLe := List.length_filter_le (r' · a = false) rest
            rw [List.length_cons] at hLength
            omega
          rw [List.eraseDupsBy_cons, List.eraseDupsBy_cons, hFilter]
          refine congrArg (a :: ·) (ih _ hShorter ?_ rfl)
          intro b hb c hc
          exact h b (List.mem_cons_of_mem a (List.mem_filter.mp hb).1) c
            (List.mem_cons_of_mem a (List.mem_filter.mp hc).1)

/-- Nothing is erased where nothing is repeated. -/
theorem eraseDupsBy_of_pairwise (h : as.Pairwise fun a b => r b a = false) :
    as.eraseDupsBy r = as := by
  induction as with
  | nil => rfl
  | cons a rest ih =>
      obtain ⟨hFirst, hRest⟩ := List.pairwise_cons.mp h
      have hOthers : rest.filter (r · a = false) = rest :=
        List.filter_eq_self.mpr fun b hb => decide_eq_true (hFirst b hb)
      rw [List.eraseDupsBy_cons, hOthers, ih hRest]

end

section
variable {ε α β : Type}

theorem ok_bind (a : α) (next : α → Except ε β) : (.ok a >>= next) = next a := rfl

theorem error_bind (e : ε) (next : α → Except ε β) : (.error e >>= next) = .error e := rfl

/-- A chain that succeeds succeeds at its first step. -/
theorem exists_ok_of_bind {step : Except ε α} {next : α → Except ε β} {b : β}
    (h : (step >>= next) = .ok b) : ∃ a, step = .ok a ∧ next a = .ok b := by
  cases step with
  | error e => cases h
  | ok a => exact ⟨a, rfl, h⟩

theorem mapError_eq_ok_iff {ε' : Type} {f : ε → ε'} {x : Except ε α} {a : α} :
    x.mapError f = .ok a ↔ x = .ok a := by
  cases x with
  | error e => constructor <;> intro h <;> cases h
  | ok b => constructor <;> intro h <;> cases h <;> rfl

theorem eq_ok_of_toOption {result : Except ε α} {a : α} (h : result.toOption = some a) :
    result = .ok a := by
  cases result with
  | error e => cases h
  | ok b => rw [Option.some.inj h]

/-- A result with a property that can be computed is there. -/
theorem exists_ok_of_any {result : Except ε α} {P : α → Bool}
    (h : result.toOption.any P = true) : ∃ a, result = .ok a ∧ P a = true := by
  cases result with
  | error e => cases h
  | ok a => exact ⟨a, rfl, h⟩

end

end StackCalc
