import StackCalc.Text.Blank

/-! Texts as lists of characters: where they are cut, and what trimming leaves of them. -/
namespace StackCalc.Text

/-- A property of listed characters can be checked one by one, without going through all characters
there are. -/
theorem forall_mem_of_all {cs : List Char} {P : Char → Prop} [DecidablePred P]
    (h : cs.all (fun c => decide (P c)) = true) : ∀ c ∈ cs, P c := by
  simpa using h

/-- Trimming leaves a text as it is that has no character to drop. -/
theorem trim_eq_self {drop : Char → Bool} {cs : List Char} (h : ∀ c ∈ cs, drop c = false) :
    trim drop cs = cs := by
  have hDrop : ∀ {ds : List Char}, (∀ c ∈ ds, drop c = false) → ds.dropWhile drop = ds := by
    intro ds hds
    cases ds with
    | nil => rfl
    | cons d ds => simp [hds d]
  rw [trim, hDrop h, hDrop (by simpa using h), List.reverse_reverse]

/-- A text is cut in front of the first character that is not of a class. -/
theorem cut_iff {p : Char → Bool} {cs before after : List Char} {c : Char} (hc : p c = false) :
    (cs.takeWhile p = before ∧ cs.dropWhile p = c :: after) ↔
      (∀ d ∈ before, p d = true) ∧ cs = before ++ c :: after := by
  constructor
  · rintro ⟨rfl, hAfter⟩
    refine ⟨List.all_eq_true.mp List.all_takeWhile, ?_⟩
    rw [← hAfter, List.takeWhile_append_dropWhile]
  · rintro ⟨hBefore, rfl⟩
    rw [List.takeWhile_append_of_pos hBefore, List.dropWhile_append_of_pos hBefore]
    simp [hc]

/-- A text is cut at the first occurrence of a character. -/
theorem cut_at_iff {cs before after : List Char} {c : Char} :
    (cs.takeWhile (· ≠ c) = before ∧ cs.dropWhile (· ≠ c) = c :: after) ↔
      c ∉ before ∧ cs = before ++ c :: after := by
  have hOthers : (∀ d ∈ before, decide (d ≠ c) = true) ↔ c ∉ before := by
    simp only [decide_eq_true_eq]
    exact ⟨fun h hMem => h c hMem rfl, fun h d hMem hSame => h (hSame ▸ hMem)⟩
  rw [cut_iff (by simp), hOthers]

/-- A text without characters is the empty one. -/
theorem ofList_eq_empty_iff {cs : List Char} : String.ofList cs = "" ↔ cs = [] :=
  @String.ofList_inj cs []

/-- A character that occurs is where the text is cut. -/
theorem dropWhile_of_mem {cs : List Char} {c : Char} (h : c ∈ cs) :
    cs.dropWhile (· ≠ c) = c :: (cs.dropWhile (· ≠ c)).tail := by
  obtain ⟨before, after, hSplit, hFirst⟩ := List.eq_append_cons_of_mem h
  obtain ⟨-, hDrop⟩ := cut_at_iff.mpr ⟨hFirst, hSplit⟩
  rw [hDrop, List.tail_cons]

theorem dropWhile_of_not_mem {cs : List Char} {c : Char} (h : c ∉ cs) :
    cs.dropWhile (· ≠ c) = [] := by
  have hOthers : ∀ d ∈ cs, decide (d ≠ c) = true := by
    intro d hd
    exact decide_eq_true fun hSame => h (hSame ▸ hd)
  rw [← List.append_nil cs, List.dropWhile_append_of_pos hOthers, List.dropWhile_nil]

end StackCalc.Text
