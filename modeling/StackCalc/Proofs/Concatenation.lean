import StackCalc.Proofs.Compilation
import StackCalc.Proofs.Scanning

/-! Sources that are put together from sources. Where two texts meet at a space or at a bracket no
lexeme reaches across, so together they are cut into the words of the first and then those of the
second, wherever each of them begins. The compiler depends on the words alone, so sources between
brackets compile to what each of them compiles to. -/
namespace StackCalc

/-- After its first character, a name goes on with any characters of names. -/
theorem Identifier.isNameChar_of_mem_tail {name : List Char} (h : Identifier name) :
    ∀ c ∈ name.tail, isNameChar c = true := by
  obtain ⟨-, hRest⟩ := h
  exact hRest

namespace Lexeme

/-- The characters with which a lexeme can go on: none of them is a blank or a bracket. -/
theorem Proper.mem_tail {l : Lexeme} (h : l.Proper) {c : Char} (hc : c ∈ l.spelling.tail) :
    c ∈ Numeral.characters ∨ isNameChar c = true ∨ c = '*' := by
  cases l with
  | number text => exact .inl (Numeral.characters_of h c (List.mem_of_mem_tail hc))
  | identifier name => exact .inr (.inl (Identifier.isNameChar_of_mem_tail h c hc))
  | symbol s =>
      -- Two asterisks are the only symbol of more than one character.
      right; right
      fun_cases Symbol.spelling s <;> simp_all [spelling, Symbol.spelling]

/-- No lexeme goes on with the character once it has begun. -/
def Separates (c : Char) : Prop := ∀ l : Lexeme, l.Proper → c ∉ l.spelling.tail

/-- Blanks and brackets continue no lexeme. -/
theorem separates_of_mem {c : Char} (h : c ∈ [' ', '(', ')']) : Separates c := by
  have hAll : ∀ d ∈ [' ', '(', ')'],
      ¬ (d ∈ Numeral.characters ∨ isNameChar d = true ∨ d = '*') :=
    Text.forall_mem_of_all (by decide)
  intro l hProper hc
  exact hAll c h (hProper.mem_tail hc)

/-- A proper lexeme is the longest one at its own spelling. -/
theorem Proper.longest {l : Lexeme} (h : l.Proper) : l.Longest l.spelling :=
  ⟨h, List.prefix_rfl, fun _ _ hStarts => hStarts.length_le⟩

/-- A prefix of two texts ends in the first or reaches into the second. -/
theorem prefix_append_cases {cs first second : List Char} (h : cs <+: first ++ second) :
    cs <+: first ∨ ∃ more, cs = first ++ more ∧ more <+: second := by
  rcases List.prefix_or_prefix_of_prefix h (List.prefix_append first second) with
    hInside | ⟨more, rfl⟩
  · exact .inl hInside
  · exact .inr ⟨more, rfl, (List.prefix_append_right_inj first).mp h⟩

/-- The longest lexeme of a text stays the longest if what follows begins with a character that no
lexeme goes on with. -/
theorem Longest.append {l : Lexeme} {cs rest : List Char} (h : l.Longest cs)
    (hRest : ∀ c ∈ rest.head?, Separates c) : l.Longest (cs ++ rest) where
  proper := h.proper
  starts := h.starts.trans (List.prefix_append cs rest)
  longest := by
    intro l' hProper hStarts
    rcases prefix_append_cases hStarts with hInside | ⟨more, hMore, hRestMore⟩
    · exact h.longest l' hProper hInside
    · cases more with
      | nil =>
          rw [List.append_nil] at hMore
          exact h.longest l' hProper (hMore ▸ List.prefix_rfl)
      | cons c more =>
          -- The lexeme would have the first character of `rest` behind all of `cs`.
          obtain ⟨first, others, rfl⟩ := List.exists_cons_of_ne_nil fun hNil =>
            h.proper.spelling_ne_nil (List.prefix_nil.mp (hNil ▸ h.starts))
          obtain ⟨after, rfl⟩ := hRestMore
          refine absurd ?_ (hRest c rfl l' hProper)
          simp [hMore]

end Lexeme

/-- Cuts a text into words: at its front is a space, which is dropped, or the longest lexeme there.
The places of the words do not matter. -/
inductive Cuts : List Char → List Lexeme → Prop where
  | nil : Cuts [] []
  | space {cs : List Char} {words : List Lexeme} (rest : Cuts cs words) : Cuts (' ' :: cs) words
  | lexeme {l : Lexeme} {cs : List Char} {words : List Lexeme}
      (longest : l.Longest (l.spelling ++ cs)) (rest : Cuts cs words) :
      Cuts (l.spelling ++ cs) (l :: words)

namespace Cuts
variable {cs first second : List Char} {words words' : List Lexeme}

/-- A text that can be cut is scanned to its end, wherever it begins. -/
theorem scanned (h : Cuts cs words) (pos : Nat) :
    (scanFrom pos cs).stop = none ∧ (scanFrom pos cs).lexemes = words := by
  induction h generalizing pos with
  | nil => simp [scanFrom, Scan.lexemes]
  | space _ ih =>
      rw [scanFrom_space]
      exact ih _
  | @lexeme l cs words longest _ ih =>
      obtain ⟨after, hTake⟩ := longest.take?
      obtain rfl : cs = after := List.append_cancel_left (Lexeme.take?_append hTake).1
      obtain ⟨hStop, hWords⟩ := ih (pos + l.spelling.length)
      rw [scanFrom_of_take? hTake]
      refine ⟨hStop, ?_⟩
      simp only [Scan.lexemes, List.map_cons] at hWords ⊢
      rw [hWords]

/-- One step of the scanner is one step of a cut. -/
theorem of_take? {l : Lexeme} {after : List Char} (h : Lexeme.take? cs = some (l, after))
    (hAfter : Cuts after words) : Cuts cs (l :: words) := by
  have hLongest := Lexeme.longest_of_take? h
  rw [(Lexeme.take?_append h).1] at hLongest ⊢
  exact .lexeme hLongest hAfter

/-- A scan that reaches the end is a cut, by induction on the remaining characters. -/
theorem of_scanFrom (pos : Nat) (cs : List Char) (h : (scanFrom pos cs).stop = none) :
    Cuts cs (scanFrom pos cs).lexemes := by
  fun_induction scanFrom pos cs with
  | case1 pos => exact .nil
  | case2 pos rest ih => exact .space (ih h)
  | case3 pos c rest hSpace hTake => cases h
  | case4 pos c rest hSpace l after hTake hLength following ih => exact .of_take? hTake (ih h)

/-- A cut is what the scanner finds, so a text has one cut at most. -/
theorem iff_scan {source : String} :
    Cuts source.toList words ↔ (scan source).stop = none ∧ (scan source).lexemes = words := by
  constructor
  · intro h
    exact h.scanned 0
  · rintro ⟨hStop, rfl⟩
    exact of_scanFrom 0 source.toList hStop

/-- A proper lexeme alone is cut into itself. -/
theorem of_proper {l : Lexeme} (h : l.Proper) : Cuts l.spelling [l] := by
  have hCuts : Cuts (l.spelling ++ []) [l] := .lexeme (by simpa using h.longest) .nil
  rwa [List.append_nil] at hCuts

/-- Texts are cut one after the other if no lexeme reaches from the first into the second. -/
theorem append (h : Cuts first words) (h' : Cuts second words')
    (hSeam : ∀ c ∈ second.head?, Lexeme.Separates c) :
    Cuts (first ++ second) (words ++ words') := by
  induction h with
  | nil => exact h'
  | space _ ih => exact .space ih
  | lexeme longest _ ih =>
      rw [List.append_assoc]
      refine .lexeme ?_ ih
      rw [← List.append_assoc]
      exact longest.append hSeam

/-- Brackets cut off what stands inside them from what stands around them. -/
theorem group (h : Cuts first words) (h' : Cuts second words') :
    Cuts ('(' :: (first ++ ')' :: second))
      (.symbol .openBracket :: (words ++ .symbol .closeBracket :: words')) := by
  have hClose : Cuts (')' :: second) (.symbol .closeBracket :: words') := .of_take? rfl h'
  refine .of_take? rfl (h.append hClose ?_)
  simpa using Lexeme.separates_of_mem (by simp)

end Cuts

/-- A cut, a derivation of it and a bound on its nesting make a text compile. -/
theorem compile_of_cuts {source : String} {words : List Lexeme} {t : Expression}
    (hCuts : Cuts source.toList words) (hDerives : Derives 0 words t)
    (hNesting : t.nesting ≤ nestingLimit) : compile source = .ok t.postorder := by
  obtain ⟨hStop, rfl⟩ := Cuts.iff_scan.mp hCuts
  exact compile_of_derives hStop hDerives hNesting

/-- Texts with one cut compile to the same opcodes. -/
theorem compile_eq_ok_iff_of_cuts {source source' : String} {words : List Lexeme}
    (h : Cuts source.toList words) (h' : Cuts source'.toList words) (ops : List Opcode) :
    compile source = .ok ops ↔ compile source' = .ok ops := by
  obtain ⟨hStop, hWords⟩ := Cuts.iff_scan.mp h
  obtain ⟨hStop', hWords'⟩ := Cuts.iff_scan.mp h'
  rw [compile_eq_ok_iff_read, compile_eq_ok_iff_read, hStop, hStop', hWords, hWords']

theorem cuts_of_compile {source : String} {ops : List Opcode} (h : compile source = .ok ops) :
    Cuts source.toList (scan source).lexemes :=
  Cuts.iff_scan.mpr ⟨(compile_eq_ok_iff_read.mp h).1, rfl⟩

/-- Compiled opcodes are the postorder of any derivation of the lexemes. -/
theorem postorder_of_compile {source : String} {ops : List Opcode} {t : Expression}
    (h : compile source = .ok ops) (ht : Derives 0 (scan source).lexemes t) :
    t.postorder = ops := by
  obtain ⟨s, hs, -, hOps⟩ := exists_derives_of_compile h
  rw [ht.unique hs, hOps]

/-- Expressions in brackets are operands of every operator, on both sides. -/
theorem Derives.binary_groups {words words' : List Lexeme} {l r : Expression} (op : Operator)
    (hLeft : Derives 0 words l) (hRight : Derives 0 words' r) :
    Derives 0 ((.symbol .openBracket :: (words ++ [.symbol .closeBracket])) ++
      .symbol (.operator op) :: (.symbol .openBracket :: (words' ++ [.symbol .closeBracket])))
      (.binary op (.group l) (.group r)) := by
  have hLevel := op.level_lt_primaryLevel
  have hFirst := (Derives.group hLeft).of_le (Nat.le_of_lt hLevel)
  have hSecond := (Derives.group hRight).of_le hLevel
  exact (Derives.binary hFirst hSecond).of_le (Nat.zero_le _)

/-- Compiling goes part by part. A source in brackets compiles to what it compiles to without them,
and an operator between two such sources comes behind the opcodes of both. The brackets around them
count, so at most 63 others may be open at once. -/
theorem compile_between_brackets {s : String} {a : List Opcode} {u : Expression}
    (hs : compile s = .ok a) (hu : Derives 0 (scan s).lexemes u) (hNesting : u.nesting ≤ 63) :
    compile ("(" ++ s ++ ")") = .ok a ∧
      ∀ (op : Operator) (t : String) (b : List Opcode) (v : Expression),
        compile t = .ok b → Derives 0 (scan t).lexemes v → v.nesting ≤ 63 →
        compile ("(" ++ s ++ ")" ++ String.ofList (Symbol.operator op).spelling ++
          "(" ++ t ++ ")") = .ok (a ++ b ++ [.operator op]) := by
  have hCuts := cuts_of_compile hs
  rw [← postorder_of_compile hs hu]
  constructor
  · have hText : ("(" ++ s ++ ")").toList = '(' :: (s.toList ++ [')']) := by
      simp
    refine compile_of_cuts (t := .group u) ?_ ((Derives.group hu).of_le (Nat.zero_le _)) ?_
    · rw [hText]
      exact hCuts.group .nil
    · exact Nat.succ_le_succ hNesting
  · intro op t b v ht hv hNesting'
    rw [← postorder_of_compile ht hv]
    have hText : ("(" ++ s ++ ")" ++ String.ofList (Symbol.operator op).spelling ++ "(" ++ t ++
        ")").toList = '(' :: (s.toList ++ ')' :: ((Symbol.operator op).spelling ++
          '(' :: (t.toList ++ [')']))) := by
      simp
    have hRight := (cuts_of_compile ht).group .nil
    have hOperator : Cuts (Symbol.operator op).spelling [.symbol (.operator op)] :=
      .of_proper (l := .symbol (.operator op)) trivial
    have hBehind := hOperator.append hRight (by simpa using Lexeme.separates_of_mem (by simp))
    refine compile_of_cuts (t := .binary op (.group u) (.group v)) ?_ (hu.binary_groups op hv) ?_
    · rw [hText]
      simpa using hCuts.group hBehind
    · exact Nat.max_le.mpr ⟨Nat.succ_le_succ hNesting, Nat.succ_le_succ hNesting'⟩

/-- The asterisk between the brackets stays alone, although the second source has two of them. -/
theorem compile_product_between_brackets :
    compile "b - 1e5" = .ok [.identifier "b", .number 100000, .operator (.arithmetic .subtract)] ∧
      compile "(-2) ** a" = .ok [.number (-2), .identifier "a", .operator (.arithmetic .power)] ∧
      compile ("(" ++ "b - 1e5" ++ ")" ++ "*" ++ "(" ++ "(-2) ** a" ++ ")") =
        .ok [.identifier "b", .number 100000, .operator (.arithmetic .subtract), .number (-2),
          .identifier "a", .operator (.arithmetic .power), .operator (.arithmetic .multiply)] := by
  let u : Expression := .binary (.arithmetic .subtract) (.identifier "b") (.number "1e5")
  let v : Expression := .binary (.arithmetic .power) (.group (.negative "2")) (.identifier "a")
  have hu : Derives 0 (scan "b - 1e5").lexemes u := by decide +kernel
  have hv : Derives 0 (scan "(-2) ** a").lexemes v := by decide +kernel
  have huOps : u.postorder =
      [.identifier "b", .number 100000, .operator (.arithmetic .subtract)] := by decide +kernel
  have hvOps : v.postorder =
      [.number (-2), .identifier "a", .operator (.arithmetic .power)] := by decide +kernel
  have hs := compile_of_derives (by decide +kernel) hu (by decide)
  have ht := compile_of_derives (by decide +kernel) hv (by decide)
  rw [huOps] at hs
  rw [hvOps] at ht
  obtain ⟨-, hOperator⟩ := compile_between_brackets hs hu (by decide)
  exact ⟨hs, ht, hOperator (.arithmetic .multiply) _ _ _ ht hv (by decide)⟩

end StackCalc
