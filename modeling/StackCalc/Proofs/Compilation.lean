import StackCalc.Program
import StackCalc.Proofs.Basics
import StackCalc.Proofs.Numeral
import StackCalc.Proofs.Parsing

/-! What the compiler accepts and what it emits. It accepts the sources that scan to their end and
whose words the grammar derives, with a bound on open brackets, and it emits the opcodes of the
expression that the words are read as, in postorder. -/
namespace StackCalc

namespace Reading

/-- The compiler takes all tokens exactly when a reading takes all their words. -/
theorem feedAll_emitter (r : Reading) (tokens : List Token) (e : Emitter) :
    r.emitter.feedAll tokens = .ok e ↔
      ∃ r', r.feedAll nestingLimit (tokens.map Token.lexeme) = .ok r' ∧ r'.emitter = e := by
  induction tokens generalizing r with
  | nil => simp [Emitter.feedAll, feedAll]
  | cons t rest ih =>
      simp only [Emitter.feedAll, feedAll, List.map_cons, feed_emitter]
      cases r.feed nestingLimit t.lexeme with
      | error cause => simp [Except.map]
      | ok r' => exact ih r'

end Reading

/-- What was read to its end is compiled to its opcodes. -/
private theorem compileScan_eq_ok_iff {s : Scan} {length : Nat} {ops : List Opcode} :
    compileScan s length = .ok ops ↔
      s.stop = none ∧ ∃ t, Expression.read nestingLimit s.lexemes = .ok t ∧ t.postorder = ops := by
  have hFeed := Reading.feedAll_emitter (.operand []) s.tokens
  change ∀ e, Emitter.start.feedAll s.tokens = .ok e ↔ _ at hFeed
  simp only [compileScan, Expression.read, Scan.lexemes]
  cases hRead : (Reading.operand []).feedAll nestingLimit (s.tokens.map Token.lexeme) with
  | error cause =>
      cases hTokens : Emitter.start.feedAll s.tokens with
      | error fault => simp
      | ok e =>
          obtain ⟨r, hr, -⟩ := (hFeed e).mp hTokens
          rw [hRead] at hr
          cases hr
  | ok r =>
      rw [(hFeed r.emitter).mpr ⟨r, hRead, rfl⟩]
      cases s.stop with
      | some stop => simp
      | none =>
          simp only [Reading.finish_emitter, mapError_eq_ok_iff, true_and]
          cases r.finish <;> simp [Except.map]

/-- The compiler succeeds exactly when the scan comes to its end and its words can be read. -/
theorem compile_eq_ok_iff_read {source : String} {ops : List Opcode} :
    compile source = .ok ops ↔
      (scan source).stop = none ∧
        ∃ t, Expression.read nestingLimit (scan source).lexemes = .ok t ∧ t.postorder = ops := by
  rw [← @compileScan_eq_ok_iff _ source.length, compile, mapError_eq_ok_iff]

/-- Compiled opcodes are those of an expression that the grammar derives from the source. -/
theorem exists_derives_of_compile {source : String} {ops : List Opcode}
    (h : compile source = .ok ops) :
    ∃ t, Derives 0 (scan source).lexemes t ∧ t.nesting ≤ nestingLimit ∧ t.postorder = ops := by
  obtain ⟨-, t, hRead, hOps⟩ := compile_eq_ok_iff_read.mp h
  obtain ⟨hDerives, hNesting⟩ := Expression.read_eq_ok_iff.mp hRead
  exact ⟨t, hDerives, hNesting, hOps⟩

/-- A source that is scanned to its end and derives a shallow expression compiles to its opcodes. -/
theorem compile_of_derives {source : String} {t : Expression} (hStop : (scan source).stop = none)
    (hDerives : Derives 0 (scan source).lexemes t) (hNesting : t.nesting ≤ nestingLimit) :
    compile source = .ok t.postorder :=
  compile_eq_ok_iff_read.mpr
    ⟨hStop, t, Expression.read_eq_ok_iff.mpr ⟨hDerives, hNesting⟩, rfl⟩

theorem Program.ofSource_of_derives {source : String} {t : Expression}
    (hStop : (scan source).stop = none) (hDerives : Derives 0 (scan source).lexemes t)
    (hNesting : t.nesting ≤ nestingLimit) : Program.ofSource source = .ok ⟨t.postorder⟩ := by
  rw [Program.ofSource, compile_of_derives hStop hDerives hNesting]
  rfl

/-- The program of a source consists of the opcodes of an expression. -/
theorem Program.exists_derives_of_ofSource {source : String} {p : Program}
    (h : Program.ofSource source = .ok p) :
    ∃ t, Derives 0 (scan source).lexemes t ∧ p = ⟨t.postorder⟩ := by
  unfold Program.ofSource at h
  cases hCompile : compile source with
  | error e =>
      rw [hCompile] at h
      cases h
  | ok ops =>
      rw [hCompile] at h
      cases h
      obtain ⟨t, hDerives, -, rfl⟩ := exists_derives_of_compile hCompile
      exact ⟨t, hDerives, rfl⟩

/-- The program of a source consists of the opcodes of the one expression it is read as. -/
theorem Program.exists_expression_of_ofSource {source : String} {p : Program}
    (h : Program.ofSource source = .ok p) :
    ∃ t, (∀ s, Derives 0 (scan source).lexemes s ↔ s = t) ∧ p = ⟨t.postorder⟩ := by
  obtain ⟨t, hDerives, rfl⟩ := exists_derives_of_ofSource h
  exact ⟨t, fun s => ⟨fun hs => hs.unique hDerives, fun hs => hs ▸ hDerives⟩, rfl⟩

end StackCalc
