import StackCalc.Proofs.Concatenation
import StackCalc.Proofs.EqualByValue
import StackCalc.Proofs.ReadingBack

/-! Texts that the program shows and what they say. The brief form of a number can be typed in again
as a source. A listing has one line for each opcode, and the opcodes of compiled programs can be
told from their lines, so two compiled programs have the same listing exactly when they are equal
by value. -/
namespace StackCalc

/-- A number of the pattern is a source, with a minus in front of it too. The minus then belongs to
the number. -/
theorem compile_signed {cs : List Char} (h : Numeral cs) (negative : Bool) :
    compile (String.ofList (Number.signed negative cs)) =
      .ok [.number (Expression.numeralValue (Number.signed negative cs))] := by
  obtain ⟨text, rfl⟩ : ∃ text : String, text.toList = cs := ⟨String.ofList cs, String.toList_ofList⟩
  have hNumber : Cuts text.toList [.number text] := Cuts.of_proper (l := .number text) h
  cases negative with
  | false =>
    have hCuts : Cuts (String.ofList text.toList).toList [.number text] := by
      rwa [String.toList_ofList]
    exact compile_of_cuts hCuts ((Derives.number text).of_le (Nat.zero_le _)) (Nat.zero_le _)
  | true =>
    have hCuts : Cuts (String.ofList ('-' :: text.toList)).toList
        [.symbol (.operator (.arithmetic .subtract)), .number text] := by
      rw [String.toList_ofList]
      exact .of_take? rfl hNumber
    exact compile_of_cuts hCuts ((Derives.negative text).of_le (Nat.zero_le _)) (Nat.zero_le _)

/-- What is shown for a finite double can be typed in: it compiles to a single number, and that is
the double again. -/
theorem compile_brief (x : Float) (h : x.isFinite = true) :
    ∃ y, compile (Number.brief x) = .ok [.number y] ∧ (y == x) = true := by
  obtain ⟨negative, m, q, hParts⟩ := Number.isFinite_iff.mp h
  obtain ⟨sign, cs, y, hText, hNumeral, hRead, hEq⟩ := Number.writtenBrief_finite hParts
  refine ⟨y, ?_, hEq⟩
  rw [Number.brief, hText, compile_signed hNumeral, Expression.numeralValue, hRead,
    Option.getD_some]

/-- The least double of all, below zero. -/
theorem compile_brief_least :
    Number.brief (Number.ofMagnitude true 1) = "-5e-324" ∧
      ∃ y, compile "-5e-324" = .ok [.number y] ∧ (y == Number.ofMagnitude true 1) = true := by
  have hText : Number.brief (Number.ofMagnitude true 1) = "-5e-324" := by decide +kernel
  have h := compile_brief (Number.ofMagnitude true 1) (by decide +kernel)
  rw [hText] at h
  exact ⟨hText, h⟩

/-- The opcodes that compiled programs consist of. -/
inductive Opcode.Compiled : Opcode → Prop where
  | number {x : Float} (defined : Number.parts x ≠ .undefined) : Compiled (.number x)
  | identifier {name : String} (pattern : Identifier name.toList) : Compiled (.identifier name)
  | operator (op : Operator) : Compiled (.operator op)

/-- The value of a numeral is never NaN. -/
theorem compiled_number {cs : List Char} (h : Numeral cs) (negative : Bool) :
    (Opcode.number (Expression.numeralValue (Number.signed negative cs))).Compiled := by
  obtain ⟨d, hDecimal⟩ := h.decimal?_readable
  rw [Expression.numeralValue, h.readChars?_signed, hDecimal]
  exact .number (d.toFloat_ne_undefined negative)

/-- The opcodes of an expression of proper lexemes are compiled ones, by induction on the
expression. -/
theorem Expression.compiled_postorder {t : Expression} (h : ∀ l ∈ t.lexemes, l.Proper) :
    ∀ op ∈ t.postorder, op.Compiled := by
  induction t with
  | number text =>
    have hNumeral : Numeral text.toList := h (.number text) (List.mem_singleton_self _)
    exact List.forall_mem_singleton.mpr (compiled_number hNumeral false)
  | negative text =>
    have hNumeral : Numeral text.toList := h (.number text) (by simp [lexemes])
    exact List.forall_mem_singleton.mpr (compiled_number hNumeral true)
  | identifier name =>
    have hName : Identifier name.toList := h (.identifier name) (List.mem_singleton_self _)
    exact List.forall_mem_singleton.mpr (.identifier hName)
  | group t ih => exact ih fun l hl => h l (by simp [lexemes, hl])
  | binary op l r ihLeft ihRight =>
    have hLeft := ihLeft fun w hw => h w (by simp [lexemes, hw])
    have hRight := ihRight fun w hw => h w (by simp [lexemes, hw])
    exact List.forall_mem_append.mpr ⟨List.forall_mem_append.mpr ⟨hLeft, hRight⟩,
      List.forall_mem_singleton.mpr (.operator op)⟩

theorem Expression.postorder_ne_nil (t : Expression) : t.postorder ≠ [] := by
  induction t with
  | number | negative | identifier => exact List.cons_ne_nil _ _
  | group t ih => exact ih
  | binary => exact List.append_ne_nil_of_right_ne_nil _ (List.cons_ne_nil _ _)

/-- A program read from a source has opcodes, and all of them are compiled ones. -/
theorem Program.compiled_of_ofSource {source : String} {p : Program}
    (h : Program.ofSource source = .ok p) : p.opcodes ≠ [] ∧ ∀ op ∈ p.opcodes, op.Compiled := by
  obtain ⟨t, hDerives, rfl⟩ := exists_derives_of_ofSource h
  refine ⟨t.postorder_ne_nil, t.compiled_postorder fun l hl => ?_⟩
  rw [← hDerives.lexemes_eq] at hl
  obtain ⟨token, hToken, rfl⟩ := List.mem_map.mp hl
  exact (Scan.places_scan source).proper token hToken

/-- What stands behind the kind in a line of a listing. -/
def Payload.listed : Payload → List Char
  | .empty => []
  | .number x => ' ' :: (Number.brief x).toList
  | .text s => ' ' :: s.toList

theorem Opcode.toList_listed (op : Opcode) :
    op.listed.toList = op.kind.name.toList ++ op.payload.listed := by
  rcases op with ⟨kind, payload⟩
  cases payload <;> simp [Opcode.listed, Payload.listed, toString]

theorem Kind.mem_all (kind : Kind) : kind ∈ Kind.all := by
  rcases kind with _ | _ | ((a | _) | _ | _)
  · decide
  · decide
  · cases a <;> decide
  · decide
  · decide
  · decide

/-- A kind is determined by its name, which is checked over the finite table of kinds. -/
theorem Kind.name_injective {kind kind' : Kind} (h : kind.name = kind'.name) : kind = kind' := by
  have hAll : ∀ k ∈ Kind.all, ∀ k' ∈ Kind.all, k.name = k'.name → k = k' := by decide
  exact hAll kind kind.mem_all kind' kind'.mem_all h

/-- The characters of a kind's name are letters. -/
theorem Kind.name_plain (kind : Kind) : ' ' ∉ kind.name.toList ∧ '\n' ∉ kind.name.toList := by
  have hAll : ∀ k ∈ Kind.all, ' ' ∉ k.name.toList ∧ '\n' ∉ k.name.toList := by decide +kernel
  exact hAll kind kind.mem_all

/-- A line falls apart at its first space. -/
theorem Opcode.listed_eq_iff {a b : Opcode} :
    a.listed = b.listed ↔ a.kind = b.kind ∧ a.payload.listed = b.payload.listed := by
  have hFirst : ∀ op : Opcode,
      op.listed.toList.takeWhile (fun c => c ≠ ' ') = op.kind.name.toList := by
    intro op
    have hName : ∀ c ∈ op.kind.name.toList, decide (c ≠ ' ') = true := by
      intro c hc
      apply decide_eq_true
      rintro rfl
      exact op.kind.name_plain.1 hc
    rw [toList_listed, List.takeWhile_append_of_pos hName]
    cases op.payload <;> simp [Payload.listed]
  constructor
  · intro h
    have hName : a.kind = b.kind := by
      apply Kind.name_injective
      apply String.toList_inj.mp
      rw [← hFirst, ← hFirst, h]
    refine ⟨hName, ?_⟩
    have hLine := congrArg String.toList h
    rw [toList_listed, toList_listed, hName] at hLine
    exact List.append_cancel_left hLine
  · rintro ⟨hKind, hPayload⟩
    apply String.toList_inj.mp
    rw [toList_listed, toList_listed, hKind, hPayload]

/-- No name breaks a line. -/
theorem Identifier.newline_not_mem {name : List Char} (h : Identifier name) : '\n' ∉ name := by
  obtain ⟨hStart, hRest⟩ := h
  intro hMem
  rcases List.mem_cons.mp hMem with rfl | hMem
  · exact absurd hStart (by decide)
  · exact absurd (hRest _ hMem) (by decide)

/-- No written number breaks a line. -/
theorem Number.newline_not_mem_writtenBrief {x : Float} (h : Number.parts x ≠ .undefined) :
    '\n' ∉ (Number.parts x).writtenBrief := by
  cases hParts : Number.parts x with
  | undefined => exact absurd hParts h
  | infinite negative => cases negative <;> decide
  | finite negative m q =>
    obtain ⟨sign, cs, -, hText, hNumeral, -⟩ := Number.writtenBrief_finite hParts
    rw [← hParts, hText]
    intro hMem
    exact absurd (hNumeral.characters_signed sign _ hMem) (by decide)

namespace Opcode.Compiled
variable {a b : Opcode}

/-- The opcodes of compiled programs are told apart by their lines. -/
theorem listed_eq_iff_sameAs (ha : a.Compiled) (hb : b.Compiled) :
    a.listed = b.listed ↔ a.sameAs b = true := by
  rw [Opcode.listed_eq_iff, Opcode.sameAs_iff]
  apply and_congr_right
  intro hKind
  cases ha with
  | number defined =>
    cases hb with
    | number defined' =>
      simp only [Opcode.number, Payload.listed, Payload.sameAs, List.cons.injEq, true_and,
        String.toList_inj]
      -- Two infinities of one sign are equal by value too; only the undefined number would not be.
      exact Number.brief_eq_iff defined defined'
    | identifier => cases hKind
    | operator => cases hKind
  | identifier =>
    cases hb with
    | number => cases hKind
    | identifier => simp [Opcode.identifier, Payload.listed, Payload.sameAs, String.toList_inj]
    | operator => cases hKind
  | operator op =>
    cases hb with
    | number => cases hKind
    | identifier => cases hKind
    | operator op' => exact ⟨fun _ => rfl, fun _ => rfl⟩

/-- Compiled opcodes have the same lines exactly when they are equal by value. -/
theorem lines_eq_iff {ops ops' : List Opcode} (h : ∀ op ∈ ops, op.Compiled)
    (h' : ∀ op ∈ ops', op.Compiled) :
    (ops.map fun op => op.listed.toList) = (ops'.map fun op => op.listed.toList) ↔
      List.Forall₂ (fun a b => a.sameAs b = true) ops ops' := by
  induction ops generalizing ops' with
  | nil => cases ops' <;> simp
  | cons a rest ih =>
    cases ops' with
    | nil => simp
    | cons b rest' =>
      obtain ⟨ha, hRest⟩ := List.forall_mem_cons.mp h
      obtain ⟨hb, hRest'⟩ := List.forall_mem_cons.mp h'
      rw [List.map_cons, List.map_cons, List.cons.injEq, List.forall₂_cons, String.toList_inj,
        listed_eq_iff_sameAs ha hb, ih hRest hRest']

/-- A compiled opcode is listed on one line, so the lines of a listing can be told apart. -/
theorem newline_not_mem_listed (h : a.Compiled) : '\n' ∉ a.listed.toList := by
  rw [toList_listed, List.mem_append, not_or]
  refine ⟨a.kind.name_plain.2, ?_⟩
  cases h with
  | number defined =>
    have hNumber := Number.newline_not_mem_writtenBrief defined
    simpa [Opcode.number, Payload.listed, Number.brief] using hNumber
  | identifier pattern =>
    have hName : '\n' ∉ _ := pattern.newline_not_mem
    simpa [Opcode.identifier, Payload.listed] using hName
  | operator => exact List.not_mem_nil

end Opcode.Compiled

theorem Program.toList_listing (p : Program) :
    p.listing.toList = ['\n'].intercalate (p.opcodes.map fun op => op.listed.toList) := by
  rw [listing, String.toList_intercalate, List.map_map]
  rfl

/-- Lines without line breaks can be read off a listing. -/
theorem Program.splitOn_listing {p : Program} (hSome : p.opcodes ≠ [])
    (hLines : ∀ op ∈ p.opcodes, '\n' ∉ op.listed.toList) :
    p.listing.toList.splitOn '\n' = p.opcodes.map fun op => op.listed.toList := by
  rw [toList_listing]
  apply List.splitOn_intercalate
  · simpa using hLines
  · simpa using hSome

/-- Listings are faithful: programs that were compiled have the same listing exactly when they are
equal by value. -/
theorem listing_eq_iff_sameAs {source source' : String} {p q : Program}
    (hp : Program.ofSource source = .ok p) (hq : Program.ofSource source' = .ok q) :
    p.sameAs q = true ↔ p.listing = q.listing := by
  obtain ⟨hSome, hCompiled⟩ := Program.compiled_of_ofSource hp
  obtain ⟨hSome', hCompiled'⟩ := Program.compiled_of_ofSource hq
  rw [Program.sameAs_iff, ← Opcode.Compiled.lines_eq_iff hCompiled hCompiled']
  constructor
  · intro hLines
    apply String.toList_inj.mp
    rw [Program.toList_listing, Program.toList_listing, hLines]
  · intro hListing
    rw [← Program.splitOn_listing hSome fun op hop => (hCompiled op hop).newline_not_mem_listed,
      ← Program.splitOn_listing hSome' fun op hop => (hCompiled' op hop).newline_not_mem_listed,
      hListing]

/-- A whole number, the same number with an exponent, and a zero of either sign. -/
theorem listing_eq_iff_sameAs_of_zero :
    ∃ p q, Program.ofSource "x = 1e3 - 0" = .ok p ∧ Program.ofSource "(x) = (1000.0) - -0" = .ok q ∧
      p ≠ q ∧ p.listing = "identifier x\nnumber 1000\nnumber 0\nsubtract\nassign" ∧
      (p.sameAs q = true ↔ p.listing = q.listing) ∧ p.sameAs q = true := by
  have hp : Program.ofSource "x = 1e3 - 0" = .ok ⟨[.identifier "x", .number 1000, .number 0,
    .operator (.arithmetic .subtract), .operator .assign]⟩ := by decide +kernel
  have hq : Program.ofSource "(x) = (1000.0) - -0" = .ok ⟨[.identifier "x", .number 1000,
    .number (-0), .operator (.arithmetic .subtract), .operator .assign]⟩ := by decide +kernel
  refine ⟨_, _, hp, hq, ?_, ?_, listing_eq_iff_sameAs hp hq, ?_⟩
  · decide +kernel
  · decide +kernel
  · decide +kernel

end StackCalc
