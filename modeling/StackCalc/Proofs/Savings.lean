import StackCalc.Proofs.Optimization

/-! What folding saves. Every operator that finds two numbers in the replay saves two opcodes: the
numbers and the operator give way to one number. Nothing else changes the count, so opcodes among
which there is no such operator are kept as they are. Folding what was folded leads to the same
stack in the same steps, so it finds nothing more to save. -/
namespace StackCalc

/-- The opcode with a number in place of a text that is read as one. -/
def Opcode.numeric (op : Opcode) : Opcode :=
  match op.kind, op.payload.toNumber with
  | .number, .ok x => .number x
  | _, _ => op

namespace Replay

/-- Whether an opcode is arithmetic with two numbers. -/
def calculates (c : Replay) (op : Opcode) : Bool :=
  match op.kind, c.stack with
  | .symbol (.operator (.arithmetic _)), .literal _ :: .literal _ :: _ => true
  | _, _ => false

/-- How many of the opcodes are arithmetic with two numbers when they are replayed. -/
def calculations (c : Replay) : List Opcode → Nat
  | [] => 0
  | op :: rest => (c.calculates op).toNat + calculations (c.perform op).2 rest

/-- Calculations are counted part by part. -/
theorem calculations_append {c c' : Replay} {first : List Opcode}
    (h : c.performAll first = (.ok (), c')) (second : List Opcode) :
    c.calculations (first ++ second) = c.calculations first + c'.calculations second := by
  induction first generalizing c with
  | nil =>
      cases h
      exact (Nat.zero_add _).symm
  | cons op rest ih =>
      rw [Context.performAll_cons] at h
      rcases hOp : c.perform op with ⟨fault | _, c₁⟩
      · rw [hOp] at h
        cases h
      · rw [hOp] at h
        simp only [List.cons_append, calculations, hOp, ih h, Nat.add_assoc]

/-- An opcode that leaves no number on top does not calculate with two numbers, and it is no number
itself. -/
theorem Performs.not_calculates {stack stack' : List Element} {op : Opcode}
    (h : Performs stack op stack') (hTop : ∀ e ∈ stack'.head?, e.isLiteral = false)
    (standIn : Float) : (settled standIn stack).calculates op = false ∧ op.numeric = op := by
  cases h with
  | number | calculate => cases hTop _ rfl
  | identifier | assign => exact ⟨rfl, rfl⟩
  | @depend left right a rest payload hDepend =>
      refine ⟨?_, rfl⟩
      cases right with
      | reference => rfl
      | literal y =>
          cases left with
          | reference => rfl
          | literal x => cases hDepend

end Replay

/-- An opcode that works on waiting numbers alone adds one to them, or it calculates with two of
them and leaves one. -/
theorem Absorbs.calculates_cases {waiting waiting' : List Float} {op : Opcode}
    (h : Absorbs waiting op waiting') (standIn : Float) (covered : List Element) :
    let calculates :=
      (Replay.settled standIn (waiting.map Element.literal ++ covered)).calculates op
    (calculates = false ∧ ∃ x, waiting' = x :: waiting ∧ op.numeric = .number x) ∨
      (calculates = true ∧ waiting'.length + 1 = waiting.length) := by
  cases h with
  | number value => exact .inl ⟨rfl, _, rfl, by simp only [Opcode.numeric, value]⟩
  | calculate => exact .inr ⟨rfl, rfl⟩

namespace Folder
variable {f f' : Folder} {op : Opcode} {ops done : List Opcode} {standIn : Float}
  {waiting : List Float} {covered : List Element}

theorem steps_append {first : List Opcode} (h : f.steps first = .ok f') (second : List Opcode) :
    f.steps (first ++ second) = f'.steps second := by
  induction first generalizing f with
  | nil =>
      cases h
      rfl
  | cons op rest ih =>
      obtain ⟨middle, hStep, hRest⟩ := steps_cons_ok h
      simp only [List.cons_append, steps, hStep, ih hRest]

/-- Numbers in a row wait in their order, and nothing is emitted. -/
theorem steps_numbers {stack : List Element} (h : f.replay = .settled standIn stack)
    (xs : List Float) :
    f.steps (xs.map Opcode.number) =
      .ok { f with replay := .settled standIn ((xs.map Element.literal).reverse ++ stack) } := by
  induction xs generalizing f stack with
  | nil =>
      rcases f with ⟨replay, emitted, bound⟩
      cases h
      rfl
  | cons x rest ih =>
      have hStep : f.step (.number x) =
          .ok { f with replay := .settled standIn (.literal x :: stack) } := by
        rcases f with ⟨replay, emitted, bound⟩
        cases h
        rfl
      simp only [List.map_cons, steps, hStep]
      rw [ih rfl]
      simp only [List.reverse_cons, List.append_assoc, List.singleton_append]

/-- The emitted opcodes, with those behind them that push the waiting numbers. -/
def written (f : Folder) (waiting : List Float) : List Opcode :=
  f.emitted ++ waiting.reverse.map Opcode.number

/-- The folder without the numbers that wait. -/
def resting (f : Folder) (covered : List Element) : Folder :=
  { f with replay := { f.replay with stack := covered } }

/-- The waiting numbers bring a resting folder back to where it was. -/
theorem Splits.steps_resting (h : f.Splits waiting covered) :
    (f.resting covered).steps (waiting.reverse.map Opcode.number) = .ok f := by
  rcases f with ⟨⟨stack, standIn, touched⟩, emitted, bound⟩
  cases h.stack
  cases h.untouched
  rw [steps_numbers rfl, List.map_reverse, List.reverse_reverse]
  rfl

theorem Splits.resting_eq (h : f.Splits [] covered) : f.resting covered = f := by
  rcases f with ⟨⟨stack, store⟩, emitted, bound⟩
  cases h.stack
  rfl

/-- A step changes nothing in the store of the replay. -/
theorem Splits.store_step (h : f.Splits waiting covered) (hStep : f.step op = .ok f') :
    f'.replay.store = f.replay.store := by
  have hPerform := perform_of_step hStep
  rw [h.replay_eq] at hPerform
  obtain ⟨stack', -, hReplay⟩ := Replay.performs_of_perform hPerform
  rw [hReplay, h.replay_eq]
  rfl

/-- The account of a folder that has replayed `done`. -/
structure Accounts (f : Folder) (standIn : Float) (done : List Opcode) (waiting : List Float)
    (covered : List Element) : Prop where
  splits : f.Splits waiting covered
  replayed : (Replay.start standIn).performAll done = (.ok (), f.replay)
  /-- Every calculation with two numbers has saved two opcodes. -/
  saved : (f.written waiting).length + 2 * (Replay.start standIn).calculations done = done.length
  /-- Without such calculations nothing has changed. -/
  unchanged : (Replay.start standIn).calculations done = 0 →
    f.written waiting = done.map Opcode.numeric
  /-- Folding the emitted opcodes emits them again. -/
  refolds : (Folder.start standIn).steps f.emitted = .ok (f.resting covered)

namespace Accounts

theorem start (standIn : Float) : (Folder.start standIn).Accounts standIn [] [] [] :=
  ⟨splits_start standIn, rfl, rfl, fun _ => rfl, rfl⟩

/-- The step lemma. An opcode that is absorbed saves its calculation, and one that is emitted keeps
it for the program. -/
theorem step (h : f.Accounts standIn done waiting covered) (hStep : f.step op = .ok f') :
    ∃ waiting' covered', f'.Accounts standIn (done ++ [op]) waiting' covered' := by
  have hReplayed : (Replay.start standIn).performAll (done ++ [op]) = (.ok (), f'.replay) := by
    rw [Context.performAll_append_of_ok h.replayed, Context.performAll_singleton,
      perform_of_step hStep]
  have hCount : (Replay.start standIn).calculations (done ++ [op]) =
      (Replay.start standIn).calculations done + (f.replay.calculates op).toNat :=
    Replay.calculations_append h.replayed [op]
  have hSaved := h.saved
  rcases h.splits.step_cases hStep with
    ⟨waiting', hAbsorbs, hSplits, hEmitted⟩ | ⟨covered', hPerforms, hSplits, hEmitted⟩
  · have hRefolds : (Folder.start standIn).steps f'.emitted = .ok (f'.resting covered) := by
      have hResting : f'.resting covered = f.resting covered := by
        simp only [resting, hEmitted, hSplits.bound, h.splits.bound, h.splits.store_step hStep]
      rw [hEmitted, h.refolds, hResting]
    have hCases := hAbsorbs.calculates_cases f.replay.store.standIn covered
    rw [← h.splits.replay_eq] at hCases
    refine ⟨waiting', covered, hSplits, hReplayed, ?_, ?_, hRefolds⟩
    · rw [hCount]
      rcases hCases with ⟨hNot, x, rfl, -⟩ | ⟨hCalculates, hLength⟩
      · simp [written, hEmitted, hNot] at hSaved ⊢
        omega
      · simp [written, hEmitted, hCalculates] at hSaved ⊢
        omega
    · intro hNone
      rw [hCount] at hNone
      rcases hCases with ⟨-, x, rfl, hNumeric⟩ | ⟨hCalculates, -⟩
      · have hWritten := h.unchanged (by omega)
        rw [List.map_append, List.map_singleton, hNumeric, ← hWritten]
        simp [written, hEmitted]
      · rw [hCalculates] at hNone
        cases hNone
  · obtain ⟨hNot, hNumeric⟩ := hPerforms.not_calculates hSplits.top f.replay.store.standIn
    rw [← h.splits.replay_eq] at hNot
    have hWritten : f'.written [] = f.written waiting ++ [op] := by
      simp [written, hEmitted]
    refine ⟨[], covered', hSplits, hReplayed, ?_, ?_, ?_⟩
    · rw [hWritten, hCount, hNot, List.length_append, List.length_append]
      simp only [Bool.toNat_false, List.length_singleton]
      omega
    · intro hNone
      rw [hCount] at hNone
      rw [hWritten, h.unchanged (by omega), List.map_append, List.map_singleton, hNumeric]
    · -- The waiting numbers are pushed again, and then the folder is the one before `op`.
      rw [hEmitted, List.append_assoc, steps_append h.refolds, steps_append h.splits.steps_resting,
        hSplits.resting_eq]
      simp only [steps, hStep]

/-- What was saved and what is kept add up to what the source had, over any run of the folder. -/
theorem steps (h : f.Accounts standIn done waiting covered) (hSteps : f.steps ops = .ok f') :
    ∃ waiting' covered', f'.Accounts standIn (done ++ ops) waiting' covered' := by
  refine steps_invariant
    (I := fun done f => ∃ waiting covered, f.Accounts standIn done waiting covered) ?_
    done ⟨waiting, covered, h⟩ hSteps
  rintro done f op f' ⟨waiting, covered, hAccounts⟩ hStep
  exact hAccounts.step hStep

theorem of_steps (hSteps : (Folder.start standIn).steps ops = .ok f) :
    ∃ waiting covered, f.Accounts standIn ops waiting covered :=
  (start standIn).steps hSteps

end Accounts

/-- Opcodes that are replayed without a fault are folded to their end. -/
theorem exists_accounts {c : Replay} (h : (Replay.start standIn).performAll ops = (.ok (), c)) :
    ∃ f waiting covered, (Folder.start standIn).steps ops = .ok f ∧ f.replay = c ∧
      f.Accounts standIn ops waiting covered := by
  cases hSteps : (Folder.start standIn).steps ops with
  | error fault =>
      have hFault := performAll_of_steps_error hSteps
      change ((Replay.start standIn).performAll ops).1 = _ at hFault
      rw [h] at hFault
      cases hFault
  | ok f =>
      obtain ⟨waiting, covered, hAccounts⟩ := Accounts.of_steps hSteps
      have hReplay := hAccounts.replayed
      rw [h] at hReplay
      cases hReplay
      exact ⟨f, waiting, covered, rfl, rfl, hAccounts⟩

end Folder

theorem Context.topIsLiteral_iff {σ : Type} {c : Context σ} :
    c.topIsLiteral = true ↔ ∃ x rest, c.stack = .literal x :: rest := by
  rcases c with ⟨_ | ⟨x | name, rest⟩, store⟩ <;> simp [topIsLiteral]

theorem Context.stack_ne_of_topIsLiteral {σ : Type} {c : Context σ} (h : c.topIsLiteral = false)
    (x : Float) (rest : List Element) : c.stack ≠ .literal x :: rest := by
  intro hStack
  rw [topIsLiteral_iff.mpr ⟨x, rest, hStack⟩] at h
  cases h

/-- A program that ends on a known number folds to that number. -/
theorem foldWith_of_literal {standIn : Float} {ops : List Opcode} {f : Folder} {x : Float}
    {rest : List Element} (h : (Folder.start standIn).steps ops = .ok f)
    (hStack : f.replay.stack = .literal x :: rest) : foldWith standIn ops = .ok (.constant x) := by
  simp only [foldWith, h, hStack]

/-- Otherwise the emitted opcodes replace the program when they are fewer. -/
theorem foldWith_of_not_literal {standIn : Float} {ops : List Opcode} {f : Folder}
    (h : (Folder.start standIn).steps ops = .ok f) (hTop : f.replay.topIsLiteral = false) :
    foldWith standIn ops =
      .ok (if f.emitted.length < ops.length then .shorter f.emitted else .unchanged) := by
  simp only [foldWith, h]
  split
  · rename_i hStack
    exact absurd hStack (Context.stack_ne_of_topIsLiteral hTop _ _)
  · rfl

/-- Without a number on top nothing waits. So the account is about the emitted opcodes alone, and
they are fewer than the others exactly if something was saved. -/
theorem Folder.Accounts.foldWith_eq {standIn : Float} {ops : List Opcode} {f : Folder}
    {waiting : List Float} {covered : List Element} (h : f.Accounts standIn ops waiting covered)
    (hSteps : (Folder.start standIn).steps ops = .ok f) (hTop : f.replay.topIsLiteral = false) :
    let k := (Replay.start standIn).calculations ops
    f.emitted.length + 2 * k = ops.length ∧
      foldWith standIn ops = .ok (if k = 0 then .unchanged else .shorter f.emitted) ∧
      (k = 0 → f.emitted = ops.map Opcode.numeric) := by
  intro k
  obtain rfl := h.splits.waiting_eq_nil (Context.stack_ne_of_topIsLiteral hTop)
  have hWritten : f.written [] = f.emitted := List.append_nil _
  have hSaved := h.saved
  have hUnchanged := h.unchanged
  rw [hWritten] at hSaved hUnchanged
  refine ⟨hSaved, ?_, hUnchanged⟩
  rw [foldWith_of_not_literal hSteps hTop]
  by_cases hNone : k = 0
  · rw [if_pos hNone, if_neg (by omega)]
  · rw [if_neg hNone, if_pos (by omega)]

namespace Program

/-- Nothing in the program can be computed in advance. It is replayed without a fault, none of its
opcodes is arithmetic with two numbers then, and what it leaves on top is no number. -/
def Normal (p : Program) : Prop :=
  ∃ c, (Replay.start registerStandIn).performAll p.opcodes = (.ok (), c) ∧
    c.topIsLiteral = false ∧ (Replay.start registerStandIn).calculations p.opcodes = 0

/-- What folding decides, optimization does: a program that folding does not change is kept. -/
theorem folded?_of_foldWith {p : Program} {folded : Folded}
    (h : foldWith registerStandIn p.opcodes = .ok folded) :
    p.folded? = .ok (folded.opcodes?.map Program.mk) ∧
      p.optimize = .ok ⟨folded.opcodes?.getD p.opcodes⟩ := by
  rw [optimize_eq, folded?, fold, h]
  exact ⟨rfl, rfl⟩

/-- Optimization never makes a program longer. -/
theorem size_le_of_optimize {p q : Program} (h : p.optimize = .ok q) : q.size ≤ p.size := by
  obtain ⟨folded, hFold, rfl⟩ := exists_fold_of_optimize h
  obtain ⟨f, hSteps, ⟨x, rest, hStack, rfl⟩ | ⟨-, rfl⟩⟩ := foldWith_cases hFold
  · -- No opcodes leave no number.
    change 0 < p.opcodes.length
    rw [List.length_pos_iff]
    intro hNil
    rw [hNil] at hSteps
    cases hSteps
    cases hStack
  · split
    · rename_i hShorter
      exact Nat.le_of_lt hShorter
    · exact Nat.le_refl _

end Program

/-- Folding saves two opcodes for each arithmetic opcode that is replayed with two numbers, and no
more. If the opcodes leave a number on top, it is all that is kept. Otherwise the program is kept
exactly if there is no such arithmetic; what was emitted then is the program itself, with numbers in
place of the texts that are read as numbers. -/
theorem folding_saves_two_per_calculation {p : Program} {c : Replay}
    (h : (Replay.start registerStandIn).performAll p.opcodes = (.ok (), c)) :
    let k := (Replay.start registerStandIn).calculations p.opcodes
    ∃ f, (Folder.start registerStandIn).steps p.opcodes = .ok f ∧ f.replay = c ∧
      (∀ x rest, c.stack = .literal x :: rest → p.folded? = .ok (some ⟨[.number x]⟩)) ∧
      (c.topIsLiteral = false →
        f.emitted.length + 2 * k = p.size ∧
        p.folded? = .ok (if k = 0 then none else some ⟨f.emitted⟩) ∧
        (k = 0 → f.emitted = p.opcodes.map Opcode.numeric)) ∧
      (∃ q, p.optimize = .ok q ∧ q.size ≤ p.size) ∧
      (p.folded? = .ok none ↔ c.topIsLiteral = false ∧ k = 0) := by
  intro k
  obtain ⟨f, waiting, covered, hSteps, rfl, hAccounts⟩ := Folder.exists_accounts h
  refine ⟨f, hSteps, rfl, ?_⟩
  cases hTop : f.replay.topIsLiteral with
  | true =>
      obtain ⟨x, rest, hStack⟩ := Context.topIsLiteral_iff.mp hTop
      obtain ⟨hFolded, hOptimize⟩ := Program.folded?_of_foldWith (foldWith_of_literal hSteps hStack)
      have hSize := Program.size_le_of_optimize hOptimize
      refine ⟨?_, by simp, ⟨_, hOptimize, hSize⟩, by simp [hFolded, Folded.opcodes?]⟩
      intro y rest' hStack'
      rw [hStack] at hStack'
      cases hStack'
      exact hFolded
  | false =>
      obtain ⟨hSaved, hFold, hUnchanged⟩ := hAccounts.foldWith_eq hSteps hTop
      obtain ⟨hFolded, hOptimize⟩ := Program.folded?_of_foldWith hFold
      have hResult : p.folded? = .ok (if k = 0 then none else some ⟨f.emitted⟩) := by
        rw [hFolded]
        by_cases hNone : k = 0
        · rw [if_pos hNone, if_pos hNone]
          rfl
        · rw [if_neg hNone, if_neg hNone]
          rfl
      have hSize := Program.size_le_of_optimize hOptimize
      refine ⟨?_, fun _ => ⟨hSaved, hResult, hUnchanged⟩, ⟨_, hOptimize, hSize⟩, ?_⟩
      · intro x rest hStack
        exact absurd hStack (Context.stack_ne_of_topIsLiteral hTop x rest)
      · rw [hResult]
        by_cases hNone : k = 0 <;> simp [hNone]

/-- Two of the numbers are added, the text between the register and its assignment is read. -/
theorem folding_saves_sum :
    let p : Program := ⟨[.identifier "a", ⟨.number, "3"⟩, .operator .assign, .number 1, .number 2,
      .operator (.arithmetic .add), .operator (.arithmetic .multiply)]⟩
    ∃ c f, (Replay.start registerStandIn).performAll p.opcodes = (.ok (), c) ∧
      c.topIsLiteral = false ∧ (Replay.start registerStandIn).calculations p.opcodes = 1 ∧
      (Folder.start registerStandIn).steps p.opcodes = .ok f ∧ f.emitted.length = 5 ∧
      p.folded? = .ok (some ⟨f.emitted⟩) := by
  intro p
  obtain ⟨c, hReplay, hTop, hCount⟩ :
      ∃ c, (Replay.start registerStandIn).performAll p.opcodes = (.ok (), c) ∧
        c.topIsLiteral = false ∧ (Replay.start registerStandIn).calculations p.opcodes = 1 :=
    ⟨_, rfl, rfl, rfl⟩
  obtain ⟨f, hSteps, -, -, hOpen, -⟩ := folding_saves_two_per_calculation hReplay
  obtain ⟨hSize, hFolded, -⟩ := hOpen hTop
  rw [hCount] at hSize hFolded
  have hLength : f.emitted.length = 5 := by
    change f.emitted.length + 2 * 1 = 7 at hSize
    omega
  exact ⟨c, f, hReplay, hTop, hCount, hSteps, hLength, hFolded⟩

/-- What was emitted is replayed with the same stack at the end, and nothing is saved on it. -/
theorem Folder.Accounts.normal_emitted {ops : List Opcode} {f : Folder} {waiting : List Float}
    {covered : List Element} (h : f.Accounts registerStandIn ops waiting covered)
    (hTop : f.replay.topIsLiteral = false) : Program.Normal ⟨f.emitted⟩ := by
  obtain rfl := h.splits.waiting_eq_nil (Context.stack_ne_of_topIsLiteral hTop)
  have hRefolds := h.refolds
  rw [h.splits.resting_eq] at hRefolds
  obtain ⟨waiting', covered', hAgain⟩ := Accounts.of_steps hRefolds
  obtain ⟨hSaved, -⟩ := hAgain.foldWith_eq hRefolds hTop
  have hNone : (Replay.start registerStandIn).calculations f.emitted = 0 := by omega
  exact ⟨f.replay, hAgain.replayed, hTop, hNone⟩

namespace Program

/-- A normal program is left as it is. -/
theorem Normal.folded? {p : Program} (h : p.Normal) : p.folded? = .ok none := by
  obtain ⟨c, hReplay, hTop, hCount⟩ := h
  obtain ⟨f, waiting, covered, hSteps, rfl, hAccounts⟩ := Folder.exists_accounts hReplay
  obtain ⟨-, hFold, -⟩ := hAccounts.foldWith_eq hSteps hTop
  rw [hCount] at hFold
  exact (folded?_of_foldWith hFold).1

/-- Folding reaches a single number or a program in which nothing is left to be computed. -/
theorem number_or_normal_of_optimize {p q : Program} (h : p.optimize = .ok q) :
    (∃ x, q = ⟨[.number x]⟩) ∨ q.Normal := by
  obtain ⟨folded, hFold, rfl⟩ := exists_fold_of_optimize h
  obtain ⟨f, hSteps, ⟨x, rest, -, rfl⟩ | ⟨hStack, rfl⟩⟩ := foldWith_cases hFold
  · exact .inl ⟨x, rfl⟩
  · right
    have hTop : f.replay.topIsLiteral = false := by
      rw [← Bool.not_eq_true, Context.topIsLiteral_iff]
      rintro ⟨x, rest, hLiteral⟩
      exact hStack x rest hLiteral
    obtain ⟨waiting, covered, hAccounts⟩ := Folder.Accounts.of_steps hSteps
    obtain ⟨hSaved, -⟩ := hAccounts.foldWith_eq hSteps hTop
    split
    · exact hAccounts.normal_emitted hTop
    · have hNone : (Replay.start registerStandIn).calculations p.opcodes = 0 := by omega
      exact ⟨f.replay, hAccounts.replayed, hTop, hNone⟩

end Program

/-- Folding a program that was folded changes nothing. What came out the first time is a single
number, which is folded to itself, or it is returned as it is, since nothing in it can be computed
in advance. -/
theorem optimize_idempotent {p q : Program} (h : p.optimize = .ok q) :
    q.optimize = .ok q ∧
      ((∃ x, q = ⟨[.number x]⟩ ∧ q.folded? = .ok (some q)) ∨ q.folded? = .ok none ∧ q.Normal) := by
  rcases Program.number_or_normal_of_optimize h with ⟨x, rfl⟩ | hNormal
  · exact ⟨rfl, .inl ⟨x, rfl, rfl⟩⟩
  · have hFolded := hNormal.folded?
    refine ⟨?_, .inr ⟨hFolded, hNormal⟩⟩
    rw [Program.optimize, hFolded]
    rfl

/-- The second time the product is a number that waits until the register is assigned to. -/
theorem optimize_idempotent_of_product :
    let p : Program := ⟨[.number 7, .identifier "a", .number 2, .number 3,
      .operator (.arithmetic .multiply), .operator .assign, .operator (.arithmetic .add)]⟩
    let q : Program := ⟨[.number 7, .identifier "a", .number 6, .operator .assign,
      .operator (.arithmetic .add)]⟩
    p.optimize = .ok q ∧ q.optimize = .ok q ∧ q.folded? = .ok none := by
  intro p q
  have hOptimize : p.optimize = .ok q := eq_ok_of_toOption (by decide +kernel)
  obtain ⟨hAgain, ⟨x, hNumber, -⟩ | ⟨hFolded, -⟩⟩ := optimize_idempotent hOptimize
  · have hSize : 5 = 1 := congrArg Program.size hNumber
    cases hSize
  · exact ⟨hOptimize, hAgain, hFolded⟩

end StackCalc
