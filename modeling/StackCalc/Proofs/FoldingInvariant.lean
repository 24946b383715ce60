import StackCalc.Proofs.Balance
import StackCalc.Proofs.Savings

/-! The loop of folding. Between two opcodes the bound cuts the stack of the replay into two parts.
Above it there are numbers only, and none of them has been emitted. Below it lies what the emitted
opcodes rebuild on a machine, whatever its registers are; the topmost element there is no number, so
no operator can reach below the bound and leave a number. If the machine refuses an assignment, the
emitted opcodes have led it to the same assignment in the same state. -/
namespace StackCalc

/-- The opcodes run as far as `op` and meet a fault there, in the state that those before it lead
to. -/
structure Context.StopsAt {σ : Type} [Store σ] (c : Context σ) (ops before : List Opcode)
    (op : Opcode) (state : Context σ) (fault : Fault) : Prop where
  place : before ++ [op] <+: ops
  reached : c.performAll before = (.ok (), state)
  refused : (state.perform op).1 = .error fault

/-- Opcodes that meet a fault meet it at one of them. -/
theorem Context.exists_stopsAt {σ : Type} [Store σ] {c c' : Context σ} {ops : List Opcode}
    {fault : Fault} (h : c.performAll ops = (.error fault, c')) :
    ∃ before op state, c.StopsAt ops before op state fault := by
  induction ops generalizing c with
  | nil => cases h
  | cons op rest ih =>
      rw [performAll_cons] at h
      rcases hOp : c.perform op with ⟨fault' | _, next⟩
      · rw [hOp] at h
        cases h
        exact ⟨[], op, c, List.prefix_append [op] rest, rfl, by rw [hOp]⟩
      · rw [hOp] at h
        obtain ⟨before, stop, state, hPlace, hReached, hRefused⟩ := ih h
        refine ⟨op :: before, stop, state, ?_, ?_, hRefused⟩
        · exact (List.prefix_cons_inj op).mpr hPlace
        · rw [performAll_cons, hOp]
          exact hReached

namespace Folder
variable {f f' : Folder} {op : Opcode} {ops done : List Opcode} {standIn : Float}
  {waiting : List Float} {covered : List Element} {r : Registers}

/-- What folding does to the first part of some opcodes does not depend on the second part. -/
theorem exists_steps_of_append {first second : List Opcode}
    (h : f.steps (first ++ second) = .ok f') :
    ∃ middle, f.steps first = .ok middle ∧ middle.steps second = .ok f' := by
  induction first generalizing f with
  | nil => exact ⟨f, rfl, h⟩
  | cons op rest ih =>
      obtain ⟨next, hStep, hRest⟩ := steps_cons_ok h
      obtain ⟨middle, hMiddle, hSecond⟩ := ih hRest
      refine ⟨middle, ?_, hSecond⟩
      simp only [steps, hStep, hMiddle]

/-- What was emitted is never taken back. -/
theorem emitted_prefix_step (h : f.step op = .ok f') : f.emitted <+: f'.emitted := by
  simp only [step] at h
  split at h
  · cases h
  · split at h <;> cases h
    · exact List.prefix_rfl
    · rw [List.append_assoc]
      exact List.prefix_append _ _

/-- What was emitted stays as it is. -/
theorem emitted_prefix_steps (h : f.steps ops = .ok f') : f.emitted <+: f'.emitted := by
  induction ops generalizing f with
  | nil =>
      cases h
      exact List.prefix_rfl
  | cons op rest ih =>
      obtain ⟨middle, hStep, hRest⟩ := steps_cons_ok h
      exact (emitted_prefix_step hStep).trans (ih hRest)

/-- The emitted opcodes, and behind them those that push the elements above the bound. -/
def flushed (f : Folder) : List Opcode :=
  f.emitted ++ (f.replay.above f.bound).map Element.toOpcode

/-- On an empty stack the original opcodes lead to `m` and the emitted ones to `m'`. The latter has
the lowest elements of the former, as many as the bound says, and the same registers. The elements
of the former above them are those of the replay. -/
structure Rebuilds (f : Folder) (r : Registers) (done : List Opcode) (m m' : Machine) : Prop where
  original : (Context.fresh r).performAll done = (.ok (), m)
  emitted : (Context.fresh r).performAll f.emitted = (.ok (), m')
  depth : m.depth = f.replay.depth
  lowest : m'.stack.reverse = m.stack.reverse.take f.bound
  registers : m'.store = m.store
  above : m.above f.bound = f.replay.above f.bound

namespace Splits

theorem above_eq (h : f.Splits waiting covered) :
    f.replay.above f.bound = (waiting.map Element.literal).reverse := by
  rw [Context.above, h.stack, h.bound, List.reverse_append, List.drop_left' List.length_reverse]

/-- Flushing writes the waiting numbers behind what was emitted. -/
theorem flushed_eq (h : f.Splits waiting covered) : f.flushed = f.written waiting := by
  rw [flushed, h.above_eq, map_toOpcode_reverse, written]

theorem literal_of_bound_le (h : f.Splits waiting covered) {i : Nat} {e : Element}
    (hBound : f.bound ≤ i) (hElement : f.replay.stack.reverse[i]? = some e) :
    ∃ x, e = .literal x := by
  obtain ⟨k, rfl⟩ := Nat.exists_eq_add_of_le hBound
  rw [← List.getElem?_drop] at hElement
  have hMem : e ∈ f.replay.above f.bound := List.mem_of_getElem? hElement
  rw [h.above_eq, List.mem_reverse] at hMem
  obtain ⟨x, -, rfl⟩ := List.mem_map.mp hMem
  exact ⟨x, rfl⟩

theorem reference_below_bound (h : f.Splits waiting covered) (hBound : 0 < f.bound) :
    ∃ name, f.replay.stack.reverse[f.bound - 1]? = some (.reference name) := by
  rw [h.bound] at hBound ⊢
  rw [h.stack, List.reverse_append]
  cases covered with
  | nil => cases hBound
  | cons e rest =>
      have hElement : ((e :: rest).reverse ++ (waiting.map Element.literal).reverse)[
          (e :: rest).length - 1]? = some e := by
        simp
      rw [hElement]
      cases e with
      | literal x => cases h.top _ rfl
      | reference name => exact ⟨name, rfl⟩

/-- A machine that has what is covered, and above it the numbers that wait, is rebuilt as far as it
is covered. -/
theorem rebuilds (h : f.Splits waiting covered) {real : List Element} {r' : Registers}
    (hDescribes : Describes covered real)
    (hEmitted : (Context.fresh r).performAll f.emitted = (.ok (), ⟨real, r'⟩))
    (hDone : (Context.fresh r).performAll done = (.ok (), ⟨waiting.map .literal ++ real, r'⟩)) :
    f.Rebuilds r done ⟨waiting.map .literal ++ real, r'⟩ ⟨real, r'⟩ := by
  have hBound : real.reverse.length = f.bound := by
    rw [List.length_reverse, h.bound, hDescribes.length_eq]
  refine ⟨hDone, hEmitted, ?_, ?_, rfl, ?_⟩
  · simp only [Context.depth, h.stack, List.length_append, hDescribes.length_eq]
  · rw [List.reverse_append, List.take_left' hBound]
  · rw [h.above_eq, Context.above, List.reverse_append, List.drop_left' hBound]

end Splits

/-- The opcode at which the original ones stop on a machine has been kept. Those emitted before it
are what folding the original ones before it has come to, and they lead to the same state. -/
theorem exists_stopsAt_emitted {before : List Opcode} {m : Machine} {fault : Fault}
    (hSteps : (Folder.start standIn).steps done = .ok f)
    (hStops : (Context.fresh r).StopsAt done before op m fault) :
    ∃ g, (Folder.start standIn).steps before = .ok g ∧
      (Context.fresh r).StopsAt f.emitted g.flushed op m fault := by
  obtain ⟨⟨after, rfl⟩, hReached, hRefused⟩ := hStops
  rw [List.append_assoc, List.singleton_append] at hSteps
  obtain ⟨g, hBefore, hRest⟩ := exists_steps_of_append hSteps
  obtain ⟨next, hStep, hAfter⟩ := steps_cons_ok hRest
  obtain ⟨waiting, covered, hTracks⟩ := (Tracks.start standIn (Context.fresh r)).steps hBefore
  rw [List.nil_append] at hTracks
  refine ⟨g, hBefore, ?_⟩
  rcases hTracks.runs with ⟨real, r', -, hEmitted, hOriginal⟩ | ⟨m', -, hOriginal⟩
  · rw [hReached] at hOriginal
    cases hOriginal
    rcases hTracks.splits.step_cases hStep with ⟨waiting', hAbsorbs, -, -⟩ | ⟨covered', -, -, hKept⟩
    · -- An opcode that is not kept meets no fault on a machine.
      rw [Machine.perform_of_absorbs hAbsorbs] at hRefused
      cases hRefused
    · rw [hTracks.splits.flushed_eq]
      refine ⟨?_, Tracks.performAll_waiting hEmitted, hRefused⟩
      have hMore := emitted_prefix_steps hAfter
      rwa [hKept] at hMore
  · rw [hReached] at hOriginal
    cases hOriginal

end Folder

/-- The loop invariant of folding. It holds after any opcodes that are replayed without a fault,
whatever follows them: the bound is no higher than the stack of the replay, every element at the
bound or above it is a number, the element right below it is not, and no access to a register is
noted. On an empty stack over any registers, the opcodes emitted so far rebuild the elements below
the bound and the registers, and the other elements are the numbers of the replay; or they stop, and
then at the opcode at which the original ones stop. -/
theorem folding_invariant {standIn : Float} {done : List Opcode} {f : Folder}
    (h : (Folder.start standIn).steps done = .ok f) :
    f.bound ≤ f.replay.depth ∧
      (∀ i e, f.bound ≤ i → f.replay.stack.reverse[i]? = some e → ∃ x, e = .literal x) ∧
      (0 < f.bound → ∃ name, f.replay.stack.reverse[f.bound - 1]? = some (.reference name)) ∧
      f.replay.store.touched = false ∧
      ∀ r : Registers,
        (∃ m m', f.Rebuilds r done m m') ∨
        ∃ before op m fault g, (Folder.start standIn).steps before = .ok g ∧
          (Context.fresh r).StopsAt done before op m fault ∧
          (Context.fresh r).StopsAt f.emitted g.flushed op m fault := by
  obtain ⟨⟨waiting, covered, hSplits⟩, -⟩ :=
    (Folder.splits_start standIn).height?_steps rfl h
  refine ⟨?_, fun _ _ => hSplits.literal_of_bound_le, hSplits.reference_below_bound,
    hSplits.untouched, ?_⟩
  · rw [hSplits.depth_eq]
    exact Nat.le_add_right f.bound waiting.length
  intro r
  obtain ⟨waiting, covered, hTracks⟩ := (Folder.Tracks.start standIn (Context.fresh r)).steps h
  rw [List.nil_append] at hTracks
  rcases hTracks.runs with ⟨real, r', hDescribes, hEmitted, hDone⟩ | ⟨m', -, hDone⟩
  · simp only [Context.fresh, List.append_nil] at hEmitted hDone
    exact .inl ⟨_, _, hTracks.splits.rebuilds hDescribes hEmitted hDone⟩
  · obtain ⟨before, op, m, hStops⟩ := Context.exists_stopsAt hDone
    obtain ⟨g, hBefore, hEmitted⟩ := Folder.exists_stopsAt_emitted h hStops
    exact .inr ⟨before, op, m, _, g, hBefore, hStops, hEmitted⟩

/-- The second assignment has a target that is no register. Folding goes on, with a number above the
bound and a placeholder below it; on a machine the original opcodes and the emitted ones stop. -/
theorem folding_invariant_of_assigned_target :
    let done : List Opcode := [.identifier "a", .number 2, .number 3,
      .operator (.arithmetic .multiply), .operator .assign, .number 4, .operator .assign, .number 5]
    ∃ f, (Folder.start registerStandIn).steps done = .ok f ∧ f.bound = 1 ∧ f.replay.depth = 2 ∧
      f.replay.store.touched = false ∧ ∃ before op m fault g,
        (Folder.start registerStandIn).steps before = .ok g ∧
        (Context.fresh Registers.empty).StopsAt done before op m fault ∧
        (Context.fresh Registers.empty).StopsAt f.emitted g.flushed op m fault := by
  intro done
  obtain ⟨f, hSteps, hBound, hDepth⟩ : ∃ f, (Folder.start registerStandIn).steps done = .ok f ∧
      f.bound = 1 ∧ f.replay.depth = 2 := ⟨_, rfl, rfl, rfl⟩
  obtain ⟨-, -, -, hUntouched, hRuns⟩ := folding_invariant hSteps
  refine ⟨f, hSteps, hBound, hDepth, hUntouched, (hRuns .empty).resolve_left ?_⟩
  rintro ⟨m, m', hRebuilds⟩
  cases hRebuilds.original

end StackCalc
