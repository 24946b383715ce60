import StackCalc.Proofs.Machine

/-! What an opcode does in a replay, and what that says about a machine. A replay knows of every
element whether it is a number that depends on no register, and then it is the number that the
machine has in its place. The value that registers seem to have shows in no outcome. -/
namespace StackCalc

namespace Replay

/-- A replay in which no register was touched since the last element came onto the stack. -/
def settled (standIn : Float) (stack : List Element) : Replay := ⟨stack, ⟨standIn, false⟩⟩

/-- All that an opcode can do in a settled replay without a fault. -/
inductive Performs : List Element → Opcode → List Element → Prop where
  | number {stack : List Element} {payload : Payload} {x : Float}
      (value : payload.toNumber = .ok x) :
      Performs stack ⟨.number, payload⟩ (.literal x :: stack)
  | identifier (stack : List Element) (payload : Payload) :
      Performs stack ⟨.identifier, payload⟩ (.reference payload :: stack)
  /-- What is assigned depends on a register from now on, even if it is a number. -/
  | assign (value : Element) (name : Name) (rest : List Element) (payload : Payload) :
      Performs (value :: .reference name :: rest) ⟨.assign, payload⟩ (placeholder :: rest)
  | calculate (a : Arithmetic) (x y : Float) (rest : List Element) (payload : Payload) :
      Performs (.literal y :: .literal x :: rest) ⟨.arithmetic a, payload⟩
        (.literal (a.apply x y) :: rest)
  /-- Arithmetic with an operand that depends on a register. -/
  | depend {left right : Element} (a : Arithmetic) (rest : List Element) (payload : Payload)
      (h : (left.isLiteral && right.isLiteral) = false) :
      Performs (right :: left :: rest) ⟨.arithmetic a, payload⟩ (placeholder :: rest)

/-- Arithmetic in a settled replay gives a number for two numbers and else a placeholder. -/
theorem calculate_settled (standIn : Float) (left right : Element) (rest : List Element)
    (a : Arithmetic) :
    (settled standIn (right :: left :: rest)).calculate a =
      (.ok (), settled standIn
        (match left, right with
        | .literal x, .literal y => .literal (a.apply x y) :: rest
        | _, _ => placeholder :: rest)) := by
  cases left <;> cases right <;> rfl

/-- An assignment leaves a placeholder, for a value that only the run knows. -/
theorem assign_settled (standIn : Float) (value : Element) (name : Name) (rest : List Element) :
    (settled standIn (value :: .reference name :: rest)).assign =
      (.ok (), settled standIn (placeholder :: rest)) := by
  cases value <;> rfl

theorem assign_settled_literal (standIn : Float) (value : Element) (x : Float)
    (rest : List Element) :
    ((settled standIn (value :: .literal x :: rest)).assign).1 = .error .notAssignable := by
  cases value <;> rfl

/-- In a settled replay an opcode does what `Performs` lists, and the replay is settled again. -/
theorem performs_of_perform {standIn : Float} {stack : List Element} {op : Opcode} {c : Replay}
    (h : (settled standIn stack).perform op = (.ok (), c)) :
    ∃ stack', Performs stack op stack' ∧ c = settled standIn stack' := by
  rcases op with ⟨kind, payload⟩
  rcases kind with _ | _ | (op | _ | _)
  · -- A number.
    simp only [Context.perform] at h
    split at h
    · rename_i x hNumber
      cases h
      exact ⟨_, .number hNumber, rfl⟩
    · cases h
  · cases h
    exact ⟨_, .identifier stack payload, rfl⟩
  · -- An operator.
    rcases short_or_operands stack with hShort | ⟨right, left, rest, rfl⟩
    · have hFault :=
        Context.perform_operator_of_short (c := settled standIn stack) hShort op payload
      rw [h] at hFault
      cases hFault
    · cases op with
      | arithmetic a =>
          change (settled standIn (right :: left :: rest)).calculate a = _ at h
          rw [calculate_settled] at h
          cases h
          cases left <;> cases right
          · exact ⟨_, .calculate a _ _ rest payload, rfl⟩
          all_goals exact ⟨_, .depend a rest payload rfl, rfl⟩
      | assign =>
          change (settled standIn (right :: left :: rest)).assign = _ at h
          cases left with
          | literal x =>
              have hFault := assign_settled_literal standIn right x rest
              rw [h] at hFault
              cases hFault
          | reference name =>
              rw [assign_settled] at h
              cases h
              exact ⟨_, .assign right name rest payload, rfl⟩
  · cases h
  · cases h

end Replay

/-- The stack of a replay says of a stack what it can: a number is the number in its place, and of
anything else it says only that it is there. -/
inductive Describes : List Element → List Element → Prop where
  | nil : Describes [] []
  | literal {symbolic real : List Element} (x : Float) (rest : Describes symbolic real) :
      Describes (.literal x :: symbolic) (.literal x :: real)
  | reference {symbolic real : List Element} (name : Name) (e : Element)
      (rest : Describes symbolic real) : Describes (.reference name :: symbolic) (e :: real)

namespace Describes

/-- A description is as high as the stack it describes. -/
theorem length_eq {symbolic real : List Element} (h : Describes symbolic real) :
    symbolic.length = real.length := by
  induction h with
  | nil => rfl
  | literal x _ ih => rw [List.length_cons, List.length_cons, ih]
  | reference name e _ ih => rw [List.length_cons, List.length_cons, ih]

theorem append_literals {symbolic real : List Element} (h : Describes symbolic real)
    (xs : List Float) :
    Describes (xs.map .literal ++ symbolic) (xs.map .literal ++ real) := by
  induction xs with
  | nil => exact h
  | cons x xs ih => exact .literal x ih

/-- What lies under the topmost element is described too. -/
theorem tail {e : Element} {symbolic real : List Element} (h : Describes (e :: symbolic) real) :
    ∃ e' real', real = e' :: real' ∧ Describes symbolic real' := by
  cases h with
  | literal x rest => exact ⟨_, _, rfl, rest⟩
  | reference name e rest => exact ⟨e, _, rfl, rest⟩

end Describes

namespace Machine

/-- A machine follows a replay: what an opcode does in the replay describes what it does to the
machine, except that the machine may refuse to assign. The elements below stay as they are. -/
theorem perform_of_performs {symbolic symbolic' real : List Element} {op : Opcode}
    (hPerforms : Replay.Performs symbolic op symbolic') (hDescribes : Describes symbolic real)
    (base : List Element) (r : Registers) :
    (∃ real' r', Context.perform ⟨real ++ base, r⟩ op = (.ok (), ⟨real' ++ base, r'⟩) ∧
      Describes symbolic' real') ∨
    ∃ m, Context.perform ⟨real ++ base, r⟩ op = (.error .notAssignable, m) := by
  cases hPerforms with
  | number value =>
      rename_i payload x
      refine .inl ⟨.literal x :: real, r, ?_, .literal x hDescribes⟩
      simp only [Context.perform, value]
      rfl
  | identifier _ payload =>
      exact .inl ⟨.reference payload :: real, r, rfl, .reference payload _ hDescribes⟩
  | assign value name rest payload =>
      obtain ⟨v, _, rfl, hUnder⟩ := hDescribes.tail
      obtain ⟨target, under, rfl, hRest⟩ := hUnder.tail
      cases target with
      | literal x => exact .inr ⟨_, assign_literal v x (under ++ base) r⟩
      | reference n =>
          exact .inl ⟨_ :: under, _, assign_reference v n (under ++ base) r, .reference _ _ hRest⟩
  | calculate a x y rest payload =>
      cases hDescribes with
      | literal _ hUnder =>
          cases hUnder with
          | @literal _ under _ hRest =>
              exact .inl ⟨_ :: under, r,
                calculate_cons (.literal y) (.literal x) (under ++ base) r a, .literal _ hRest⟩
  | depend a rest payload _ =>
      obtain ⟨right, _, rfl, hUnder⟩ := hDescribes.tail
      obtain ⟨left, under, rfl, hRest⟩ := hUnder.tail
      exact .inl ⟨_ :: under, r, calculate_cons right left (under ++ base) r a,
        .reference _ _ hRest⟩

/-- A fault in a replay is the same fault in a machine, unless it only lacks operands that the
machine has from before. -/
theorem perform_error_of_replay {standIn : Float} {symbolic real : List Element} {op : Opcode}
    {fault : Fault} (hFault : ((Replay.settled standIn symbolic).perform op).1 = .error fault)
    (hDescribes : Describes symbolic real) {base : List Element}
    (hBase : fault = .underflow → base = []) (r : Registers) :
    (Context.perform ⟨real ++ base, r⟩ op).1 = .error fault := by
  rcases op with ⟨kind, payload⟩
  rcases kind with _ | _ | (op | _ | _)
  · simp only [Context.perform] at hFault ⊢
    cases hNumber : payload.toNumber with
    | ok x =>
        rw [hNumber] at hFault
        cases hFault
    | error fault' =>
        rw [hNumber] at hFault
        exact hFault
  · cases hFault
  · rcases short_or_operands symbolic with hShort | ⟨right, left, rest, rfl⟩
    · have hReplay := Context.perform_operator_of_short (c := Replay.settled standIn symbolic)
        hShort op payload
      rw [hReplay] at hFault
      cases hFault
      obtain rfl := hBase rfl
      have hReal : (real ++ []).length < 2 := by
        rw [List.append_nil, ← hDescribes.length_eq]
        exact hShort
      rw [Context.perform_operator_of_short hReal]
    · cases op with
      | arithmetic a =>
          change ((Replay.settled standIn (right :: left :: rest)).calculate a).1 = _ at hFault
          rw [Replay.calculate_settled] at hFault
          cases hFault
      | assign =>
          change ((Replay.settled standIn (right :: left :: rest)).assign).1 = _ at hFault
          cases left with
          | literal x =>
              rw [Replay.assign_settled_literal] at hFault
              cases hFault
              obtain ⟨value, _, rfl, hUnder⟩ := hDescribes.tail
              cases hUnder with
              | @literal _ under _ hRest =>
                  change (Context.assign ⟨value :: .literal x :: (under ++ base), r⟩).1 = _
                  rw [assign_literal]
          | reference name =>
              rw [Replay.assign_settled] at hFault
              cases hFault
  · exact hFault
  · exact hFault

end Machine

end StackCalc
