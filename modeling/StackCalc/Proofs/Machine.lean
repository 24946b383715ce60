import StackCalc.Fold
import StackCalc.Proofs.Basics

/-! What opcodes do to the stack. The first part holds over every store, so for machines and for
replays alike: an operator takes the two topmost elements and puts one in their place, or refuses
to assign. The second part gives the exact effect of every opcode on a machine. -/
namespace StackCalc

/-- The value of an element over real registers. A register that is not set counts as zero. -/
def Registers.value (r : Registers) : Element → Float
  | .literal x => x
  | .reference name => (r.get? name).getD 0

/-- What is found after setting an entry: the new value under the names of one key, and what was
there under the others. -/
theorem find?_setEntry (name other : Name) (x : Float) (entries : List (Name × Float)) :
    ((setEntry name x entries).find? (·.1.key = other.key)).map Prod.snd =
      if other.key = name.key then some x
      else (entries.find? (·.1.key = other.key)).map Prod.snd := by
  induction entries with
  | nil => by_cases hName : name.key = other.key <;> simp [setEntry, hName, Ne.symm]
  | cons entry rest ih =>
      by_cases hEntry : entry.1.key = name.key
      · simp only [setEntry, hEntry, if_true, List.find?_cons]
        by_cases hName : name.key = other.key <;> simp [hName, Ne.symm]
      · simp only [setEntry, hEntry, if_false, List.find?_cons]
        by_cases hOther : entry.1.key = other.key
        · have hName : other.key ≠ name.key := fun hName => hEntry (hOther.trans hName)
          simp [hOther, hName]
        · simp only [hOther, decide_false, ih]

/-- A register that was set has its new value under every name that is equal to its own; all others
have their old one. -/
@[simp] theorem Registers.get?_set (r : Registers) (name other : Name) (x : Float) :
    (r.set name x).get? other = if other.key = name.key then some x else r.get? other :=
  find?_setEntry name other x r.entries

/-- Names of one key find one register. -/
theorem Registers.get?_congr (r : Registers) {name other : Name} (h : name.key = other.key) :
    r.get? name = r.get? other := by
  rw [get?, get?, h]

theorem setEntry_ne_nil (name : Name) (x : Float) (entries : List (Name × Float)) :
    setEntry name x entries ≠ [] := by
  cases entries with
  | nil => simp [setEntry]
  | cons entry rest =>
      simp only [setEntry]
      split <;> simp

/-- A new name goes to the end. -/
theorem setEntry_of_not_mem {name : Name} {entries : List (Name × Float)}
    (h : name.key ∉ (entries.map Prod.fst).map Payload.key) (x : Float) :
    setEntry name x entries = entries ++ [(name, x)] := by
  induction entries with
  | nil => rfl
  | cons entry rest ih =>
      rw [List.map_cons, List.map_cons, List.mem_cons, not_or] at h
      rw [setEntry, if_neg (Ne.symm h.1), ih h.2, List.cons_append]

/-- New names come behind the old ones, in their order. -/
theorem Registers.entries_setAll (r : Registers) {entries : List (Name × Float)}
    (h : (((r.entries ++ entries).map Prod.fst).map Payload.key).Nodup) :
    (r.setAll entries).entries = r.entries ++ entries := by
  induction entries generalizing r with
  | nil => exact (List.append_nil _).symm
  | cons entry rest ih =>
      have hNew : entry.1.key ∉ (r.entries.map Prod.fst).map Payload.key := by
        intro hMem
        rw [List.map_append, List.map_append, List.map_cons, List.map_cons] at h
        exact (List.nodup_append.mp h).2.2 _ hMem _ List.mem_cons_self rfl
      have hSet : (r.set entry.1 entry.2).entries = r.entries ++ [entry] :=
        setEntry_of_not_mem hNew entry.2
      have hRest := ih (r.set entry.1 entry.2)
      rw [hSet, List.append_assoc, List.singleton_append] at hRest
      exact hRest h

theorem Registers.mergeInto_empty (r : Registers) : r.mergeInto .empty = r :=
  Registers.ext (Registers.entries_setAll .empty r.distinct)

/-- A stack either lacks an operand of an operator or has both. -/
theorem short_or_operands (stack : List Element) :
    stack.length < 2 ∨ ∃ right left rest, stack = right :: left :: rest := by
  rcases stack with _ | ⟨right, _ | ⟨left, rest⟩⟩
  · exact .inl (by simp)
  · exact .inl (by simp)
  · exact .inr ⟨right, left, rest, rfl⟩

namespace Context
variable {σ : Type} [Store σ]

/-- The effect of a list of opcodes starts with the effect of its first opcode. -/
theorem performAll_cons (c : Context σ) (op : Opcode) (rest : List Opcode) :
    c.performAll (op :: rest) =
      match c.perform op with
      | (.ok _, c') => c'.performAll rest
      | (.error fault, c') => (.error fault, c') := rfl

@[simp] theorem performAll_singleton (c : Context σ) (op : Opcode) :
    c.performAll [op] = c.perform op := by
  rw [performAll_cons]
  rcases c.perform op with ⟨fault | _, c'⟩ <;> rfl

/-- Opcodes in a row are performed part by part. A fault in the first part leaves the second part
undone, and the context is then the one that the first part left. -/
theorem performAll_append (c : Context σ) (first second : List Opcode) :
    c.performAll (first ++ second) =
      match c.performAll first with
      | (.ok _, c') => c'.performAll second
      | (.error fault, c') => (.error fault, c') := by
  induction first generalizing c with
  | nil => rfl
  | cons op rest ih =>
      simp only [List.cons_append, performAll_cons]
      rcases c.perform op with ⟨fault | _, c'⟩
      · rfl
      · exact ih c'

/-- A first part that succeeds hands its state to the second. -/
theorem performAll_append_of_ok {c c' : Context σ} {first : List Opcode}
    (h : c.performAll first = (.ok (), c')) (second : List Opcode) :
    c.performAll (first ++ second) = c'.performAll second := by
  rw [performAll_append, h]

/-- After a fault nothing else is performed. -/
theorem performAll_append_of_error {c c' : Context σ} {first : List Opcode} {fault : Fault}
    (h : c.performAll first = (.error fault, c')) (second : List Opcode) :
    c.performAll (first ++ second) = (.error fault, c') := by
  rw [performAll_append, h]

/-- A fault of the first part is the fault of the whole. -/
theorem performAll_append_fault {c : Context σ} {first : List Opcode} {fault : Fault}
    (h : (c.performAll first).1 = .error fault) (second : List Opcode) :
    (c.performAll (first ++ second)).1 = .error fault := by
  rcases hFirst : c.performAll first with ⟨outcome, c'⟩
  rw [hFirst] at h
  subst h
  rw [performAll_append_of_error hFirst]

/-- A fault of an opcode is the fault of the program. -/
theorem execute_fault {c : Context σ} {ops : List Opcode} {fault : Fault}
    (h : (c.performAll ops).1 = .error fault) : (c.execute ops).1 = .error fault := by
  rcases hRun : c.performAll ops with ⟨outcome, c'⟩
  rw [hRun] at h
  subst h
  rw [execute, hRun]

/-- Looking a value up leaves the stack alone, whatever it does to the store. -/
@[simp] theorem stack_valueOf (c : Context σ) (e : Element) :
    (c.valueOf e).2.stack = c.stack := by
  cases e <;> rfl

/-- Taking a value removes one element. -/
theorem popValue_of_stack {c : Context σ} {e : Element} {rest : List Element}
    (h : c.stack = e :: rest) :
    ∃ x c', c.popValue = (.ok x, c') ∧ c'.stack = rest := by
  let looked := valueOf { c with stack := rest } e
  refine ⟨looked.1, looked.2, ?_, stack_valueOf { c with stack := rest } e⟩
  simp only [popValue, h, looked]

/-- Arithmetic with two elements at hand always succeeds and leaves one in their place. -/
theorem calculate_of_stack {c : Context σ} {right left : Element} {rest : List Element}
    (h : c.stack = right :: left :: rest) (op : Arithmetic) :
    ∃ e c', c.calculate op = (.ok (), c') ∧ c'.stack = e :: rest := by
  obtain ⟨y, c₁, hRight, hStack₁⟩ := popValue_of_stack h
  obtain ⟨x, c₂, hLeft, hStack₂⟩ := popValue_of_stack hStack₁
  refine ⟨(Store.incoming c₂.store (.literal (op.apply x y))).1,
    c₂.push (.literal (op.apply x y)), ?_, ?_⟩
  · simp only [calculate, hRight, hLeft]
  · simp only [push, hStack₂]

/-- Assignment with two elements at hand leaves one in their place, or it refuses a target that is
no register and leaves neither. -/
theorem assign_of_stack {c : Context σ} {value target : Element} {rest : List Element}
    (h : c.stack = value :: target :: rest) :
    (∃ e c', c.assign = (.ok (), c') ∧ c'.stack = e :: rest) ∨
      ∃ c', c.assign = (.error .notAssignable, c') ∧ c'.stack = rest := by
  obtain ⟨x, c', hValue, hStack⟩ := popValue_of_stack h
  cases target with
  | literal y =>
      refine .inr ⟨{ c' with stack := rest }, ?_, rfl⟩
      simp only [assign, hValue, pop, hStack]
  | reference name =>
      let written := Store.write c'.store name x
      refine .inl ⟨(Store.incoming written (.literal x)).1,
        push ⟨rest, written⟩ (.literal x), ?_, rfl⟩
      simp only [assign, hValue, pop, hStack, written]

/-- An operator with two elements at hand takes both and no more. -/
theorem perform_operator_of_stack {c : Context σ} {right left : Element} {rest : List Element}
    (h : c.stack = right :: left :: rest) (op : Operator) :
    (∃ e c', c.perform (.operator op) = (.ok (), c') ∧ c'.stack = e :: rest) ∨
      ∃ c', c.perform (.operator op) = (.error .notAssignable, c') ∧ c'.stack = rest := by
  cases op with
  | arithmetic a => exact .inl (calculate_of_stack h a)
  | assign => exact assign_of_stack h

/-- An operator that lacks an operand is a fault. It takes what there is. -/
theorem perform_operator_of_short {c : Context σ} (h : c.stack.length < 2) (op : Operator)
    (payload : Payload) :
    c.perform ⟨.symbol (.operator op), payload⟩ = (.error .underflow, c.popValue.2) := by
  rcases c with ⟨_ | ⟨e, _ | ⟨e', rest⟩⟩, store⟩
  · cases op <;> rfl
  · cases op <;> cases e <;> rfl
  · simp only [List.length_cons] at h
    omega

end Context

namespace Machine

@[simp] theorem push_eq (m : Machine) (e : Element) : m.push e = ⟨e :: m.stack, m.store⟩ := rfl

@[simp] theorem popValue_cons (e : Element) (stack : List Element) (r : Registers) :
    Context.popValue ⟨e :: stack, r⟩ = (.ok (r.value e), ⟨stack, r⟩) := by
  cases e <;> rfl

@[simp] theorem perform_number (m : Machine) (x : Float) :
    m.perform (.number x) = (.ok (), ⟨.literal x :: m.stack, m.store⟩) := rfl

/-- Both operands are looked up in the registers as they are when the operator comes. -/
@[simp] theorem calculate_cons (right left : Element) (stack : List Element) (r : Registers)
    (op : Arithmetic) :
    Context.calculate ⟨right :: left :: stack, r⟩ op =
      (.ok (), ⟨.literal (op.apply (r.value left) (r.value right)) :: stack, r⟩) := by
  simp only [Context.calculate, popValue_cons, push_eq]

@[simp] theorem assign_reference (value : Element) (name : Name) (stack : List Element)
    (r : Registers) :
    Context.assign ⟨value :: .reference name :: stack, r⟩ =
      (.ok (), ⟨.literal (r.value value) :: stack, r.set name (r.value value)⟩) := by
  simp only [Context.assign, popValue_cons]
  rfl

/-- A number on the left of an assignment is refused, after both operands are taken. -/
@[simp] theorem assign_literal (value : Element) (x : Float) (stack : List Element)
    (r : Registers) :
    Context.assign ⟨value :: .literal x :: stack, r⟩ = (.error .notAssignable, ⟨stack, r⟩) := by
  simp only [Context.assign, popValue_cons]
  rfl

/-- Numbers in a row come onto the stack in their order, and touch nothing else. -/
theorem performAll_numbers (m : Machine) (xs : List Float) :
    m.performAll (xs.map Opcode.number) =
      (.ok (), ⟨(xs.map Element.literal).reverse ++ m.stack, m.store⟩) := by
  induction xs generalizing m with
  | nil => rfl
  | cons x rest ih =>
      rw [List.map_cons, Context.performAll_cons, perform_number]
      simp only [ih, List.map_cons, List.reverse_cons, List.append_assoc, List.singleton_append]

end Machine

end StackCalc
