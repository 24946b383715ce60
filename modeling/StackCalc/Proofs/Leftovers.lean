import StackCalc.Proofs.Balance
import StackCalc.Session

/-! What lies on the stack of a context between two steps of a session. A failing run leaves
operands there, and nothing ever removes them. They show in no answer: a session goes on as if every
program ran on an empty stack. -/
namespace StackCalc.Session

def registers? (s : Session) (c : String) : Option Registers :=
  (s.contexts.lookup c).map Context.store

/-- Storing a machine changes the registers of its own context only. -/
theorem registers?_putContext (s : Session) (c d : String) (m : Machine) :
    (s.putContext c m).registers? d = if d = c then some m.store else s.registers? d := by
  simp only [registers?, putContext, lookup_entry]
  split <;> rfl

def emptied (s : Session) (c : String) : Session :=
  match s.contexts.lookup c with
  | none => s
  | some m => s.putContext c (.fresh m.store)

/-- Does one step; a program runs on an empty stack. -/
def cleanStep (s : Session) (step : Step) : Except Failure Answer × Session :=
  match step with
  | .execute _ (some c) => (s.emptied c).step step
  | _ => s.step step

/-- Does steps in order, with an empty stack for every program that runs. -/
def cleanSteps (s : Session) : List Step → List (Except Failure Answer) × Session
  | [] => ([], s)
  | first :: rest =>
    let (answer, s') := s.cleanStep first
    let (answers, s'') := s'.cleanSteps rest
    (answer :: answers, s'')

/-- Sessions with the same programs whose contexts have the same registers. -/
structure Alike (s s' : Session) : Prop where
  programs : s.programs = s'.programs
  registers : ∀ c, s.registers? c = s'.registers? c

namespace Alike
variable {s s' s'' : Session}

theorem refl (s : Session) : Alike s s := ⟨rfl, fun _ => rfl⟩

theorem trans (h : Alike s s') (h' : Alike s' s'') : Alike s s'' :=
  ⟨h.programs.trans h'.programs, fun c => (h.registers c).trans (h'.registers c)⟩

/-- Storing machines with one store under one name keeps sessions alike. -/
theorem putContext (h : Alike s s') (c : String) {m m' : Machine} (hStore : m.store = m'.store) :
    Alike (s.putContext c m) (s'.putContext c m') where
  programs := h.programs
  registers d := by
    rw [registers?_putContext, registers?_putContext, hStore, h.registers d]

/-- Storing one program under one name keeps sessions alike. -/
theorem putProgram (h : Alike s s') (name : String) (p : Program) :
    Alike (s.putProgram name p) (s'.putProgram name p) where
  programs := congrArg ((name, p) :: ·) h.programs
  registers := h.registers

/-- Emptying a stack cannot be seen in the registers. -/
theorem emptied (s : Session) (c : String) : Alike s (s.emptied c) := by
  unfold Session.emptied
  split
  · exact refl s
  · rename_i m hContext
    refine ⟨rfl, fun d => ?_⟩
    rw [registers?_putContext]
    split
    · rename_i hName
      rw [hName, registers?, hContext]
      rfl
    · rfl

/-- A context is there in both sessions or in none, and its registers are the same. -/
theorem context_cases (h : Alike s s') (c : String) :
    (s.contexts.lookup c = none ∧ s'.contexts.lookup c = none) ∨
      ∃ stack stack' r, s.contexts.lookup c = some ⟨stack, r⟩ ∧
        s'.contexts.lookup c = some ⟨stack', r⟩ := by
  have hStores := h.registers c
  simp only [registers?] at hStores
  rcases hLeft : s.contexts.lookup c with _ | ⟨stack, r⟩ <;>
    rcases hRight : s'.contexts.lookup c with _ | ⟨stack', r'⟩ <;>
    rw [hLeft, hRight] at hStores <;> cases hStores
  · exact .inl ⟨rfl, rfl⟩
  · exact .inr ⟨stack, stack', r, rfl, rfl⟩

end Alike

/-- The same answer, and sessions that are alike. -/
def Agree (a b : Except Failure Answer × Session) : Prop :=
  a.1 = b.1 ∧ Alike a.2 b.2

/-- Work on a machine that depends on its registers only. -/
def Blind (work : Machine → Except Failure Answer × Machine) : Prop :=
  ∀ (stack stack' : List Element) (r : Registers),
    (work ⟨stack, r⟩).1 = (work ⟨stack', r⟩).1 ∧
      (work ⟨stack, r⟩).2.store = (work ⟨stack', r⟩).2.store

/-- A balanced program does not look at what lies on the stack below it. -/
theorem blind_run {p : Program} (h : p.Balanced) : Blind (run p) := by
  intro stack stack' r
  have hSame : (⟨stack, r⟩ : Machine).store = (⟨stack', r⟩ : Machine).store := rfl
  obtain ⟨hOutcome, hStore⟩ := h.execute_of_store hSame
  simp only [run]
  generalize p.execute ⟨stack, r⟩ = left at hOutcome hStore ⊢
  generalize p.execute ⟨stack', r⟩ = right at hOutcome hStore ⊢
  rcases left with ⟨fault | x, m⟩ <;> rcases right with ⟨fault' | x', m'⟩ <;> cases hOutcome <;>
    exact ⟨rfl, hStore⟩

def Balanced (s : Session) : Prop :=
  ∀ name p, s.programs.lookup name = some p → p.Balanced

/-- Blind work on one context of alike sessions has one answer and leaves them alike. -/
theorem Alike.onContext {s s' : Session} (h : Alike s s') (c : String)
    {work : Machine → Except Failure Answer × Machine} (hWork : Blind work) :
    Agree (s.onContext c work) (s'.onContext c work) := by
  simp only [Session.onContext]
  rcases h.context_cases c with ⟨hLeft, hRight⟩ | ⟨stack, stack', r, hLeft, hRight⟩
  · rw [hLeft, hRight]
    exact ⟨rfl, h⟩
  · rw [hLeft, hRight]
    obtain ⟨hAnswer, hStore⟩ := hWork stack stack' r
    exact ⟨hAnswer, h.putContext c hStore⟩

/-- Alike sessions find the same program under a name. -/
theorem Alike.withProgram {s s' : Session} (h : Alike s s') (name : String)
    {work work' : Program → Except Failure Answer × Session}
    (hWork : ∀ p, s.programs.lookup name = some p → Agree (work p) (work' p)) :
    Agree (s.withProgram name work) (s'.withProgram name work') := by
  simp only [Session.withProgram, ← h.programs]
  cases hProgram : s.programs.lookup name with
  | none => exact ⟨rfl, h⟩
  | some p => exact hWork p hProgram

/-- A step gives the same answer in sessions that are alike, and leaves them alike. -/
theorem Alike.step {s s' : Session} (h : Alike s s') (hBalanced : s.Balanced) (step : Step) :
    Agree (s.step step) (s'.step step) := by
  cases step with
  | newContext c => exact ⟨rfl, h.putContext c rfl⟩
  | compile name source =>
      simp only [Session.step]
      cases Program.ofSource source with
      | error e => exact ⟨rfl, h⟩
      | ok p => exact ⟨rfl, h.putProgram name p⟩
  | optimize name target =>
      refine h.withProgram name fun p _ => ?_
      cases p.folded? with
      | error fault => exact ⟨rfl, h⟩
      | ok folded => exact ⟨rfl, h.putProgram target _⟩
  | list name => exact h.withProgram name fun p _ => ⟨rfl, h⟩
  | execute name context =>
      refine h.withProgram name fun p hProgram => ?_
      cases context with
      | none => exact ⟨rfl, h⟩
      | some c => exact h.onContext c (blind_run (hBalanced name p hProgram))
  | get c name => exact h.onContext c fun _ _ _ => ⟨rfl, rfl⟩
  | set c name value => exact h.onContext c fun _ _ _ => ⟨rfl, rfl⟩
  | setAll c values => exact h.onContext c fun _ _ _ => ⟨rfl, rfl⟩
  | clear c => exact h.onContext c fun _ _ _ => ⟨rfl, rfl⟩
  | merge c target =>
      simp only [Session.step]
      rcases h.context_cases c with ⟨hLeft, hRight⟩ | ⟨stack, stack', r, hLeft, hRight⟩
      · rw [hLeft, hRight]
        exact ⟨rfl, h⟩
      · rw [hLeft, hRight]
        exact h.onContext target fun _ _ _ => ⟨rfl, rfl⟩
  | describe c => exact h.onContext c fun _ _ _ => ⟨rfl, rfl⟩
  | copyAndSet c name value =>
      refine h.onContext c fun _ _ r => ?_
      dsimp only
      rcases r.giveAll [(.text name, value)] with ⟨fault | _, copy⟩ <;> exact ⟨rfl, rfl⟩

/-- The step lemma: a step and a step from an emptied stack answer alike. -/
theorem Alike.cleanStep {s s' : Session} (h : Alike s s') (hBalanced : s.Balanced) (step : Step) :
    Agree (s.step step) (s'.cleanStep step) := by
  unfold Session.cleanStep
  split
  · exact (h.trans (Alike.emptied s' _)).step hBalanced _
  · exact h.step hBalanced step

namespace Balanced
variable {s : Session}

theorem putProgram (h : s.Balanced) (name : String) {p : Program} (hp : p.Balanced) :
    (s.putProgram name p).Balanced := by
  intro other q hProgram
  rw [Session.putProgram, lookup_entry] at hProgram
  split at hProgram
  · cases hProgram
    exact hp
  · exact h other q hProgram

theorem onContext (h : s.Balanced) (c : String)
    (work : Machine → Except Failure Answer × Machine) : (s.onContext c work).2.Balanced := by
  unfold Session.onContext
  split <;> exact h

theorem withProgram (h : s.Balanced) (name : String)
    {work : Program → Except Failure Answer × Session}
    (hWork : ∀ p, p.Balanced → (work p).2.Balanced) : (s.withProgram name work).2.Balanced := by
  unfold Session.withProgram
  split
  · exact h
  · rename_i p hProgram
    exact hWork p (h name p hProgram)

/-- Programs come from sources and from folding only. -/
theorem step (h : s.Balanced) (step : Step) : (s.step step).2.Balanced := by
  cases step with
  | newContext c => exact h
  | compile name source =>
      simp only [Session.step]
      cases hSource : Program.ofSource source with
      | error e => exact h
      | ok p => exact h.putProgram name (Program.balanced_of_ofSource hSource)
  | optimize name target =>
      refine h.withProgram name fun p hp => ?_
      cases hFolded : p.folded? with
      | error fault => exact h
      | ok folded =>
          have hOptimize : p.optimize = .ok (folded.getD p) := by
            rw [Program.optimize, hFolded]
            rfl
          exact h.putProgram target (hp.optimize hOptimize)
  | list name => exact h.withProgram name fun _ _ => h
  | execute name context =>
      refine h.withProgram name fun p _ => ?_
      cases context with
      | none => exact h
      | some c => exact h.onContext c (run p)
  | get c | set c | setAll c | clear c | describe c | copyAndSet c => exact h.onContext c _
  | merge c target =>
      simp only [Session.step]
      split
      · exact h
      · exact h.onContext target _

end Balanced

/-- Sessions that are alike answer all steps alike, also if one of them empties a stack whenever a
program runs on it. -/
theorem Alike.steps {s s' : Session} (h : Alike s s') (hBalanced : s.Balanced)
    (steps : List Step) :
    (s.steps steps).1 = (s'.cleanSteps steps).1 ∧
      Alike (s.steps steps).2 (s'.cleanSteps steps).2 := by
  induction steps generalizing s s' with
  | nil => exact ⟨rfl, h⟩
  | cons first rest ih =>
      obtain ⟨hAnswer, hAlike⟩ := h.cleanStep hBalanced first
      obtain ⟨hAnswers, hLast⟩ := ih hAlike (hBalanced.step first)
      exact ⟨List.cons_eq_cons.mpr ⟨hAnswer, hAnswers⟩, hLast⟩

/-- All programs of a session stay balanced, step after step. -/
theorem Balanced.steps {s : Session} (h : s.Balanced) (steps : List Step) :
    (s.steps steps).2.Balanced := by
  induction steps generalizing s with
  | nil => exact h
  | cons first rest ih => exact ih (h.step first)

/-- A balanced program leaves the stack below it as it was. -/
theorem stack_suffix_run {p : Program} (h : p.Balanced) (m : Machine) :
    m.stack <:+ (run p m).2.stack := by
  have hRun := Program.execute_of_balanced h m.stack m.store
  simp only [run, hRun]
  rcases p.execute (Context.fresh m.store) with ⟨fault | x, m'⟩ <;> exact ⟨m'.stack, rfl⟩

/-- Running a program leaves what is on the stacks of all contexts, in place. -/
theorem Balanced.stack_suffix {s : Session} (h : s.Balanced) {c : String} {m : Machine}
    (hContext : s.contexts.lookup c = some m) (program : String) (context : Option String) :
    ∃ m', (s.step (.execute program context)).2.contexts.lookup c = some m' ∧
      m.stack <:+ m'.stack := by
  have hSame : ∃ m', s.contexts.lookup c = some m' ∧ m.stack <:+ m'.stack :=
    ⟨m, hContext, List.suffix_rfl⟩
  simp only [Session.step, Session.withProgram]
  cases hProgram : s.programs.lookup program with
  | none => exact hSame
  | some p =>
      cases context with
      | none => exact hSame
      | some d =>
          simp only [Session.onContext]
          cases hMachine : s.contexts.lookup d with
          | none => exact hSame
          | some m₁ =>
              simp only [Session.putContext, lookup_entry]
              split
              · rename_i hName
                rw [← hName, hContext] at hMachine
                cases hMachine
                exact ⟨_, rfl, stack_suffix_run (h program p hProgram) m⟩
              · exact hSame

/-- What earlier runs have left on the stacks shows in no answer and in no register: a session goes
as one in which every program runs on an empty stack. Whether a program succeeds or fails, it leaves
the elements that were on a stack before at the bottom of it, in their order. -/
theorem leftovers_never_show (steps : List Step) :
    (empty.steps steps).1 = (empty.cleanSteps steps).1 ∧
    (∀ c, (empty.steps steps).2.registers? c = (empty.cleanSteps steps).2.registers? c) ∧
    ∀ (program : String) (context : Option String) (c : String) (m : Machine),
      (empty.steps steps).2.contexts.lookup c = some m →
      ∃ m', ((empty.steps steps).2.step (.execute program context)).2.contexts.lookup c = some m' ∧
        m.stack <:+ m'.stack := by
  have hBalanced : empty.Balanced := by
    rintro name p ⟨⟩
  obtain ⟨hAnswers, hAlike⟩ := (Alike.refl empty).steps hBalanced steps
  refine ⟨hAnswers, hAlike.registers, ?_⟩
  intro program context c m hContext
  exact (hBalanced.steps steps).stack_suffix hContext program context

/-- A failing run leaves the left operand of its sum, and the next run puts another one upon it. -/
theorem leftovers_pile_up :
    let session := (empty.steps [.newContext "c", .compile "p" "x + (1 = 2)", .execute "p" "c"]).2
    ∃ m m', session.contexts.lookup "c" = some m ∧ m.stack = [.reference "x"] ∧
      (session.step (.execute "p" "c")).2.contexts.lookup "c" = some m' ∧
      m'.stack = [.reference "x", .reference "x"] ∧ m.stack <:+ m'.stack := by
  let t : Expression := .binary (.arithmetic .add) (.identifier "x")
    (.group (.binary .assign (.number "1") (.number "2")))
  have hSource : Program.ofSource "x + (1 = 2)" = .ok ⟨t.postorder⟩ :=
    Program.ofSource_of_derives (by decide +kernel) (by decide +kernel) (by decide)
  intro session
  have hSession : session.contexts.lookup "c" = some ⟨[.reference "x"], .empty⟩ := by
    simp only [session, steps, step, hSource]
    rfl
  obtain ⟨m', hAfter, hSuffix⟩ :=
    (leftovers_never_show _).2.2 "p" (some "c") "c" _ hSession
  refine ⟨_, m', hSession, rfl, hAfter, ?_, hSuffix⟩
  have hStack : (session.step (.execute "p" "c")).2.contexts.lookup "c" =
      some ⟨[.reference "x", .reference "x"], .empty⟩ := by
    simp only [session, steps, step, hSource]
    rfl
  rw [hAfter] at hStack
  cases hStack
  rfl

end StackCalc.Session
