import StackCalc.Bench
import StackCalc.Proofs.Leftovers
import StackCalc.Proofs.RegisterNames

/-! Registers set one after the other, and registers copied into others. The last value of a name
counts, and names stand in the order of their first appearance. So copying is a union in which the
source goes before the target: the names of the target keep their places, and the new ones come
behind them in the order of the source. -/
namespace StackCalc

namespace Registers

/-- No two entries of a store are found under one name. -/
theorem nodup_map_key (r : Registers) : (r.entries.map fun entry => entry.1.key).Nodup := by
  have hDistinct := r.distinct
  rwa [List.map_map] at hDistinct

/-- Each entry is found under its own name, as no other entry stands before it there. -/
theorem get?_of_mem {r : Registers} {entry : Name × Float} (h : entry ∈ r.entries) :
    r.get? entry.1 = some entry.2 := by
  rw [get?, find?_key_of_mem r.nodup_map_key h, Option.map_some]

/-- Registers are known by the order of their names and by their values. -/
theorem entries_eq (r : Registers) :
    r.entries = r.names.map fun name => (name, (r.get? name).getD 0) := by
  rw [names, List.map_map]
  refine (List.map_id' r.entries).symm.trans (List.map_congr_left ?_)
  intro entry hEntry
  simp only [Function.comp_apply, get?_of_mem hEntry, Option.getD_some]

/-- Stores with the same names in the same order and the same values are equal. -/
theorem ext_of_names {r r' : Registers} (hNames : r.names = r'.names)
    (hValues : ∀ name, r.get? name = r'.get? name) : r = r' := by
  apply Registers.ext
  rw [r.entries_eq, r'.entries_eq, hNames]
  simp only [hValues]

/-- A name that is given values has the last one; all others have their old one. -/
theorem get?_setAll (r : Registers) (entries : List (Name × Float)) (name : Name) :
    (r.setAll entries).get? name =
      ((entries.reverse.find? (·.1.key = name.key)).map Prod.snd).or (r.get? name) := by
  induction entries generalizing r with
  | nil => rfl
  | cons entry rest ih =>
      have hRest : (r.setAll (entry :: rest)).get? name =
          ((r.set entry.1 entry.2).setAll rest).get? name := rfl
      rw [hRest, ih, List.reverse_cons, List.find?_append, Option.map_or, Option.or_assoc, get?_set,
        List.find?_singleton]
      by_cases hKey : entry.1.key = name.key
      · simp [hKey]
      · simp [hKey, Ne.symm hKey]

/-- The old names keep their places, and the new ones follow in the order of their first appearance.
-/
theorem names_setAll (r : Registers) (entries : List (Name × Float)) :
    (r.setAll entries).names = r.names ++
      ((entries.map Prod.fst).filter (·.key ∉ r.keys)).eraseDupsBy (·.key = ·.key) := by
  induction entries generalizing r with
  | nil => simp [setAll]
  | cons entry rest ih =>
      have hRest : (r.setAll (entry :: rest)).names =
          ((r.set entry.1 entry.2).setAll rest).names := rfl
      rw [hRest, ih, keys, names_set, List.map_cons, List.filter_cons]
      by_cases hOld : entry.1.key ∈ r.keys
      · simp only [hOld, if_true, not_true_eq_false, decide_false, Bool.false_eq_true, if_false]
        rfl
      · have hOthers : (rest.map Prod.fst).filter (·.key ∉ (r.names ++ [entry.1]).map Payload.key) =
            ((rest.map Prod.fst).filter (·.key ∉ r.keys)).filter
              fun name => decide (name.key = entry.1.key) = false := by
          rw [List.filter_filter]
          apply List.filter_congr
          intro name _
          by_cases hName : name.key = entry.1.key <;> simp [hName, keys]
        simp only [hOld, if_false, not_false_eq_true, decide_true, if_true, hOthers,
          List.eraseDupsBy_cons, List.append_assoc, List.singleton_append]

/-- A register that is set to the value that it has does not change. -/
theorem set_of_mem {r : Registers} {entry : Name × Float} (h : entry ∈ r.entries) :
    r.set entry.1 entry.2 = r := by
  have hKnown : entry.1.key ∈ r.keys := List.mem_map_of_mem (List.mem_map_of_mem h)
  apply ext_of_names
  · rw [names_set, if_pos hKnown]
  · intro name
    rw [get?_set]
    split
    · rename_i hKey
      rw [r.get?_congr hKey, get?_of_mem h]
    · rfl

/-- Setting registers to the values they have changes nothing. -/
theorem setAll_of_subset {r : Registers} {entries : List (Name × Float)} (h : entries ⊆ r.entries) :
    r.setAll entries = r := by
  induction entries with
  | nil => rfl
  | cons entry rest ih =>
      obtain ⟨hFirst, hRest⟩ := List.cons_subset.mp h
      have hSet : r.setAll (entry :: rest) = (r.set entry.1 entry.2).setAll rest := rfl
      rw [hSet, set_of_mem hFirst, ih hRest]

/-- Registers that are the union of a source and a target, in which the source decides on values and
the target on names and places. -/
structure IsUnion (source target result : Registers) : Prop where
  values : ∀ name, result.get? name = (source.get? name).or (target.get? name)
  names : result.names = target.names ++ source.names.filter (·.key ∉ target.keys)

/-- A union is determined by the two stores. -/
theorem IsUnion.unique {source target result result' : Registers}
    (h : IsUnion source target result) (h' : IsUnion source target result') : result = result' :=
  ext_of_names (h.names.trans h'.names.symm) fun name => (h.values name).trans (h'.values name).symm

theorem IsUnion.mem_keys_iff {source target result : Registers} (h : IsUnion source target result)
    (name : Name) : name.key ∈ result.keys ↔ name.key ∈ source.keys ∨ name.key ∈ target.keys := by
  have hNone : result.get? name = none ↔ source.get? name = none ∧ target.get? name = none := by
    rw [h.values, Option.or_eq_none_iff]
  simp only [get?_eq_none_iff] at hNone
  rw [← Decidable.not_iff_not, hNone, not_or]

/-- Merging yields the union, in which the merged store wins. -/
theorem isUnion_mergeInto (source target : Registers) :
    IsUnion source target (source.mergeInto target) where
  values name := by
    rw [mergeInto, get?_setAll, find?_key_reverse source.nodup_map_key]
    rfl
  names := by
    have hNew : (source.names.filter (·.key ∉ target.keys)).Pairwise
        fun a b => decide (b.key = a.key) = false := by
      have hDistinct := List.pairwise_map.mp source.distinct
      exact (hDistinct.imp fun hNe => decide_eq_false (Ne.symm hNe)).filter _
    rw [mergeInto, names_setAll]
    exact congrArg (target.names ++ ·) (eraseDupsBy_of_pairwise hNew)

theorem mergeInto_self (r : Registers) : r.mergeInto r = r :=
  setAll_of_subset (List.Subset.refl _)

/-- Copying is associative, order included. -/
theorem mergeInto_assoc (a b c : Registers) :
    (a.mergeInto b).mergeInto c = a.mergeInto (b.mergeInto c) := by
  have hab := isUnion_mergeInto a b
  have hbc := isUnion_mergeInto b c
  have hLeft := isUnion_mergeInto (a.mergeInto b) c
  have hRight := isUnion_mergeInto a (b.mergeInto c)
  apply ext_of_names
  · have hFilter : (a.names.filter (·.key ∉ b.keys)).filter (·.key ∉ c.keys) =
        a.names.filter (·.key ∉ (b.mergeInto c).keys) := by
      rw [List.filter_filter]
      apply List.filter_congr
      intro name _
      simp [hbc.mem_keys_iff, Bool.and_comm]
    rw [hLeft.names, hRight.names, hab.names, hbc.names, List.filter_append, hFilter,
      List.append_assoc]
  · intro name
    rw [hLeft.values, hRight.values, hab.values, hbc.values, Option.or_assoc]

/-- Numbers that fit are handed over one after the other, and none is left out. -/
theorem giveAll_of_real {given : Name × Float → Name × Number.Given}
    (h : ∀ entry, given entry = (entry.1, .real entry.2)) (r : Registers)
    (entries : List (Name × Float)) :
    r.giveAll (entries.map given) = (.ok (), r.setAll entries) := by
  induction entries generalizing r with
  | nil => rfl
  | cons entry rest ih =>
      rw [List.map_cons, h]
      exact ih (r.set entry.1 entry.2)

end Registers

theorem Bench.lookup_put (bench : Bench) (a b : String) (c : AnyContext) :
    (bench.put b c).lookup a = if a = b then some c else bench.lookup a :=
  lookup_entry a (b, c) bench

/-- On a bench the values are handed over like those of a host, and all of them fit. -/
theorem Bench.step_merge {bench : Bench} {a b : String} {ma mb : Machine}
    (ha : bench.lookup a = some (.machine ma)) (hb : bench.lookup b = some (.machine mb)) :
    bench.step (.merge a b) =
      (.ok .done, bench.put b (.machine ⟨mb.stack, ma.store.mergeInto mb.store⟩)) := by
  have hGive := Registers.giveAll_of_real (fun _ => rfl) mb.store ma.store.entries
  simp only [step, ha, on, hb, Option.getD_some, AnyContext.work, acknowledge, Context.giveAll,
    Store.giveAll]
  rw [hGive]
  rfl

namespace Session
variable {s : Session} {a b c : String} {ma mb mc : Machine}

/-- Nothing tells the sessions apart. -/
structure Same (s s' : Session) : Prop where
  contexts : ∀ c, s.contexts.lookup c = s'.contexts.lookup c
  programs : s.programs = s'.programs

theorem lookup_putContext (s : Session) (c d : String) (m : Machine) :
    (s.putContext c m).contexts.lookup d = if d = c then some m else s.contexts.lookup d :=
  lookup_entry d (c, m) s.contexts

/-- Putting a context back as it is changes nothing. -/
theorem same_putContext (h : s.contexts.lookup c = some mc) : (s.putContext c mc).Same s where
  contexts d := by
    rw [lookup_putContext]
    split
    · rename_i hName
      rw [hName, h]
    · rfl
  programs := rfl

/-- Merging answers `done` and changes the store of the second context only. -/
theorem step_merge (ha : s.contexts.lookup a = some ma) (hb : s.contexts.lookup b = some mb) :
    s.step (.merge a b) =
      (.ok .done, s.putContext b ⟨mb.stack, ma.store.mergeInto mb.store⟩) := by
  simp only [step, ha, onContext, hb]

/-- Merging a context into itself does nothing. -/
theorem same_merge_self (h : s.contexts.lookup a = some ma) : (s.step (.merge a a)).2.Same s := by
  rw [step_merge h h, Registers.mergeInto_self]
  exact same_putContext h

/-- Merging a second time does nothing. -/
theorem same_merge_twice (ha : s.contexts.lookup a = some ma)
    (hb : s.contexts.lookup b = some mb) :
    (s.steps [.merge a b, .merge a b]).2.Same (s.step (.merge a b)).2 := by
  simp only [steps, step_merge ha hb]
  generalize hAfter : s.putContext b ⟨mb.stack, ma.store.mergeInto mb.store⟩ = s'
  have hTarget : s'.contexts.lookup b = some ⟨mb.stack, ma.store.mergeInto mb.store⟩ := by
    rw [← hAfter, lookup_putContext, if_pos rfl]
  by_cases hName : a = b
  · subst hName
    exact same_merge_self hTarget
  · have hSource : s'.contexts.lookup a = some ma := by
      rw [← hAfter, lookup_putContext, if_neg hName, ha]
    rw [step_merge hSource hTarget, ← Registers.mergeInto_assoc, Registers.mergeInto_self]
    exact same_putContext hTarget

/-- Copying `a` into `b` and then `b` into `c` leaves in `c` what copying the old `b` and then `a`
into `c` leaves there. -/
theorem lookup_merge_chain (ha : s.contexts.lookup a = some ma) (hb : s.contexts.lookup b = some mb)
    (hc : s.contexts.lookup c = some mc) (hName : a ≠ c) :
    (s.steps [.merge a b, .merge b c]).2.contexts.lookup c =
      (s.steps [.merge b c, .merge a c]).2.contexts.lookup c := by
  simp only [steps, step_merge ha hb, step_merge hb hc]
  generalize hFirst : s.putContext b ⟨mb.stack, ma.store.mergeInto mb.store⟩ = s₁
  generalize hSecond : s.putContext c ⟨mc.stack, mb.store.mergeInto mc.store⟩ = s₂
  have hb₁ : s₁.contexts.lookup b = some ⟨mb.stack, ma.store.mergeInto mb.store⟩ := by
    rw [← hFirst, lookup_putContext, if_pos rfl]
  have ha₂ : s₂.contexts.lookup a = some ma := by
    rw [← hSecond, lookup_putContext, if_neg hName, ha]
  have hc₂ : s₂.contexts.lookup c = some ⟨mc.stack, mb.store.mergeInto mc.store⟩ := by
    rw [← hSecond, lookup_putContext, if_pos rfl]
  rw [step_merge ha₂ hc₂, lookup_putContext, if_pos rfl]
  by_cases hSame : c = b
  · subst hSame
    rw [hb] at hc
    cases hc
    rw [(same_merge_self hb₁).contexts, hb₁, Registers.mergeInto_self]
  · have hc₁ : s₁.contexts.lookup c = some mc := by
      rw [← hFirst, lookup_putContext, if_neg hSame, hc]
    rw [step_merge hb₁ hc₁, lookup_putContext, if_pos rfl, Registers.mergeInto_assoc]

/-- Copying the registers of a context into another always succeeds. Whether the two are the same or
not, the target gets the union of both, with the values of the source and the places of the target,
and nothing else changes; a bench does the same. Copied into itself, a context is at every point on
the way what it was, so it does no harm that it is read and written at once. Copying twice is
copying once. Copying on from `b` to `c` is copying `b` as it was and then `a`, unless `c` is `a`.
-/
theorem merge_unites_registers {s : Session} {a b : String} {ma mb : Machine}
    (ha : s.contexts.lookup a = some ma) (hb : s.contexts.lookup b = some mb) :
    (∃ r, Registers.IsUnion ma.store mb.store r ∧
      (∃ s', s.step (.merge a b) = (.ok .done, s') ∧ s'.programs = s.programs ∧
        s'.contexts.lookup b = some ⟨mb.stack, r⟩ ∧
        ∀ d, d ≠ b → s'.contexts.lookup d = s.contexts.lookup d) ∧
      ∀ bench : Bench, bench.lookup a = some (.machine ma) → bench.lookup b = some (.machine mb) →
        ∃ bench', bench.step (.merge a b) = (.ok .done, bench') ∧
          bench'.lookup b = some (.machine ⟨mb.stack, r⟩) ∧
          ∀ d, d ≠ b → bench'.lookup d = bench.lookup d) ∧
    (s.step (.merge a a)).2.Same s ∧
    (∀ copied, copied <+: ma.store.entries → ma.store.setAll copied = ma.store) ∧
    (s.steps [.merge a b, .merge a b]).2.Same (s.step (.merge a b)).2 ∧
    ∀ c mc, s.contexts.lookup c = some mc → a ≠ c →
      (s.steps [.merge a b, .merge b c]).2.contexts.lookup c =
        (s.steps [.merge b c, .merge a c]).2.contexts.lookup c := by
  refine ⟨⟨_, Registers.isUnion_mergeInto ma.store mb.store,
    ⟨_, step_merge ha hb, rfl, ?_, ?_⟩, ?_⟩, same_merge_self ha, ?_, same_merge_twice ha hb, ?_⟩
  · rw [lookup_putContext, if_pos rfl]
  · intro d hOther
    rw [lookup_putContext, if_neg hOther]
  · intro bench hSource hTarget
    refine ⟨_, Bench.step_merge hSource hTarget, ?_, ?_⟩
    · rw [Bench.lookup_put, if_pos rfl]
    · intro d hOther
      rw [Bench.lookup_put, if_neg hOther]
  · intro copied hCopied
    exact Registers.setAll_of_subset hCopied.subset
  · intro c mc hc hName
    exact lookup_merge_chain ha hb hc hName

/-- The first context overrides a value of the second, and both bring new names to the third. -/
theorem merge_unites_overlapping :
    let a : Registers := .ofList [(.text "x", 1), (.text "y", 2)]
    let b : Registers := .ofList [(.text "y", 3), (.text "z", 4)]
    let c : Registers := .ofList [(.text "z", 5), (.text "w", 6)]
    let s : Session := ⟨[("a", .fresh a), ("b", .fresh b), ("c", .fresh c)], []⟩
    (∃ r, Registers.IsUnion a b r ∧ r = .ofList [(.text "y", 2), (.text "z", 4), (.text "x", 1)]) ∧
    (s.steps [.merge "a" "b", .merge "b" "c"]).2.contexts.lookup "c" =
      (s.steps [.merge "b" "c", .merge "a" "c"]).2.contexts.lookup "c" ∧
    (s.steps [.merge "a" "b", .merge "b" "c"]).2.contexts.lookup "c" =
      some (.fresh (.ofList
        [(.text "z", 4), (.text "w", 6), (.text "y", 2), (.text "x", 1)])) := by
  intro a b c s
  obtain ⟨⟨r, hUnion, -, -⟩, -, -, -, hChain⟩ :=
    merge_unites_registers (s := s) (a := "a") (b := "b") rfl rfl
  refine ⟨⟨r, hUnion, ?_⟩, hChain "c" _ rfl (by decide), by decide +kernel⟩
  exact (hUnion.unique (Registers.isUnion_mergeInto a b)).trans (by decide +kernel)

end Session

end StackCalc
