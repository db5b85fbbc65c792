import Mathlib

/-!
# PeerSearch.Proofs.Runs -- what holds in all states of a run

A run goes through a state for each number of steps taken. A property that each step keeps, unless
the step breaks it, holds in all of these states exactly when no step breaks it. Names that a state
counts up are in use from the step that hands them out to the one that takes them, and never again.
-/

namespace PeerSearch

variable {σ α : Type} {f : σ → α → σ} {start : σ} {steps : List α}

theorem foldl_take_add_one (f : σ → α → σ) (start : σ) {n : Nat} {a : α} (h : steps[n]? = some a) :
    (steps.take (n + 1)).foldl f start = f ((steps.take n).foldl f start) a := by
  rw [List.take_add_one, h, List.foldl_append]
  rfl

/-- What holds at the start holds throughout unless a step breaks it, if a state where it holds is
followed by one where it does not only when the step breaks it. -/
theorem holds_throughout_iff (P : σ → Prop) (breaks : σ → α → Prop) (holds : P start)
    (step : ∀ n a, steps[n]? = some a → P ((steps.take n).foldl f start) →
      (P (f ((steps.take n).foldl f start) a) ↔ ¬ breaks ((steps.take n).foldl f start) a)) :
    (∀ n, P ((steps.take n).foldl f start)) ↔
      ∀ n a, steps[n]? = some a → ¬ breaks ((steps.take n).foldl f start) a := by
  constructor
  · intro all n a ha
    refine (step n a ha (all n)).mp ?_
    rw [← foldl_take_add_one f start ha]
    exact all (n + 1)
  · intro none n
    induction n with
    | zero => exact holds
    | succ n ih =>
        cases ha : steps[n]? with
        | some a =>
            rw [foldl_take_add_one f start ha]
            exact (step n a ha ih).mpr (none n a ha)
        | none =>
            rw [List.take_add_one, ha, Option.toList_none, List.append_nil]
            exact ih

/-! ## Names that are handed out -/

/-- Names with the first few numbers, one after the other, are the names with those numbers. -/
theorem mem_iff_of_counted {ι : Type} {number : ι → Nat} (faithful : number.Injective)
    {names : List ι} {k : Nat} (counted : names.map number = List.range' 0 k) :
    names.Nodup ∧ ∀ i, i ∈ names ↔ number i < k := by
  refine ⟨.of_map number (counted ▸ List.nodup_range'), fun i => ?_⟩
  rw [← List.mem_map_of_injective faithful, counted, List.mem_range'_1]
  omega

/-- How names come into use and go out of it in the states that satisfy `inv`: `next` is the number
of the name to hand out next, and a step `takes` a name that is in use. -/
structure Naming (f : σ → α → σ) (ι : Type) where
  inv : σ → Prop
  number : ι → Nat
  next : σ → Nat
  live : σ → ι → Prop
  takes : σ → ι → α → Prop
  keeps : ∀ s, inv s → ∀ a, inv (f s a)
  below : ∀ s, inv s → ∀ i, live s i → number i < next s
  grows : ∀ s, inv s → ∀ a, next s ≤ next (f s a)
  /-- In use are the names that were so and are not taken, and those that the step hands out. -/
  step : ∀ s, inv s → ∀ a i,
    live (f s a) i ↔ live s i ∧ ¬ takes s i a ∨ next s ≤ number i ∧ number i < next (f s a)

namespace Naming

variable {ι : Type} {i : ι} (N : Naming f ι)

/-- The name has been handed out and is not in use. -/
def Spent (s : σ) (i : ι) : Prop :=
  ¬ N.live s i ∧ N.number i < N.next s

/-- Some step of a run takes the name. -/
def Loses (start : σ) (steps : List α) (i : ι) : Prop :=
  ∃ n a, steps[n]? = some a ∧ N.live ((steps.take n).foldl f start) i ∧
    N.takes ((steps.take n).foldl f start) i a

variable {N}

theorem inv_run {s : σ} (h : N.inv s) (steps : List α) : N.inv (steps.foldl f s) := by
  induction steps generalizing s with
  | nil => exact h
  | cons a rest ih => exact ih (N.keeps s h a)

theorem Spent.step {s : σ} (spent : N.Spent s i) (h : N.inv s) (a : α) : N.Spent (f s a) i := by
  refine ⟨?_, spent.2.trans_le (N.grows s h a)⟩
  intro back
  rcases (N.step s h a i).mp back with ⟨live, -⟩ | ⟨unnamed, -⟩
  · exact spent.1 live
  · exact absurd spent.2 (not_lt.mpr unnamed)

/-- A name that has gone stays gone. -/
theorem Spent.run {s : σ} (spent : N.Spent s i) (h : N.inv s) (steps : List α) :
    N.Spent (steps.foldl f s) i := by
  induction steps generalizing s with
  | nil => exact spent
  | cons a rest ih => exact ih (spent.step h a) (N.keeps s h a)

theorem spent_of_taken {s : σ} (h : N.inv s) {a : α} (live : N.live s i) (taken : N.takes s i a) :
    N.Spent (f s a) i := by
  have named := N.below s h i live
  refine ⟨?_, named.trans_le (N.grows s h a)⟩
  intro still
  rcases (N.step s h a i).mp still with ⟨-, kept⟩ | ⟨unnamed, -⟩
  · exact kept taken
  · exact absurd named (not_lt.mpr unnamed)

theorem Loses.spent (lost : N.Loses start steps i) (h : N.inv start) :
    N.Spent (steps.foldl f start) i := by
  obtain ⟨n, a, ha, live, taken⟩ := lost
  have before := inv_run h (steps.take n)
  have gone := (spent_of_taken before live taken).run (N.keeps _ before a) (steps.drop (n + 1))
  rwa [← foldl_take_add_one f start ha, ← List.foldl_append, List.take_append_drop] at gone

theorem Loses.append (lost : N.Loses start steps i) (later : List α) :
    N.Loses start (steps ++ later) i := by
  obtain ⟨n, a, ha, lost⟩ := lost
  obtain ⟨inside, -⟩ := List.getElem?_eq_some_iff.mp ha
  refine ⟨n, a, ?_, ?_⟩
  · rw [List.getElem?_append_left inside, ha]
  · rwa [List.take_append_of_le_length inside.le]

theorem loses_concat {a : α} (live : N.live (steps.foldl f start) i)
    (taken : N.takes (steps.foldl f start) i a) : N.Loses start (steps ++ [a]) i := by
  refine ⟨steps.length, a, List.getElem?_concat_length, ?_⟩
  rw [List.take_left]
  exact ⟨live, taken⟩

/-- A name from after the start is not in use exactly when it has not been handed out yet or some
step has taken it. -/
theorem not_live_iff (h : N.inv start) (unnamed : N.next start ≤ N.number i) :
    ¬ N.live (steps.foldl f start) i ↔
      N.next (steps.foldl f start) ≤ N.number i ∨ N.Loses start steps i := by
  constructor
  · -- By induction on the number of steps taken, with the last step to look at.
    induction steps using List.reverseRecOn with
    | nil => exact fun _ => .inl unnamed
    | append_singleton steps a ih =>
        rw [List.foldl_append, List.foldl_cons, List.foldl_nil]
        set s := steps.foldl f start
        rw [N.step s (inv_run h steps) a i, not_or]
        rintro ⟨notKept, notNew⟩
        by_cases live : N.live s i
        · have taken : N.takes s i a := by
            by_contra kept
            exact notKept ⟨live, kept⟩
          exact .inr (loses_concat live taken)
        · rcases ih live with unnamed | lost
          · exact .inl (not_lt.mp fun named => notNew ⟨unnamed, named⟩)
          · exact .inr (lost.append [a])
  · rintro (unnamed | lost)
    · exact fun live => absurd (N.below _ (inv_run h steps) i live) (not_lt.mpr unnamed)
    · exact (lost.spent h).1

end Naming

end PeerSearch
