import PeerSearch.Proofs.SizeIndex
import PeerSearch.SizeIndex.Command

/-!
# PeerSearch.Proofs.SizeIndex.Exhaustive -- a search by size finds what any search would

Whatever has been registered and struck off, each bucket is the part of the register that has its
size, in the order of registration. So the register is the buckets put together, up to the order,
and the first match in it is the first one in the bucket of the probe's size, which is the one that
the early-ending search finds.
-/

namespace PeerSearch

/-- A list is put together from its parts under the keys that its items have. -/
theorem perm_flatMap_filter {α κ : Type} [DecidableEq κ] (key : α → κ) {keys : List κ}
    (nodup : keys.Nodup) {l : List α} (covered : ∀ a ∈ l, key a ∈ keys) :
    (keys.flatMap fun k => l.filter (key · = k)).Perm l := by
  -- By induction on the keys: the items of the first one are set apart from the others.
  induction keys generalizing l with
  | nil =>
      rw [List.eq_nil_iff_forall_not_mem.mpr fun a ha => List.not_mem_nil (covered a ha)]
      exact .nil
  | cons k keys ih =>
      obtain ⟨fresh, nodup⟩ := List.nodup_cons.mp nodup
      have others : ∀ a ∈ l.filter (fun a => !decide (key a = k)), key a ∈ keys := by
        intro a ha
        obtain ⟨ha, other⟩ := List.mem_filter.mp ha
        exact (List.mem_cons.mp (covered a ha)).resolve_left (by simpa using other)
      have parts :
          keys.flatMap (fun j => (l.filter fun a => !decide (key a = k)).filter (key · = j)) =
            keys.flatMap fun j => l.filter (key · = j) := by
        refine List.flatMap_congr fun j hj => ?_
        rw [List.filter_filter]
        refine List.filter_congr fun a _ => ?_
        by_cases here : key a = j
        · have other : key a ≠ k := by
            rintro rfl
            exact fresh (here ▸ hj)
          simp [here, here ▸ other]
        · simp [here]
      have rest := ih nodup others
      rw [parts] at rest
      rw [List.flatMap_cons]
      exact (rest.append_left _).trans (List.filter_append_perm _ l)

namespace SizeIndex

variable {ix : SizeIndex} {register : Bucket}

/-! ## The register -/

/-- The buckets are the parts of a register of files without a content hash. -/
structure Sorts (ix : SizeIndex) (register : Bucket) : Prop where
  bucket : ∀ size, ix.bucket size = register.filter (·.2.size = size)
  nonempty : ∀ size, ix.buckets.find? size ≠ some []
  unhashed : ∀ e ∈ register, e.2.hash = none

theorem empty_sorts : empty.Sorts [] := by
  refine ⟨fun size => rfl, fun size hb => ?_, fun e he => ?_⟩
  · cases hb
  · cases he

theorem Sorts.add (h : ix.Sorts register) (id : GroupId) {f : Fingerprint}
    (unhashed : f.hash = none) : (ix.add id f).Sorts (register ++ [(id, f)]) := by
  refine ⟨fun size => ?_, nonempty_add h.nonempty id f, fun e he => ?_⟩
  · rw [bucket_add, h.bucket, List.filter_append]
    split
    · next same => simp [same]
    · next other => simp [other]
  · rcases List.mem_append.mp he with he | he
    · exact h.unhashed e he
    · rw [List.mem_singleton.mp he]
      exact unhashed

theorem Sorts.remove (h : ix.Sorts register) (id : GroupId) (size : Nat) :
    (ix.remove id size).Sorts
      (register.filter fun e => !(e.1 == id && e.2.size == size)) := by
  refine ⟨fun n => ?_, nonempty_remove h.nonempty id size, fun e he => ?_⟩
  · rw [bucket_remove, h.bucket, List.filter_filter]
    split
    · next same =>
      rw [List.filter_filter]
      refine List.filter_congr fun e _ => ?_
      by_cases here : e.2.size = n
      · simp [here, same, bne]
      · simp [here]
    · next other =>
      rw [List.filter_filter]
      refine List.filter_congr fun e _ => ?_
      by_cases here : e.2.size = n
      · simp [here, Ne.symm other]
      · simp [here]
  · exact h.unhashed e (List.mem_of_mem_filter he)

theorem Sorts.perform (h : ix.Sorts register) {c : SizeCommand}
    (unhashed : ∀ id f, c = .add id f → f.hash = none) :
    (ix.perform c).Sorts (enter register c) := by
  cases c with
  | add id f => exact h.add id (unhashed id f rfl)
  | remove id size => exact h.remove id size
  | clear => exact empty_sorts

theorem Sorts.after (h : ix.Sorts register) {commands : List SizeCommand}
    (unhashed : ∀ id f, .add id f ∈ commands → f.hash = none) :
    (ix.after commands).Sorts (commands.foldl enter register) := by
  induction commands generalizing ix register with
  | nil => exact h
  | cons c rest ih =>
      refine ih (h.perform ?_) fun id f hf => unhashed id f (List.mem_cons_of_mem c hf)
      rintro id f rfl
      exact unhashed id f List.mem_cons_self

/-! ## What the buckets hold -/

theorem Sorts.tidy (h : ix.Sorts register) : ix.Tidy := by
  refine ⟨h.nonempty, fun size e he => ?_, fun size e he => ?_⟩
  · rw [h.bucket] at he
    exact of_decide_eq_true (List.mem_filter.mp he).2
  · rw [h.bucket] at he
    exact h.unhashed e (List.mem_of_mem_filter he)

/-- The register is the buckets put together. -/
theorem Sorts.entries_perm (h : ix.Sorts register) :
    (ix.buckets.entries.flatMap (·.2)).Perm register := by
  have covered : ∀ e ∈ register, e.2.size ∈ ix.buckets.keys := by
    intro e he
    have here : e ∈ ix.bucket e.2.size := by
      rw [h.bucket]
      exact List.mem_filter.mpr ⟨he, decide_eq_true rfl⟩
    cases hb : ix.buckets.find? e.2.size with
    | none =>
        rw [SizeIndex.bucket, hb] at here
        cases here
    | some b => exact (SortedMap.mem_keys_iff _).mpr ⟨b, hb⟩
  have parts : ix.buckets.entries.flatMap (·.2) =
      ix.buckets.keys.flatMap fun size => register.filter (·.2.size = size) := by
    rw [SortedMap.keys, List.flatMap_map]
    refine List.flatMap_congr fun x hx => ?_
    rw [← bucket_of_entry hx, h.bucket]
  rw [parts]
  exact perm_flatMap_filter (fun e : GroupId × Fingerprint => e.2.size) ix.buckets.keys_nodup
    covered

theorem size_eq_length (ix : SizeIndex) :
    ix.size = (ix.buckets.entries.flatMap (·.2)).length := by
  rw [size, List.length_flatMap, List.sum_eq_foldr, SortedMap.values, List.map_map]
  rfl

/-! ## What is found -/

/-- The first match in the register is found. -/
theorem Sorts.find?_eq (h : ix.Sorts register) (probe : Fingerprint) :
    ix.find? probe =
      (register.find? fun e => e.2.compareTo probe = .identical).map (·.1) := by
  rw [h.tidy.find?_eq, h.bucket, List.find?_filter]
  congr 1
  refine List.find?_congr fun e he => ?_
  by_cases same : e.2.compareTo probe = .identical
  · simp [same, (Fingerprint.agree_of_identical (h.unhashed e he) same).1]
  · simp [same]

theorem Sorts.find?_eq_none_iff (h : ix.Sorts register) (probe : Fingerprint) :
    ix.find? probe = none ↔
      ∀ entry ∈ ix.buckets.entries, ∀ e ∈ entry.2, e.2.compareTo probe ≠ .identical := by
  rw [h.find?_eq, Option.map_eq_none_iff, List.find?_eq_none]
  simp only [decide_eq_true_eq, ← h.entries_perm.mem_iff, List.mem_flatMap]
  exact ⟨fun none x hx e he => none e ⟨x, hx, he⟩, fun none e ⟨x, hx, he⟩ => none x hx e he⟩

/-- After any registrations of files without a content hash, removals and clearings, a search finds
the first match among all that is registered, in the order of registration, and nothing just when no
bucket has a match. The buckets together hold what is registered, each the part of its size, and
none is empty; the size is their number of entries. -/
theorem find?_misses_nothing (commands : List SizeCommand)
    (unhashed : ∀ id f, .add id f ∈ commands → f.hash = none) :
    let ix := empty.after commands
    (∀ probe : Fingerprint,
        ix.find? probe = ((registered commands).find? fun e =>
          e.2.compareTo probe = .identical).map (·.1) ∧
        (ix.find? probe = none ↔
          ∀ entry ∈ ix.buckets.entries, ∀ e ∈ entry.2, e.2.compareTo probe ≠ .identical)) ∧
      (ix.buckets.entries.flatMap (·.2)).Perm (registered commands) ∧
      ix.size = (ix.buckets.entries.flatMap (·.2)).length ∧
      ∀ size bucket, (size, bucket) ∈ ix.buckets.entries →
        bucket ≠ [] ∧ bucket = (registered commands).filter (·.2.size = size) := by
  intro ix
  have h : ix.Sorts (registered commands) := empty_sorts.after unhashed
  refine ⟨fun probe => ⟨h.find?_eq probe, h.find?_eq_none_iff probe⟩, h.entries_perm,
    ix.size_eq_length, fun size bucket hb => ⟨?_, ?_⟩⟩
  · rintro rfl
    exact h.nonempty size ((SortedMap.mem_entries_iff _).mp hb)
  · rw [← h.bucket]
    exact (bucket_of_entry hb).symm

/-- Of three files of one size the first does not match and the second has been removed again. A
probe with a content hash finds the third; one of a size in between finds nothing. -/
theorem find?_misses_nothing_in_shared_bucket :
    let song (name : String) (size : Nat) : Fingerprint := ⟨none, "mp3", size, name, 1⟩
    let hash : ContentHash := ⟨List.replicate 32 'A', rfl⟩
    let commands : List SizeCommand :=
      [.add ⟨0⟩ (song "a" 7), .add ⟨1⟩ (song "b" 9), .add ⟨2⟩ (song "a" 9), .add ⟨3⟩ (song "a" 9),
        .remove ⟨2⟩ 9]
    let ix := empty.after commands
    ix.find? { song "a" 9 with hash := some hash } = some ⟨3⟩ ∧ ix.find? (song "a" 8) = none ∧
      ix.size = 3 := by
  intro song hash commands ix
  have unhashed : ∀ id f, .add id f ∈ commands → f.hash = none := by
    intro id f hf
    simp only [commands, List.mem_cons, SizeCommand.add.injEq, reduceCtorEq, List.not_mem_nil,
      or_false] at hf
    rcases hf with ⟨-, rfl⟩ | ⟨-, rfl⟩ | ⟨-, rfl⟩ | ⟨-, rfl⟩
    all_goals rfl
  obtain ⟨found, -, size, -⟩ := find?_misses_nothing commands unhashed
  refine ⟨?_, ?_, ?_⟩
  · rw [(found _).1]
    decide +kernel
  · rw [(found _).1]
    decide +kernel
  · rw [size]
    decide +kernel

end SizeIndex

end PeerSearch
