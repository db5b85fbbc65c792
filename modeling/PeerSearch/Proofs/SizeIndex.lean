import PeerSearch.Proofs.SortedMap
import PeerSearch.SizeIndex

/-!
# PeerSearch.Proofs.SizeIndex -- the early end of a scan misses nothing

A scan goes through the buckets from the size of the probe upwards and then downwards, and ends at
the first file of another size. When every bucket holds files of its own size only, none of them has
a content hash and no bucket is empty, all that can match stands in the bucket of the probe's size;
there a scan finds the first match.
-/

namespace PeerSearch

/-! ## Verdicts -/

namespace Fingerprint

/-- Without a content hash, files of another size are different. -/
theorem compareTo_of_size_ne {f probe : Fingerprint} (unhashed : f.hash = none)
    (h : f.size ≠ probe.size) : f.compareTo probe = .different := by
  simp only [compareTo, unhashed, ne_eq, h, not_false_eq_true, if_true]

/-- Without a content hash, a file of the same size never ends a scan. -/
theorem compareTo_ne_different {f probe : Fingerprint} (unhashed : f.hash = none)
    (h : f.size = probe.size) : f.compareTo probe ≠ .different := by
  simp only [compareTo, unhashed, ne_eq, h, not_true_eq_false, if_false]
  split
  · decide
  · split <;> decide

/-- What an identical file agrees in, unless both have a content hash. -/
theorem agree_of_identical {f probe : Fingerprint} (unhashed : f.hash = none)
    (h : f.compareTo probe = .identical) :
    f.size = probe.size ∧ f.extension = probe.extension := by
  unfold compareTo at h
  rw [unhashed] at h
  by_cases size : f.size = probe.size
  · by_cases extension : f.extension = probe.extension
    · exact ⟨size, extension⟩
    · simp [size, extension] at h
  · simp [size] at h

end Fingerprint

namespace SizeIndex

variable {ix : SizeIndex} {probe : Fingerprint}

/-! ## Registration -/

theorem find?_add (ix : SizeIndex) (id : GroupId) (f : Fingerprint) (size : Nat) :
    (ix.add id f).buckets.find? size =
      if f.size = size then some (ix.bucket size ++ [(id, f)]) else ix.buckets.find? size := by
  unfold add
  rw [SortedMap.find?_insert]
  split
  · next h => rw [h]
  · rfl

theorem bucket_add (ix : SizeIndex) (id : GroupId) (f : Fingerprint) (size : Nat) :
    (ix.add id f).bucket size =
      if f.size = size then ix.bucket size ++ [(id, f)] else ix.bucket size := by
  rw [bucket, find?_add]
  split
  · rfl
  · rfl

/-- A removal leaves what is left of one bucket, if anything is. -/
theorem find?_remove (ix : SizeIndex) (id : GroupId) (size n : Nat) :
    (ix.remove id size).buckets.find? n =
      if size = n then
        ((ix.buckets.find? n).map (·.filter (·.1 != id))).filter fun b => !b.isEmpty
      else ix.buckets.find? n := by
  by_cases h : size = n
  · subst h
    rw [if_pos rfl]
    cases hb : ix.buckets.find? size with
    | none => simp [remove, hb]
    | some b =>
        simp only [remove, hb, Option.map_some]
        by_cases hempty : (b.filter (·.1 != id)).isEmpty = true
        · rw [if_pos hempty, SortedMap.find?_erase, if_pos rfl,
            Option.filter_some_neg (by rw [hempty]; decide)]
        · rw [if_neg hempty, SortedMap.find?_insert, if_pos rfl,
            Option.filter_some_pos (by simpa using hempty)]
  · rw [if_neg h]
    cases hb : ix.buckets.find? size with
    | none => simp only [remove, hb]
    | some b =>
        simp only [remove, hb]
        split
        · rw [SortedMap.find?_erase, if_neg (Ne.symm h)]
        · rw [SortedMap.find?_insert, if_neg h]

theorem bucket_remove (ix : SizeIndex) (id : GroupId) (size n : Nat) :
    (ix.remove id size).bucket n =
      if size = n then (ix.bucket n).filter (·.1 != id) else ix.bucket n := by
  rw [bucket, bucket, find?_remove]
  split
  · cases ix.buckets.find? n with
    | none => rfl
    | some b =>
        rw [Option.map_some, Option.getD_some]
        -- A bucket that is left empty goes, and an absent bucket counts as empty.
        by_cases hempty : b.filter (·.1 != id) = []
        · rw [hempty]
          rfl
        · rw [Option.filter_some_pos (by simpa using hempty), Option.getD_some]
  · rfl

/-! ## Buckets in order -/

/-- The buckets hold files without a content hash, each of the bucket's size, and none is empty. -/
structure Tidy (ix : SizeIndex) : Prop where
  nonempty : ∀ size, ix.buckets.find? size ≠ some []
  sized : ∀ size, ∀ e ∈ ix.bucket size, e.2.size = size
  unhashed : ∀ size, ∀ e ∈ ix.bucket size, e.2.hash = none

theorem nonempty_add (h : ∀ size, ix.buckets.find? size ≠ some []) (id : GroupId)
    (f : Fingerprint) (size : Nat) : (ix.add id f).buckets.find? size ≠ some [] := by
  rw [find?_add]
  split
  · simp
  · exact h size

theorem nonempty_remove (h : ∀ size, ix.buckets.find? size ≠ some []) (id : GroupId)
    (size n : Nat) : (ix.remove id size).buckets.find? n ≠ some [] := by
  rw [find?_remove]
  split
  · intro hnil
    have := Option.mem_filter_iff.mp hnil
    simp at this
  · exact h n

theorem bucket_of_entry {e : Nat × Bucket} (he : e ∈ ix.buckets.entries) :
    ix.bucket e.1 = e.2 := by
  rw [bucket, (SortedMap.mem_entries_iff _).mp he, Option.getD_some]

/-- What is registered stands in some bucket. -/
theorem mem_entries_iff {e : GroupId × Fingerprint} :
    e ∈ ix.buckets.entries.flatMap (·.2) ↔ ∃ size, e ∈ ix.bucket size := by
  rw [List.mem_flatMap]
  constructor
  · rintro ⟨x, hx, he⟩
    exact ⟨x.1, (bucket_of_entry hx).symm ▸ he⟩
  · rintro ⟨size, he⟩
    cases hb : ix.buckets.find? size with
    | none =>
        rw [bucket, hb] at he
        cases he
    | some b =>
        rw [bucket, hb] at he
        exact ⟨(size, b), (SortedMap.mem_entries_iff _).mpr hb, he⟩

/-- Without empty buckets, an index is known by what each bucket holds. -/
theorem ext_bucket {ix' : SizeIndex} (h : ∀ size, ix.buckets.find? size ≠ some [])
    (h' : ∀ size, ix'.buckets.find? size ≠ some [])
    (same : ∀ size, ix.bucket size = ix'.bucket size) : ix = ix' := by
  have found (size : Nat) : ix.buckets.find? size = ix'.buckets.find? size := by
    have here := same size
    rw [bucket, bucket] at here
    cases hb : ix.buckets.find? size with
    | none =>
        cases hb' : ix'.buckets.find? size with
        | none => rfl
        | some b =>
            rw [hb, hb', Option.getD_none, Option.getD_some] at here
            exact absurd (here ▸ hb') (h' size)
    | some b =>
        cases hb' : ix'.buckets.find? size with
        | none =>
            rw [hb, hb', Option.getD_none, Option.getD_some] at here
            exact absurd (here ▸ hb) (h size)
        | some b' =>
            rw [hb, hb', Option.getD_some, Option.getD_some] at here
            rw [here]
  cases ix
  cases ix'
  exact congrArg SizeIndex.mk (SortedMap.ext_find? found)

/-- Buckets of files of different sizes have no entry in common. -/
theorem entries_nodup (sized : ∀ size, ∀ e ∈ ix.bucket size, e.2.size = size)
    (nodup : ∀ size, (ix.bucket size).Nodup) : (ix.buckets.entries.flatMap (·.2)).Nodup := by
  rw [List.nodup_flatMap]
  constructor
  · intro x hx
    rw [← bucket_of_entry hx]
    exact nodup x.1
  · refine ix.buckets.increasing.imp_of_mem ?_
    intro x y hx hy hlt e (hex : e ∈ x.2) (hey : e ∈ y.2)
    rw [← bucket_of_entry hx] at hex
    rw [← bucket_of_entry hy] at hey
    have same : x.1 = y.1 := (sized _ e hex).symm.trans (sized _ e hey)
    exact absurd (Nat.compare_eq_lt.mp hlt) (same ▸ lt_irrefl _)

/-! ## Scans -/

/-- In a bucket of the probe's size a scan finds the first match, or goes on. -/
theorem scanBucket_near {b : Bucket} (sized : ∀ e ∈ b, e.2.size = probe.size)
    (unhashed : ∀ e ∈ b, e.2.hash = none) :
    scanBucket probe b =
      ((b.find? fun e => e.2.compareTo probe = .identical).map (·.1)).elim
        .keepScanning .found := by
  induction b with
  | nil => rfl
  | cons e rest ih =>
      have ih := ih (fun e' he' => sized e' (List.mem_cons_of_mem e he'))
        fun e' he' => unhashed e' (List.mem_cons_of_mem e he')
      have goesOn := Fingerprint.compareTo_ne_different (unhashed e List.mem_cons_self)
        (sized e List.mem_cons_self)
      unfold scanBucket
      cases hm : e.2.compareTo probe with
      | identical => simp [hm]
      | different => exact absurd hm goesOn
      | sameSizeDifferentName => simp [hm, ih]

/-- A bucket of another size ends the scan. -/
theorem scanBucket_far {size : Nat} {b : Bucket} (far : size ≠ probe.size) (nonempty : b ≠ [])
    (sized : ∀ e ∈ b, e.2.size = size) (unhashed : ∀ e ∈ b, e.2.hash = none) :
    scanBucket probe b = .stop := by
  cases b with
  | nil => exact absurd rfl nonempty
  | cons e rest =>
      have hne : e.2.size ≠ probe.size := by
        rw [sized e List.mem_cons_self]
        exact far
      unfold scanBucket
      rw [Fingerprint.compareTo_of_size_ne (unhashed e List.mem_cons_self) hne]

/-- Of the entries of a tidy index, those of another size hold no match for a scan. -/
theorem Tidy.scanBuckets_far (h : ix.Tidy) {l : List (Nat × Bucket)}
    (entries : ∀ e ∈ l, e ∈ ix.buckets.entries) (far : ∀ e ∈ l, e.1 ≠ probe.size) :
    scanBuckets probe l = none := by
  cases l with
  | nil => rfl
  | cons e rest =>
      obtain ⟨size, b⟩ := e
      have hb : ix.buckets.find? size = some b :=
        (SortedMap.mem_entries_iff _).mp (entries _ List.mem_cons_self)
      have bucket_eq : ix.bucket size = b := bucket_of_entry (entries _ List.mem_cons_self)
      have ends : scanBucket probe b = .stop := by
        apply scanBucket_far (far _ List.mem_cons_self)
        · rintro rfl
          exact h.nonempty size hb
        · exact bucket_eq ▸ h.sized size
        · exact bucket_eq ▸ h.unhashed size
      simp only [scanBuckets, ends]

/-- Upwards from a size at which there is a bucket, that bucket comes first. -/
theorem filter_from_bucket {l : List (Nat × Bucket)} {size : Nat} {b : Bucket}
    (increasing : l.Pairwise fun a b => compare a.1 b.1 = .lt) (hb : (size, b) ∈ l) :
    l.filter (size ≤ ·.1) = (size, b) :: l.filter (size < ·.1) := by
  induction l with
  | nil => cases hb
  | cons e rest ih =>
      have ⟨first, others⟩ := List.pairwise_cons.mp increasing
      have above (x : Nat × Bucket) (hx : x ∈ rest) : e.1 < x.1 :=
        Nat.compare_eq_lt.mp (first x hx)
      rcases List.mem_cons.mp hb with rfl | hrest
      · have keepsAll (p q : Nat × Bucket → Bool) (hp : ∀ x ∈ rest, p x = true)
            (hq : ∀ x ∈ rest, q x = true) : rest.filter p = rest.filter q := by
          rw [List.filter_eq_self.mpr hp, List.filter_eq_self.mpr hq]
        rw [List.filter_cons_of_pos (by simp), List.filter_cons_of_neg (by simp)]
        congr 1
        apply keepsAll
        · intro x hx
          exact decide_eq_true (above x hx).le
        · intro x hx
          exact decide_eq_true (above x hx)
      · -- The first bucket is below the one that is looked for.
        have below : e.1 < size := above _ hrest
        rw [List.filter_cons_of_neg (by simpa using below),
          List.filter_cons_of_neg (by simpa using below.le), ih others hrest]

/-- A search finds the first match in the bucket of the probe's size. -/
theorem Tidy.find?_eq (h : ix.Tidy) (probe : Fingerprint) :
    ix.find? probe =
      ((ix.bucket probe.size).find? fun e => e.2.compareTo probe = .identical).map (·.1) := by
  have downwards : scanBuckets probe
      (ix.buckets.entries.filter (·.1 < probe.size)).reverse = none := by
    apply h.scanBuckets_far
    · intro e he
      exact List.mem_of_mem_filter (List.mem_reverse.mp he)
    · intro e he
      have hlt := (List.mem_filter.mp (List.mem_reverse.mp he)).2
      exact (of_decide_eq_true hlt).ne
  have above : scanBuckets probe (ix.buckets.entries.filter (probe.size < ·.1)) = none := by
    apply h.scanBuckets_far
    · intro e he
      exact List.mem_of_mem_filter he
    · intro e he
      exact (of_decide_eq_true (List.mem_filter.mp he).2).ne'
  unfold find?
  rw [downwards, Option.or_none]
  cases hb : ix.buckets.find? probe.size with
  | none =>
      have bucket_eq : ix.bucket probe.size = [] := by rw [bucket, hb, Option.getD_none]
      rw [bucket_eq, List.find?_nil, Option.map_none]
      apply h.scanBuckets_far
      · intro e he
        exact List.mem_of_mem_filter he
      · rintro ⟨size, b⟩ he rfl
        have found := (SortedMap.mem_entries_iff _).mp (List.mem_of_mem_filter he)
        rw [hb] at found
        cases found
  | some b =>
      have bucket_eq : ix.bucket probe.size = b := by rw [bucket, hb, Option.getD_some]
      have near : scanBucket probe b = _ :=
        scanBucket_near (bucket_eq ▸ h.sized probe.size) (bucket_eq ▸ h.unhashed probe.size)
      rw [filter_from_bucket ix.buckets.increasing ((SortedMap.mem_entries_iff _).mpr hb),
        bucket_eq]
      unfold scanBuckets
      rw [near]
      cases (b.find? fun e => e.2.compareTo probe = .identical).map (·.1) with
      | none => exact above
      | some id => rfl

end SizeIndex

end PeerSearch
