import PeerSearch.Proofs.GroupIndex.Roster
import PeerSearch.Proofs.SizeIndex

/-!
# PeerSearch.Proofs.GroupIndex.Register -- the lookups say who is there

`Files` says what the lookups hold in terms of a roster: a bucket of the size index is the part of
the roster without a hash and of that size, in the same order, and a hash key leads to a member of
the roster that has it. Each command keeps the lookups in step with the roster, and from there both
lookups are exact for the groups that are there.
-/

namespace PeerSearch

/-! ## Keys of members -/

namespace Member

/-- What a group with this canonical member is registered under. -/
def fingerprint (m : Member) : Fingerprint :=
  .ofResult m.result

/-- The hash and the extension that such a group is found by. -/
def key? (m : Member) : Option HashKey :=
  HashKey.ofFingerprint? m.fingerprint

/-- Whether such a group is kept in the bucket for a size. -/
def inBucket (size : Nat) (m : Member) : Bool :=
  m.result.hash = none ∧ m.result.size = size

end Member

theorem HashKey.ofFingerprint?_eq_some_iff {f : Fingerprint} {key : HashKey} :
    HashKey.ofFingerprint? f = some key ↔ f.hash = some key.hash ∧ f.extension = key.extension := by
  unfold ofFingerprint?
  constructor
  · intro h
    obtain ⟨hash, hh, rfl⟩ := Option.map_eq_some_iff.mp h
    exact ⟨hh, rfl⟩
  · rintro ⟨hh, he⟩
    rw [hh, Option.map_some, he]

theorem HashKey.ofFingerprint?_eq_none_iff {f : Fingerprint} :
    HashKey.ofFingerprint? f = none ↔ f.hash = none := by
  rw [ofFingerprint?, Option.map_eq_none_iff]

namespace GroupIndex

variable {ix ix' : GroupIndex} {roster : List (GroupId × Member)}

/-! ## The lookups after one registration -/

theorem find?_register (ix : GroupIndex) (id : GroupId) (f : Fingerprint) (key : HashKey) :
    (ix.register id f).byHash.find? key =
      if HashKey.ofFingerprint? f = some key then (ix.byHash.find? key).or (some id)
      else ix.byHash.find? key := by
  unfold register
  cases HashKey.ofFingerprint? f with
  | none => rfl
  | some k =>
      simp only [Option.some.injEq]
      exact SortedMap.find?_insertIfNew _ _ _ _

theorem find?_unregister (ix : GroupIndex) (id : GroupId) (f : Fingerprint) (key : HashKey) :
    (ix.unregister id f).byHash.find? key =
      if HashKey.ofFingerprint? f = some key ∧ ix.byHash.find? key = some id then none
      else ix.byHash.find? key := by
  unfold unregister
  cases HashKey.ofFingerprint? f with
  | none => rfl
  | some k =>
      simp only [Option.some.injEq]
      by_cases held : ix.byHash.find? k = some id
      · rw [if_pos held]
        show (ix.byHash.erase k).find? key = _
        rw [SortedMap.find?_erase]
        by_cases h : key = k
        · subst h
          rw [if_pos rfl, if_pos ⟨rfl, held⟩]
        · rw [if_neg h, if_neg fun hk => h hk.1.symm]
      · rw [if_neg held, if_neg]
        rintro ⟨rfl, hk⟩
        exact held hk

theorem bucket_register (ix : GroupIndex) (id : GroupId) (f : Fingerprint) (size : Nat) :
    (ix.register id f).bySize.bucket size =
      if f.hash = none ∧ f.size = size then ix.bySize.bucket size ++ [(id, f)]
      else ix.bySize.bucket size := by
  unfold register
  cases hk : HashKey.ofFingerprint? f with
  | none =>
      show (ix.bySize.add id f).bucket size = _
      rw [SizeIndex.bucket_add]
      simp only [HashKey.ofFingerprint?_eq_none_iff.mp hk, true_and]
  | some k =>
      have hashed := (HashKey.ofFingerprint?_eq_some_iff.mp hk).1
      rw [if_neg (by simp [hashed])]

theorem bucket_unregister (ix : GroupIndex) (id : GroupId) (f : Fingerprint) (size : Nat) :
    (ix.unregister id f).bySize.bucket size =
      if f.hash = none ∧ f.size = size then (ix.bySize.bucket size).filter (·.1 != id)
      else ix.bySize.bucket size := by
  unfold unregister
  cases hk : HashKey.ofFingerprint? f with
  | none =>
      show (ix.bySize.remove id f.size).bucket size = _
      rw [SizeIndex.bucket_remove]
      simp only [HashKey.ofFingerprint?_eq_none_iff.mp hk, true_and]
  | some k =>
      have hashed := (HashKey.ofFingerprint?_eq_some_iff.mp hk).1
      rw [if_neg (by simp [hashed])]
      dsimp only
      split
      · rfl
      · rfl

theorem nonempty_register (h : ∀ size, ix.bySize.buckets.find? size ≠ some []) (id : GroupId)
    (f : Fingerprint) (size : Nat) : (ix.register id f).bySize.buckets.find? size ≠ some [] := by
  unfold register
  split
  · exact h size
  · exact SizeIndex.nonempty_add h id f size

theorem nonempty_unregister (h : ∀ size, ix.bySize.buckets.find? size ≠ some []) (id : GroupId)
    (f : Fingerprint) (size : Nat) : (ix.unregister id f).bySize.buckets.find? size ≠ some [] := by
  unfold unregister
  split
  · split
    · exact h size
    · exact h size
  · exact SizeIndex.nonempty_remove h id f.size size

/-! ## What the lookups hold -/

/-- The lookups hold what is on a roster. -/
structure Files (ix : GroupIndex) (roster : List (GroupId × Member)) : Prop where
  hashed : ∀ key id, ix.byHash.find? key = some id → ∃ m, (id, m) ∈ roster ∧ m.key? = some key
  bucket : ∀ size, ix.bySize.bucket size =
    (roster.filter fun e => e.2.inBucket size).map fun e => (e.1, e.2.fingerprint)
  nonempty : ∀ size, ix.bySize.buckets.find? size ≠ some []

theorem Files.congr (h : ix.Files roster) (byHash : ix'.byHash = ix.byHash)
    (bySize : ix'.bySize = ix.bySize) : ix'.Files roster := by
  constructor
  · rw [byHash]
    exact h.hashed
  · rw [bySize]
    exact h.bucket
  · rw [bySize]
    exact h.nonempty

theorem empty_files (grouping : Bool) : (empty grouping).Files [] := by
  constructor
  · intro key id hid
    cases hid
  · intro size
    rfl
  · intro size hnil
    cases hnil

theorem Files.register (h : ix.Files roster) (id : GroupId) (m : Member) :
    (ix.register id m.fingerprint).Files (roster ++ [(id, m)]) := by
  have last : (id, m) ∈ roster ++ [(id, m)] := List.mem_append_right _ (List.mem_singleton_self _)
  have before {key : HashKey} {gid : GroupId} (hgid : ix.byHash.find? key = some gid) :
      ∃ m', (gid, m') ∈ roster ++ [(id, m)] ∧ m'.key? = some key := by
    obtain ⟨m', hm', hkey⟩ := h.hashed key gid hgid
    exact ⟨m', List.mem_append_left _ hm', hkey⟩
  constructor
  · intro key gid hgid
    rw [find?_register] at hgid
    split at hgid
    · next hkey =>
      -- A key that was held stays with its holder; one that was free is held by the new group.
      rcases Option.or_eq_some_iff.mp hgid with held | ⟨-, hnew⟩
      · exact before held
      · obtain rfl := Option.some.inj hnew
        exact ⟨m, last, hkey⟩
    · exact before hgid
  · intro size
    rw [bucket_register, h.bucket, List.filter_append, List.map_append]
    by_cases here : m.fingerprint.hash = none ∧ m.fingerprint.size = size
    · have kept : m.inBucket size = true := decide_eq_true here
      rw [if_pos here, List.filter_singleton, kept]
      rfl
    · have skipped : m.inBucket size = false := decide_eq_false here
      rw [if_neg here, List.filter_singleton, skipped]
      exact (List.append_nil _).symm
  · exact nonempty_register h.nonempty id m.fingerprint

theorem Files.unregister (h : ix.Files roster) (names : (roster.map (·.1)).Nodup) {id : GroupId}
    {m : Member} (hm : (id, m) ∈ roster) :
    (ix.unregister id m.fingerprint).Files (roster.filter (·.1 != id)) := by
  -- The roster has no other entry under this name.
  have only {e : GroupId × Member} (he : e ∈ roster) (hid : e.1 = id) : e = (id, m) :=
    List.inj_on_of_nodup_map names he hm hid
  constructor
  · intro key gid hgid
    rw [find?_unregister] at hgid
    split at hgid
    · cases hgid
    · next free =>
      obtain ⟨m', hm', hkey⟩ := h.hashed key gid hgid
      refine ⟨m', List.mem_filter.mpr ⟨hm', ?_⟩, hkey⟩
      rw [bne_iff_ne]
      rintro rfl
      obtain ⟨-, rfl⟩ := Prod.mk.inj (only hm' rfl)
      exact free ⟨hkey, hgid⟩
  · intro size
    rw [bucket_unregister, h.bucket, List.filter_filter]
    by_cases here : m.fingerprint.hash = none ∧ m.fingerprint.size = size
    · rw [if_pos here, List.filter_map, List.filter_filter]
      congr 1
      apply List.filter_congr
      intro e _
      exact Bool.and_comm _ _
    · rw [if_neg here]
      congr 1
      apply List.filter_congr
      intro e he
      by_cases hid : e.1 = id
      · have skipped : m.inBucket size = false := decide_eq_false here
        rw [only he hid, skipped, Bool.false_and]
      · rw [bne_iff_ne.mpr hid, Bool.and_true]
  · exact nonempty_unregister h.nonempty id m.fingerprint

/-! ## The lookups through a step -/

/-- The lookups hold what an observer of the groups has on the roster. -/
structure Filed (ix : GroupIndex) (roster : List (GroupId × Member)) : Prop
    extends Enrolled ix roster where
  files : ix.Files roster

/-- Whatever a command does, the lookups follow the roster. -/
theorem Filed.effect (h : ix.Filed roster) (coherent : ix'.Coherent) {new : List Member}
    (e : ix.Effect new ix') : ix'.Files (enroll roster ix') := by
  have enrolled := h.toEnrolled
  -- Neither roster nor lookups change while the groups keep their canonical members.
  have unchanged
      (canonical : ∀ id, (ix'.group? id).map Group.canonical = (ix.group? id).map Group.canonical)
      (byHash : ix'.byHash = ix.byHash) (bySize : ix'.bySize = ix.bySize) :
      ix'.Files (enroll roster ix') := by
    rw [enrolled.same coherent canonical]
    exact h.files.congr byHash bySize
  cases e with
  | kept grouping => exact unchanged (fun _ => rfl) rfl rfl
  | joined r g valid home =>
      have live := home?_spec home
      exact unchanged (canonical_of_put (g := g.push _) live rfl rfl) rfl rfl
  | started r valid homeless =>
      rw [enrolled.started coherent rfl]
      exact (h.files.register ⟨ix.nextGroup⟩ (ix.nextMember r)).congr rfl rfl
  | marked g junk live =>
      exact unchanged (canonical_of_put (g := g.mark junk) live rfl rfl) rfl rfl
  | left id g g' live member other rest =>
      have name : g'.id = g.id := (Group.detach?_spec rest).1
      have canonical := Group.canonical_of_detach rest other
      exact unchanged (canonical_of_put (name.symm ▸ live) canonical rfl) rfl rfl
  | succeeded g g' live rest =>
      rw [enrolled.succeeded coherent live rest rfl]
      have hg : (g.id, g.canonical) ∈ roster := h.mem_roster.mpr ⟨g, live, rfl⟩
      have off := h.files.unregister h.names_nodup hg
      exact (off.register g.id g'.canonical).congr rfl rfl
  | dropped g live =>
      rw [enrolled.dropped coherent rfl]
      have hg : (g.id, g.canonical) ∈ roster := h.mem_roster.mpr ⟨g, live, rfl⟩
      exact (h.files.unregister h.names_nodup hg).congr rfl rfl
  | cleared =>
      have none_left : enroll roster ix.clear = roster.filter fun _ => false := by
        apply enroll_fewer
        intro e
        exact iff_of_false List.not_mem_nil fun he => Bool.false_ne_true he.2
      rw [none_left, List.filter_false]
      exact (empty_files ix.grouping).congr rfl rfl

/-! ## Runs -/

theorem Filed.perform (h : ix.Filed roster) (c : IndexCommand) :
    (ix.perform c).Filed (enroll roster (ix.perform c)) := by
  have coherent := h.coherent.perform c
  exact ⟨h.change coherent, h.effect coherent (perform_effect h.coherent c)⟩

theorem Filed.after (h : ix.Filed roster) (commands : List IndexCommand) :
    (ix.after commands).Filed (ix.rosterFrom roster commands) := by
  induction commands generalizing ix roster with
  | nil => exact h
  | cons c rest ih => exact ih (h.perform c)

theorem empty_filed (grouping : Bool) : (empty grouping).Filed [] :=
  ⟨⟨coherent_empty grouping, .refl _⟩, empty_files grouping⟩

theorem after_filed (grouping : Bool) (commands : List IndexCommand) :
    ((empty grouping).after commands).Filed ((empty grouping).rosterFrom [] commands) :=
  (empty_filed grouping).after commands

/-! ## What is found -/

/-- A bucket holds the groups without a hash and of its size. -/
theorem Filed.mem_bucket_iff (h : ix.Filed roster) {size : Nat} {e : GroupId × Fingerprint} :
    e ∈ ix.bySize.bucket size ↔
      ∃ g ∈ ix.groups, g.hash = none ∧ g.size = size ∧ e = (g.id, fingerprintOf g) := by
  rw [h.files.bucket, List.mem_map]
  constructor
  · rintro ⟨⟨id, m⟩, hm, rfl⟩
    obtain ⟨hroster, here⟩ := List.mem_filter.mp hm
    obtain ⟨g, hg, rfl⟩ := h.mem_roster.mp hroster
    obtain ⟨hash, size⟩ := of_decide_eq_true here
    have name := id_of_group? hg
    dsimp only at name
    subst name
    exact ⟨g, mem_of_group? hg, hash, size, rfl⟩
  · rintro ⟨g, hg, hash, size, rfl⟩
    refine ⟨(g.id, g.canonical), List.mem_filter.mpr ⟨?_, decide_eq_true ⟨hash, size⟩⟩, rfl⟩
    exact h.mem_roster.mpr ⟨g, h.coherent.group?_of_mem hg, rfl⟩

theorem Filed.bucket_nodup (h : ix.Filed roster) (size : Nat) :
    (ix.bySize.bucket size).Nodup := by
  apply List.Nodup.of_map (·.1)
  rw [h.files.bucket, List.map_map]
  exact h.names_nodup.sublist (List.filter_sublist.map _)

theorem Filed.tidy (h : ix.Filed roster) : ix.bySize.Tidy := by
  refine ⟨h.files.nonempty, ?_, ?_⟩
  · intro size e he
    obtain ⟨g, -, -, hsize, rfl⟩ := h.mem_bucket_iff.mp he
    exact hsize
  · intro size e he
    obtain ⟨g, -, hash, -, rfl⟩ := h.mem_bucket_iff.mp he
    exact hash

/-- A hash and an extension lead to a group that has them. -/
theorem Filed.group_of_key (h : ix.Filed roster) {key : HashKey} {id : GroupId}
    (hid : ix.byHash.find? key = some id) :
    ∃ g, ix.group? id = some g ∧ g.canonical.key? = some key := by
  obtain ⟨m, hm, hkey⟩ := h.files.hashed key id hid
  obtain ⟨g, hg, rfl⟩ := h.mem_roster.mp hm
  exact ⟨g, hg, hkey⟩

/-- In every state the size index has one entry for each group whose canonical member has no hash,
with the fingerprint of that member and in the bucket for its size, and no others; no bucket is
empty; and every hash key leads to a group whose canonical member has that hash and extension. -/
theorem lookups_are_exact (grouping : Bool) (commands : List IndexCommand) :
    let ix := (empty grouping).after commands
    (ix.bySize.buckets.entries.flatMap (·.2)).Perm
        ((ix.groups.filter (·.hash = none)).map fun g => (g.id, fingerprintOf g)) ∧
      (∀ size bucket, (size, bucket) ∈ ix.bySize.buckets.entries →
        bucket ≠ [] ∧ ∀ e ∈ bucket, e.2.size = size) ∧
      ∀ key id, ix.byHash.find? key = some id →
        ∃ g ∈ ix.groups, g.id = id ∧ g.hash = some key.hash ∧
          Text.lower g.extension = key.extension := by
  intro ix
  have h : ix.Filed _ := after_filed grouping commands
  have nodup : ((ix.groups.filter (·.hash = none)).map fun g => (g.id, fingerprintOf g)).Nodup := by
    apply List.Nodup.of_map (·.1)
    rw [List.map_map]
    exact h.coherent.ids_nodup.sublist (List.filter_sublist.map _)
  refine ⟨?_, ?_, ?_⟩
  · -- Both lists are without repetition, so it is enough that they have the same entries.
    refine (List.perm_ext_iff_of_nodup (SizeIndex.entries_nodup h.tidy.sized h.bucket_nodup)
      nodup).mpr ?_
    intro e
    rw [SizeIndex.mem_entries_iff, List.mem_map]
    constructor
    · rintro ⟨size, he⟩
      obtain ⟨g, hg, hash, -, rfl⟩ := h.mem_bucket_iff.mp he
      exact ⟨g, List.mem_filter.mpr ⟨hg, decide_eq_true hash⟩, rfl⟩
    · rintro ⟨g, hg, rfl⟩
      obtain ⟨hg, hash⟩ := List.mem_filter.mp hg
      exact ⟨g.size, h.mem_bucket_iff.mpr ⟨g, hg, of_decide_eq_true hash, rfl, rfl⟩⟩
  · intro size bucket hb
    constructor
    · rintro rfl
      exact h.tidy.nonempty size ((SortedMap.mem_entries_iff _).mp hb)
    · intro e he
      have := SizeIndex.bucket_of_entry hb
      exact h.tidy.sized size e (this.symm ▸ he)
  · intro key id hid
    obtain ⟨g, hg, hkey⟩ := h.group_of_key hid
    obtain ⟨hash, extension⟩ := HashKey.ofFingerprint?_eq_some_iff.mp hkey
    exact ⟨g, mem_of_group? hg, id_of_group? hg, hash, extension⟩

end GroupIndex

end PeerSearch
