import PeerSearch.Proofs.GroupIndex.Identity

/-!
# PeerSearch.Proofs.GroupIndex.HashKeys -- which groups are found by their hash

A hash key leads to one group, its holder. Several groups can have the key: those that were started
while grouping was off. A key is held as long as its holder is there and is forgotten with it, so a
command that takes the holder away orphans the other groups with the key. That is the only way in
which a group gets lost.
-/

namespace PeerSearch

theorem Group.key?_eq_some_iff {g : Group} {key : HashKey} :
    g.canonical.key? = some key ↔ g.hash = some key.hash ∧ Text.lower g.extension = key.extension :=
  HashKey.ofFingerprint?_eq_some_iff

namespace GroupIndex

variable {ix ix' : GroupIndex} {roster : List (GroupId × Member)}

/-! ## Keys through a step -/

theorem mem_ids_dropGroup {gone id : GroupId} :
    id ∈ (ix.dropGroup gone).ids ↔ id ∈ ix.ids ∧ id ≠ gone := by
  rw [← group?_isSome_iff, group?_dropGroup, ← group?_isSome_iff]
  by_cases h : gone = id
  · simp [h]
  · simp [h, Ne.symm h]

/-- Taking a group off the lookups forgets the keys that it holds. -/
theorem Filed.find?_unregister_held (h : ix.Filed roster) {g : Group}
    (live : ix.group? g.id = some g) {key : HashKey} {id : GroupId}
    (held : ix.byHash.find? key = some id) :
    (ix.unregister g.id (fingerprintOf g)).byHash.find? key =
      if id = g.id then none else some id := by
  rw [find?_unregister, held]
  by_cases own : id = g.id
  · subst own
    obtain ⟨holder, hg, hkey⟩ := h.group_of_key held
    obtain rfl : holder = g := Option.some.inj (hg.symm.trans live)
    rw [if_pos rfl, if_pos ⟨hkey, rfl⟩]
  · rw [if_neg own, if_neg fun both => own (Option.some.inj both.2)]

/-- A key stays with its holder as long as that is there, and is forgotten with it. -/
theorem Filed.find?_after (h : ix.Filed roster) (agreeing : ix.Agreeing) {new : List Member}
    (e : ix.Effect new ix') {key : HashKey} {id : GroupId} (held : ix.byHash.find? key = some id) :
    ix'.byHash.find? key = if id ∈ ix'.ids then some id else none := by
  obtain ⟨holder, hg, hkey⟩ := h.group_of_key held
  have here : id ∈ ix.ids := mem_ids_of_group? hg
  have stays (byHash : ix'.byHash.find? key = some id) (ids : id ∈ ix'.ids) :
      ix'.byHash.find? key = if id ∈ ix'.ids then some id else none := by
    rw [if_pos ids, byHash]
  have replaced (g : Group) : id ∈ (ix.putGroup g).ids := by
    rw [ids_putGroup]
    exact here
  cases e with
  | kept grouping => exact stays held here
  | joined r g valid home => exact stays held (replaced (g.push _))
  | started r valid homeless =>
      apply stays
      · show (ix.register ⟨ix.nextGroup⟩ (.ofResult r)).byHash.find? key = _
        rw [find?_register, held, Option.some_or, ite_self]
      · rw [ids, List.map_append]
        exact List.mem_append_left _ here
  | marked g junk live => exact stays held (replaced (g.mark junk))
  | left id g g' live member other rest => exact stays held (replaced g')
  | succeeded g g' live rest =>
      apply stays _ (replaced g')
      show ((ix.unregister g.id (fingerprintOf g)).register g.id
        (fingerprintOf g')).byHash.find? key = _
      rw [find?_register, h.find?_unregister_held live held]
      by_cases own : id = g.id
      · -- The group gives the key up and takes it back under the new canonical member.
        subst own
        obtain rfl : holder = g := Option.some.inj (hg.symm.trans live)
        have first : g'.canonical ∈ holder.members :=
          Group.mem_members_of_detach rest List.mem_cons_self
        have agrees := agreeing holder (mem_of_group? live) _ first
        have hkey' : HashKey.ofFingerprint? (fingerprintOf g') = some key :=
          (Member.key?_of_agrees agrees).symm.trans hkey
        rw [if_pos hkey', if_pos rfl, Option.none_or]
      · rw [if_neg own, Option.some_or, ite_self]
  | dropped g live =>
      show (ix.unregister g.id (fingerprintOf g)).byHash.find? key =
        if id ∈ (ix.dropGroup g.id).ids then some id else none
      rw [h.find?_unregister_held live held]
      by_cases own : id = g.id
      · rw [if_pos own, if_neg fun mem => (mem_ids_dropGroup.mp mem).2 own]
      · rw [if_neg own, if_pos (mem_ids_dropGroup.mpr ⟨here, own⟩)]
  | cleared => rfl

/-- A group that was not there before has been started with a result without a home. -/
theorem Effect.new_group {new : List Member} (e : ix.Effect new ix') {k : Group}
    (live : ix'.group? k.id = some k) (fresh : ix.group? k.id = none) :
    ∃ r, ix.home? (.ofResult r) = none ∧ k = .single ⟨ix.nextGroup⟩ (ix.nextMember r) ∧
      ix'.byHash = (ix.register ⟨ix.nextGroup⟩ (.ofResult r)).byHash := by
  have new_name : k.id ∉ ix.ids := (group?_eq_none_iff ix k.id).mp fresh
  have replaced (g : Group) : k.id ∉ (ix.putGroup g).ids := by
    rw [ids_putGroup]
    exact new_name
  have name := mem_ids_of_group? live
  cases e with
  | kept grouping => exact absurd name new_name
  | joined r g valid home => exact absurd name (replaced (g.push _))
  | started r valid homeless =>
      rw [group?_append rfl, fresh, Option.none_or] at live
      split at live
      · exact ⟨r, homeless, (Option.some.inj live).symm, rfl⟩
      · cases live
  | marked g junk live => exact absurd name (replaced (g.mark junk))
  | left id g g' live member other rest => exact absurd name (replaced g')
  | succeeded g g' live rest => exact absurd name (replaced g')
  | dropped g live => exact absurd (mem_ids_dropGroup.mp name).1 new_name
  | cleared => cases name

/-- A group has had its key before, or has been started under it. -/
theorem Agreeing.key_cases (h : ix.Agreeing) {new : List Member} (e : ix.Effect new ix') {k : Group}
    (live : ix'.group? k.id = some k) {key : HashKey} (hkey : k.canonical.key? = some key) :
    (∃ g, ix.group? k.id = some g ∧ g.canonical.key? = some key) ∨
      ∃ r, ix.home? (.ofResult r) = none ∧ HashKey.ofFingerprint? (.ofResult r) = some key ∧
        k.id = ⟨ix.nextGroup⟩ ∧ (ix'.byHash.find? key).isSome := by
  cases hg : ix.group? k.id with
  | some g =>
      obtain name : g.id = k.id := id_of_group? hg
      refine .inl ⟨g, rfl, ?_⟩
      rw [← h.same_key e (name ▸ hg) (name ▸ live), hkey]
  | none =>
      obtain ⟨r, homeless, rfl, byHash⟩ := e.new_group live hg
      have own : HashKey.ofFingerprint? (.ofResult r) = some key := hkey
      refine .inr ⟨r, homeless, own, rfl, ?_⟩
      rw [byHash, find?_register, if_pos own, Option.isSome_or, Option.isSome_some, Bool.or_true]

/-! ## Groups that are found -/

/-- Every group with a content hash is found by its hash and extension. -/
structure FindsHashed (ix : GroupIndex) : Prop where
  /-- A look-up finds a group that has them. -/
  found : ∀ g ∈ ix.groups, ∀ hash extension, g.hash = some hash →
    Text.lower g.extension = Text.lower extension →
    ∃ k ∈ ix.groups, ix.lookupHash? hash extension = some k.id ∧ k.hash = some hash ∧
      Text.lower k.extension = Text.lower extension
  /-- While grouping is on, a result that has them joins a group that is there. -/
  merged : ix.grouping = true → ∀ g ∈ ix.groups, ∀ r : SearchResult, r.isValid = true →
    r.hash ≠ none → g.hash = r.hash → Text.lower g.extension = Text.lower r.extension →
    ∃ ix' p, ix.insert r = .ok (ix', p) ∧ p.created = false ∧ p.group ∈ ix.ids

/-- The command takes away the group that a hash key leads to, while another group that has the key
stays. -/
def Orphans (ix : GroupIndex) (c : IndexCommand) : Prop :=
  ∃ key, ∃ holder ∈ ix.groups, ∃ other ∈ ix.groups,
    ix.byHash.find? key = some holder.id ∧ other.canonical.key? = some key ∧
      holder.id ∉ (ix.perform c).ids ∧ other.id ∈ (ix.perform c).ids

/-- The key of each group leads to some group. -/
def HoldsKeys (ix : GroupIndex) : Prop :=
  ∀ g ∈ ix.groups, ∀ key, g.canonical.key? = some key → (ix.byHash.find? key).isSome

theorem Filed.findsHashed_iff (h : ix.Filed roster) : ix.FindsHashed ↔ ix.HoldsKeys := by
  constructor
  · intro finds g hg key hkey
    obtain ⟨hash, extension⟩ := Group.key?_eq_some_iff.mp hkey
    obtain ⟨k, -, held, -⟩ := finds.found g hg key.hash g.extension hash rfl
    rw [lookupHash?, extension] at held
    rw [held]
    rfl
  · intro holds
    constructor
    · intro g hg hash extension hhash hextension
      have hkey : g.canonical.key? = some ⟨hash, Text.lower extension⟩ :=
        Group.key?_eq_some_iff.mpr ⟨hhash, hextension⟩
      obtain ⟨id, held⟩ := Option.isSome_iff_exists.mp (holds g hg _ hkey)
      obtain ⟨k, hk, hkey'⟩ := h.group_of_key held
      obtain rfl : k.id = id := id_of_group? hk
      obtain ⟨hash', extension'⟩ := Group.key?_eq_some_iff.mp hkey'
      exact ⟨k, mem_of_group? hk, held, hash', extension'⟩
    · intro on g hg r valid hashed hhash hextension
      obtain ⟨hash, hr⟩ := Option.ne_none_iff_exists'.mp hashed
      have hkey : g.canonical.key? = some ⟨hash, Text.lower r.extension⟩ :=
        Group.key?_eq_some_iff.mpr ⟨hhash.trans hr, hextension⟩
      obtain ⟨id, held⟩ := Option.isSome_iff_exists.mp (holds g hg _ hkey)
      obtain ⟨k, hk, -⟩ := h.group_of_key held
      have own : HashKey.ofFingerprint? (.ofResult r) = some ⟨hash, Text.lower r.extension⟩ :=
        HashKey.ofFingerprint?_eq_some_iff.mpr ⟨hr, rfl⟩
      have home : ix.home? (.ofResult r) = some k := by
        rw [home?_of_key on own, held]
        exact hk
      refine ⟨(ix.place r).1, (ix.place r).2, insert_of_valid valid, ?_⟩
      rw [place_of_home home]
      exact ⟨rfl, mem_ids_of_group? (home?_spec home)⟩

/-! ## Groups that are lost -/

/-- A command keeps the groups findable unless it orphans one. -/
theorem Filed.perform_holdsKeys_iff (h : ix.Filed roster) (agreeing : ix.Agreeing)
    (holds : ix.HoldsKeys) (c : IndexCommand) :
    (ix.perform c).HoldsKeys ↔ ¬ ix.Orphans c := by
  have e := perform_effect h.coherent c
  have coherent := h.coherent.perform c
  constructor
  · -- The key is forgotten with its holder, while the other group keeps it.
    rintro held' ⟨key, holder, hholder, other, hother, held, hkey, gone, stays⟩
    have lost : (ix.perform c).byHash.find? key = none := by
      rw [h.find?_after agreeing e held, if_neg gone]
    obtain ⟨k, hk⟩ := Option.isSome_iff_exists.mp ((group?_isSome_iff _ _).mpr stays)
    have same := agreeing.same_key e (h.coherent.group?_of_mem hother) hk
    have found := held' k (mem_of_group? hk) key (same.trans hkey)
    rw [lost] at found
    cases found
  · -- The holder of a key that was found can only be missing because it was orphaned.
    intro none_lost k hk key hkey
    have live := coherent.group?_of_mem hk
    rcases agreeing.key_cases e live hkey with ⟨g, hg, hgkey⟩ | ⟨-, -, -, -, found⟩
    · obtain ⟨id, held⟩ := Option.isSome_iff_exists.mp (holds g (mem_of_group? hg) key hgkey)
      obtain ⟨holder, hholder, -⟩ := h.group_of_key held
      have name : holder.id = id := id_of_group? hholder
      by_cases stays : id ∈ (ix.perform c).ids
      · rw [h.find?_after agreeing e held, if_pos stays]
        rfl
      · refine absurd ?_ none_lost
        refine ⟨key, holder, mem_of_group? hholder, g, mem_of_group? hg, name ▸ held, hgkey,
          name ▸ stays, ?_⟩
        rw [id_of_group? hg]
        exact mem_ids_of_group? live
    · exact found

theorem empty_holdsKeys (grouping : Bool) : (empty grouping).HoldsKeys := by
  intro g hg
  cases hg

/-- In all states of a run the groups with a content hash are found by it, if and only if no command
of the run orphans a group. -/
theorem hashed_groups_are_found_until_orphaned (grouping : Bool) (commands : List IndexCommand) :
    (∀ n, ((empty grouping).after (commands.take n)).FindsHashed) ↔
      ∀ n c, commands[n]? = some c → ¬ ((empty grouping).after (commands.take n)).Orphans c := by
  have filed (n : Nat) := after_filed grouping (commands.take n)
  have step {n : Nat} {c : IndexCommand} (hc : commands[n]? = some c)
      (holds : ((empty grouping).after (commands.take n)).HoldsKeys) :
      ((empty grouping).after (commands.take (n + 1))).HoldsKeys ↔
        ¬ ((empty grouping).after (commands.take n)).Orphans c := by
    rw [after_take_add_one _ hc]
    exact (filed n).perform_holdsKeys_iff (after_agreeing grouping _) holds c
  constructor
  · intro finds n c hc
    have holds (n : Nat) := (filed n).findsHashed_iff.mp (finds n)
    exact (step hc (holds n)).mp (holds (n + 1))
  · intro none_lost n
    rw [(filed n).findsHashed_iff]
    induction n with
    | zero => exact empty_holdsKeys grouping
    | succ n ih =>
        cases hc : commands[n]? with
        | some c => exact (step hc ih).mpr (none_lost n c hc)
        | none =>
            rw [List.take_add_one, hc, Option.toList_none, List.append_nil]
            exact ih

/-- Two groups of one hash are started while grouping is off. When the first is removed, the second
is still there but not found. -/
theorem second_group_of_hash_is_lost :
    let hash : ContentHash := ⟨List.replicate 32 'A', rfl⟩
    let first : SearchResult := { fileName := "a.mp3", size := 1, hash := some hash }
    let second : SearchResult := { fileName := "b.mp3", size := 2, hash := some hash }
    ¬ ((empty false).after [.insert first, .insert second, .remove ⟨0⟩]).FindsHashed := by
  intro hash first second finds
  have live : Group.single ⟨1⟩ ⟨⟨1⟩, second⟩ ∈
      ((empty false).after [.insert first, .insert second, .remove ⟨0⟩]).groups := by
    decide +kernel
  obtain ⟨k, -, found, -⟩ := finds.found _ live hash "mp3" rfl (by decide +kernel)
  have lost : ((empty false).after [.insert first, .insert second, .remove ⟨0⟩]).lookupHash? hash
      "mp3" = none := by
    decide +kernel
  rw [lost] at found
  cases found

end GroupIndex

end PeerSearch
