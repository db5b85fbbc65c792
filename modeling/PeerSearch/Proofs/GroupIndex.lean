import PeerSearch.GroupIndex
import PeerSearch.Proofs.SortedMap

/-!
# PeerSearch.Proofs.GroupIndex -- every accepted result is in exactly one group

The groups, the members that they list and the membership map are changed by separate steps of each
operation. `GroupIndex.Coherent` says how they fit together between operations; everything that a
table counts rests on it. Looking up a group is read off the list of groups: replacing, dropping and
appending a group changes what is found under one name only.
-/

namespace PeerSearch

/-! ## Members of a group -/

namespace Group

/-- The names of the members, the canonical one first. -/
def memberIds (g : Group) : List ResultId :=
  g.members.map (·.id)

theorem sourceCount_eq_length (g : Group) : g.sourceCount = g.memberIds.length := by
  simp [sourceCount, memberIds, members]

theorem sourceCount_pos (g : Group) : 0 < g.sourceCount :=
  Nat.succ_pos _

@[simp] theorem memberIds_push (g : Group) (m : Member) :
    (g.push m).memberIds = g.memberIds ++ [m.id] := by
  simp [push, memberIds, members]

@[simp] theorem sourceCount_push (g : Group) (m : Member) :
    (g.push m).sourceCount = g.sourceCount + 1 := by
  simp [push, sourceCount]

@[simp] theorem memberIds_mark (g : Group) (junk : Bool) : (g.mark junk).memberIds = g.memberIds :=
  rfl

@[simp] theorem sourceCount_mark (g : Group) (junk : Bool) :
    (g.mark junk).sourceCount = g.sourceCount := rfl

@[simp] theorem id_single (id : GroupId) (m : Member) : (single id m).id = id := rfl

/-- A group is left without a member exactly when it has no other. -/
theorem detach?_eq_none_iff (g : Group) (id : ResultId) :
    g.detach? id = none ↔ g.members.eraseP (·.id == id) = [] := by
  unfold detach?
  cases g.members.eraseP (·.id == id) <;> simp [withMembers?]

/-- Detaching takes one member out and keeps the name and the verdict. -/
theorem detach?_spec {g g' : Group} {id : ResultId} (h : g.detach? id = some g') :
    g'.id = g.id ∧ g'.userJunk = g.userJunk ∧ g'.members = g.members.eraseP (·.id == id) := by
  unfold detach? at h
  cases hm : g.members.eraseP (·.id == id) with
  | nil => simp [hm, withMembers?] at h
  | cons m rest =>
      rw [hm, withMembers?, Option.some.injEq] at h
      subst h
      exact ⟨rfl, rfl, rfl⟩

theorem memberIds_of_detach {g g' : Group} {id : ResultId} (h : g.detach? id = some g') :
    g'.memberIds = g.memberIds.erase id := by
  rw [memberIds, (detach?_spec h).2.2, memberIds, List.erase_eq_eraseP, List.eraseP_map]
  simp only [Function.comp_def, BEq.comm]

/-- A group that nothing is left of had that member only. -/
theorem memberIds_of_last {g : Group} {id : ResultId} (hid : id ∈ g.memberIds)
    (h : g.detach? id = none) : g.memberIds = [id] := by
  have gone : g.memberIds.erase id = [] := by
    rw [memberIds, List.erase_eq_eraseP, List.eraseP_map]
    simpa [Function.comp_def, BEq.comm] using (detach?_eq_none_iff g id).mp h
  have hp := List.perm_cons_erase hid
  rw [gone] at hp
  exact List.perm_singleton.mp hp

theorem sourceCount_of_last {g : Group} {id : ResultId} (hid : id ∈ g.memberIds)
    (h : g.detach? id = none) : g.sourceCount = 1 := by
  rw [sourceCount_eq_length, memberIds_of_last hid h, List.length_singleton]

theorem sourceCount_of_detach {g g' : Group} {id : ResultId} (hid : id ∈ g.memberIds)
    (h : g.detach? id = some g') : g.sourceCount = g'.sourceCount + 1 := by
  have := List.length_pos_of_mem hid
  rw [sourceCount_eq_length, sourceCount_eq_length, memberIds_of_detach h,
    List.length_erase_of_mem hid]
  omega

theorem result?_isSome_iff (g : Group) (id : ResultId) :
    (g.result? id).isSome ↔ id ∈ g.memberIds := by
  simp [result?, memberIds]

end Group

/-! ## Names of groups -/

namespace GroupIndex

/-- The names of the groups in the order of their creation. -/
def ids (ix : GroupIndex) : List GroupId :=
  ix.groups.map Group.id

theorem group?_isSome_iff (ix : GroupIndex) (id : GroupId) :
    (ix.group? id).isSome ↔ id ∈ ix.ids := by
  simp [group?, ids]

theorem group?_eq_none_iff (ix : GroupIndex) (id : GroupId) :
    ix.group? id = none ↔ id ∉ ix.ids := by
  rw [← group?_isSome_iff, Bool.not_eq_true, Option.isSome_eq_false_iff, Option.isNone_iff_eq_none]

theorem id_of_group? {ix : GroupIndex} {id : GroupId} {g : Group} (h : ix.group? id = some g) :
    g.id = id := by
  simpa using List.find?_some h

theorem mem_of_group? {ix : GroupIndex} {id : GroupId} {g : Group} (h : ix.group? id = some g) :
    g ∈ ix.groups :=
  List.mem_of_find?_eq_some h

theorem mem_ids_of_group? {ix : GroupIndex} {id : GroupId} {g : Group}
    (h : ix.group? id = some g) : id ∈ ix.ids :=
  id_of_group? h ▸ List.mem_map_of_mem (mem_of_group? h)

theorem group?_eq_some_iff {ix : GroupIndex} (hn : ix.ids.Nodup) {id : GroupId} {g : Group} :
    ix.group? id = some g ↔ g ∈ ix.groups ∧ g.id = id := by
  constructor
  · exact fun h => ⟨mem_of_group? h, id_of_group? h⟩
  · rintro ⟨hg, rfl⟩
    obtain ⟨g', hg'⟩ := Option.isSome_iff_exists.mp
      ((group?_isSome_iff ix g.id).mpr (List.mem_map_of_mem hg))
    rw [hg', List.inj_on_of_nodup_map hn (mem_of_group? hg') hg (id_of_group? hg')]

/-! ## Changes of the list of groups -/

theorem group?_congr {ix ix' : GroupIndex} (h : ix'.groups = ix.groups) (id : GroupId) :
    ix'.group? id = ix.group? id := by
  rw [group?, h, group?]

@[simp] theorem ids_putGroup (ix : GroupIndex) (g : Group) : (ix.putGroup g).ids = ix.ids := by
  simp only [ids, putGroup, List.map_map]
  refine List.map_congr_left fun h _ => ?_
  by_cases hh : h.id = g.id <;> simp [hh]

theorem group?_putGroup (ix : GroupIndex) (g : Group) (id : GroupId) :
    (ix.putGroup g).group? id =
      if g.id = id then (ix.group? id).map fun _ => g else ix.group? id := by
  unfold group? putGroup
  induction ix.groups with
  | nil => simp
  | cons h rest ih =>
      by_cases hg : g.id = id <;> by_cases hh : h.id = g.id <;> by_cases hid : h.id = id <;>
        simp_all

theorem group?_dropGroup (ix : GroupIndex) (gone id : GroupId) :
    (ix.dropGroup gone).group? id = if gone = id then none else ix.group? id := by
  unfold group? dropGroup
  rw [List.find?_filter]
  by_cases h : gone = id
  · simp [h]
  · rw [if_neg h]
    congr 1
    funext g
    by_cases hg : g.id = id <;> simp [hg, Ne.symm h]

theorem group?_append {ix ix' : GroupIndex} {g : Group} (h : ix'.groups = ix.groups ++ [g])
    (id : GroupId) :
    ix'.group? id = (ix.group? id).or (if g.id = id then some g else none) := by
  rw [group?, h, List.find?_append, group?]
  by_cases hg : g.id = id <;> simp [hg]

theorem group?_of_append {ix ix' : GroupIndex} {g : Group} (unused : ix.group? g.id = none)
    (groups : ix'.groups = ix.groups ++ [g]) (id : GroupId) :
    ix'.group? id = if g.id = id then some g else ix.group? id := by
  rw [group?_append groups]
  split
  · next heq => rw [← heq, unused, Option.none_or]
  · exact Option.or_none

theorem group?_of_drop {ix ix' : GroupIndex} {dropped : GroupId}
    (groups : ix'.groups = (ix.dropGroup dropped).groups) (id : GroupId) :
    ix'.group? id = if dropped = id then none else ix.group? id := by
  rw [group?_congr groups, group?_dropGroup]

theorem group?_of_put {ix ix' : GroupIndex} {g before : Group}
    (live : ix.group? g.id = some before) (groups : ix'.groups = (ix.putGroup g).groups)
    (id : GroupId) : ix'.group? id = if g.id = id then some g else ix.group? id := by
  rw [group?_congr groups, group?_putGroup]
  split
  · next heq => rw [← heq, live, Option.map_some]
  · rfl

/-! ## Coherence -/

/-- How groups, members and the membership map fit together. -/
structure Coherent (ix : GroupIndex) : Prop where
  /-- Groups stand in the order in which their names were handed out. -/
  increasing : ix.ids.Pairwise (·.val < ·.val)
  below : ∀ id ∈ ix.ids, id.val < ix.nextGroup
  /-- So do the members of a group; the canonical one is the earliest. -/
  membersIncreasing : ∀ gid g, ix.group? gid = some g → g.memberIds.Pairwise (·.val < ·.val)
  membersBelow : ∀ gid g, ix.group? gid = some g → ∀ id ∈ g.memberIds, id.val < ix.nextResult
  /-- The map sends a result to the group that lists it. -/
  membership : ∀ id gid,
    ix.groupOf? id = some gid ↔ ∃ g, ix.group? gid = some g ∧ id ∈ g.memberIds

theorem Coherent.ids_nodup {ix : GroupIndex} (h : ix.Coherent) : ix.ids.Nodup :=
  h.increasing.imp fun hlt heq => by simp [heq] at hlt

theorem Coherent.memberIds_nodup {ix : GroupIndex} (h : ix.Coherent) {gid : GroupId} {g : Group}
    (hg : ix.group? gid = some g) : g.memberIds.Nodup :=
  (h.membersIncreasing gid g hg).imp fun hlt heq => by simp [heq] at hlt

/-- Coherence is about the groups, the membership map and the numbers handed out, not about the
structures that groups are found by. -/
theorem Coherent.congr {ix ix' : GroupIndex} (h : ix.Coherent) (hg : ix'.groups = ix.groups)
    (hm : ix'.membership = ix.membership) (hn : ix'.nextGroup = ix.nextGroup)
    (hr : ix'.nextResult = ix.nextResult) : ix'.Coherent := by
  have ids_eq : ix'.ids = ix.ids := by rw [ids, hg, ids]
  have groupOf?_eq (id : ResultId) : ix'.groupOf? id = ix.groupOf? id := by
    rw [groupOf?, hm, groupOf?]
  constructor
  · rw [ids_eq]
    exact h.increasing
  · rw [ids_eq, hn]
    exact h.below
  · simpa only [group?_congr hg] using h.membersIncreasing
  · simpa only [group?_congr hg, hr] using h.membersBelow
  · simpa only [group?_congr hg, groupOf?_eq] using h.membership

theorem coherent_empty (grouping : Bool) : (empty grouping).Coherent := by
  constructor <;> simp [ids, empty, group?, groupOf?]

/-- A member belongs to one group only. -/
theorem Coherent.group_unique {ix : GroupIndex} (h : ix.Coherent) {id : ResultId}
    {gid gid' : GroupId} {g g' : Group} (hg : ix.group? gid = some g) (hid : id ∈ g.memberIds)
    (hg' : ix.group? gid' = some g') (hid' : id ∈ g'.memberIds) : gid = gid' := by
  have h₁ := (h.membership id gid).mpr ⟨g, hg, hid⟩
  have h₂ := (h.membership id gid').mpr ⟨g', hg', hid'⟩
  exact Option.some.inj (h₁.symm.trans h₂)

/-! ### What a step does to the groups -/

section Registration

variable (ix : GroupIndex) (id : GroupId) (f : Fingerprint)

@[simp] theorem groups_register : (ix.register id f).groups = ix.groups := by
  unfold register
  split <;> rfl

@[simp] theorem membership_register : (ix.register id f).membership = ix.membership := by
  unfold register
  split <;> rfl

@[simp] theorem nextGroup_register : (ix.register id f).nextGroup = ix.nextGroup := by
  unfold register
  split <;> rfl

@[simp] theorem nextResult_register : (ix.register id f).nextResult = ix.nextResult := by
  unfold register
  split <;> rfl

@[simp] theorem groups_unregister : (ix.unregister id f).groups = ix.groups := by
  unfold unregister
  repeat' split
  all_goals rfl

@[simp] theorem membership_unregister : (ix.unregister id f).membership = ix.membership := by
  unfold unregister
  repeat' split
  all_goals rfl

@[simp] theorem nextGroup_unregister : (ix.unregister id f).nextGroup = ix.nextGroup := by
  unfold unregister
  repeat' split
  all_goals rfl

@[simp] theorem nextResult_unregister : (ix.unregister id f).nextResult = ix.nextResult := by
  unfold unregister
  repeat' split
  all_goals rfl

end Registration

/-- The member that the next accepted result becomes. -/
def nextMember (ix : GroupIndex) (r : SearchResult) : Member :=
  ⟨⟨ix.nextResult⟩, r⟩

theorem home?_spec {ix : GroupIndex} {f : Fingerprint} {g : Group} (h : ix.home? f = some g) :
    ix.group? g.id = some g := by
  unfold home? at h
  split at h
  · obtain ⟨id, -, hid⟩ := Option.bind_eq_some_iff.mp h
    exact (id_of_group? hid).symm ▸ hid
  · exact absurd h (by simp)

theorem place_of_home {ix : GroupIndex} {r : SearchResult} {g : Group}
    (h : ix.home? (.ofResult r) = some g) :
    ix.place r =
      ({ ix.putGroup (g.push (ix.nextMember r)) with
          membership := ix.membership.insert ⟨ix.nextResult⟩ g.id
          nextResult := ix.nextResult + 1 },
        ⟨⟨ix.nextResult⟩, g.id, false⟩) := by
  simp only [place, h]
  rfl

theorem place_of_homeless {ix : GroupIndex} {r : SearchResult}
    (h : ix.home? (.ofResult r) = none) :
    ix.place r =
      ({ ix.register ⟨ix.nextGroup⟩ (.ofResult r) with
          groups := ix.groups ++ [.single ⟨ix.nextGroup⟩ (ix.nextMember r)]
          membership := ix.membership.insert ⟨ix.nextResult⟩ ⟨ix.nextGroup⟩
          nextGroup := ix.nextGroup + 1
          nextResult := ix.nextResult + 1 },
        ⟨⟨ix.nextResult⟩, ⟨ix.nextGroup⟩, true⟩) := by
  simp only [place, h]
  unfold register
  split <;> rfl

/-- The member that a result is placed as belongs to the group that is answered. -/
theorem membership_place (ix : GroupIndex) (r : SearchResult) :
    (ix.place r).1.membership =
      ix.membership.insert ⟨ix.nextResult⟩ (ix.place r).2.group := by
  cases home : ix.home? (.ofResult r) with
  | some g => rw [place_of_home home]
  | none => rw [place_of_homeless home]

theorem remove_of_unknown {ix : GroupIndex} {id : ResultId} (h : ix.groupOf? id = none) :
    ix.remove id = (ix, none) := by
  simp only [remove, h]

theorem remove_of_last {ix : GroupIndex} {id : ResultId} {g : Group} {r : SearchResult}
    (hid : ix.groupOf? id = some g.id) (hg : ix.group? g.id = some g) (hr : g.result? id = some r)
    (hd : g.detach? id = none) :
    ix.remove id =
      (({ ix with membership := ix.membership.erase id }.unregister g.id
          (fingerprintOf g)).dropGroup g.id,
        some ⟨r, g.id, true⟩) := by
  simp only [remove, hid, hg, hr, hd]

theorem remove_of_shared {ix : GroupIndex} {id : ResultId} {g g' : Group} {r : SearchResult}
    (hid : ix.groupOf? id = some g.id) (hg : ix.group? g.id = some g) (hr : g.result? id = some r)
    (hd : g.detach? id = some g') :
    ∃ ix' : GroupIndex, ix.remove id = (ix', some ⟨r, g.id, false⟩) ∧
      ix'.groups = (ix.putGroup g').groups ∧ ix'.membership = ix.membership.erase id ∧
      ix'.nextGroup = ix.nextGroup ∧ ix'.nextResult = ix.nextResult := by
  simp only [remove, hid, hg, hr, hd]
  refine ⟨_, rfl, ?_⟩
  split <;> simp [putGroup]

theorem removeGroup_of_unknown {ix : GroupIndex} {id : GroupId} (h : ix.group? id = none) :
    ix.removeGroup id = (ix, none) := by
  simp only [removeGroup, h]

theorem removeGroup_of_known {ix : GroupIndex} {id : GroupId} {g : Group}
    (h : ix.group? id = some g) :
    ix.removeGroup id =
      ({ (ix.dropGroup id).unregister id (fingerprintOf g) with
          membership := g.members.foldl (fun m member => m.erase member.id) ix.membership },
        some g) := by
  simp only [removeGroup, h]

/-! ### Coherence is kept -/

/-- Replacing a group keeps coherence when the membership map follows. -/
theorem Coherent.put {ix ix' : GroupIndex} (h : ix.Coherent) {g : Group} (g' : Group)
    (hg : ix.group? g.id = some g) (hid : g'.id = g.id)
    (groups : ix'.groups = (ix.putGroup g').groups) (nextGroup : ix'.nextGroup = ix.nextGroup)
    (nextResult : ix.nextResult ≤ ix'.nextResult)
    (increasing : g'.memberIds.Pairwise (·.val < ·.val))
    (below : ∀ id ∈ g'.memberIds, id.val < ix'.nextResult)
    (membership : ∀ id gid, ix'.groupOf? id = some gid ↔
      if g.id = gid then id ∈ g'.memberIds else ix.groupOf? id = some gid) :
    ix'.Coherent := by
  have ids_eq : ix'.ids = ix.ids := by rw [ids, groups, ← ids, ids_putGroup]
  have found (gid : GroupId) :
      ix'.group? gid = if g.id = gid then some g' else ix.group? gid := by
    rw [group?_of_put (hid.symm ▸ hg) groups, hid]
  -- Of each group that is found, it matters whether it is the new one or one from before.
  constructor
  · rw [ids_eq]
    exact h.increasing
  · rw [ids_eq, nextGroup]
    exact h.below
  · intro gid k hk
    rw [found] at hk
    split at hk
    · exact Option.some.inj hk ▸ increasing
    · exact h.membersIncreasing gid k hk
  · intro gid k hk id hkid
    rw [found] at hk
    split at hk
    · exact below id (Option.some.inj hk ▸ hkid)
    · exact (h.membersBelow gid k hk id hkid).trans_le nextResult
  · intro id gid
    rw [membership, found]
    split
    · simp
    · exact h.membership id gid

/-- Dropping a group keeps coherence when the membership map forgets its members. -/
theorem Coherent.drop {ix ix' : GroupIndex} (h : ix.Coherent) {g : Group}
    (hg : ix.group? g.id = some g) (groups : ix'.groups = (ix.dropGroup g.id).groups)
    (nextGroup : ix'.nextGroup = ix.nextGroup) (nextResult : ix'.nextResult = ix.nextResult)
    (membership : ∀ id, ix'.groupOf? id = if id ∈ g.memberIds then none else ix.groupOf? id) :
    ix'.Coherent := by
  have found := group?_of_drop groups
  have fewer : ix'.ids.Sublist ix.ids := by
    rw [ids, groups]
    exact List.filter_sublist.map _
  have kept {gid : GroupId} {k : Group} (hk : ix'.group? gid = some k) :
      g.id ≠ gid ∧ ix.group? gid = some k := by
    rw [found] at hk
    split at hk
    · cases hk
    · next hne => exact ⟨hne, hk⟩
  constructor
  · exact h.increasing.sublist fewer
  · intro id hid
    exact nextGroup ▸ h.below id (fewer.subset hid)
  · exact fun gid k hk => h.membersIncreasing gid k (kept hk).2
  · exact fun gid k hk => nextResult ▸ h.membersBelow gid k (kept hk).2
  · intro id gid
    rw [membership]
    split
    · -- A member of the dropped group is in no other group either.
      next hid =>
      refine iff_of_false (fun hnone => by cases hnone) ?_
      rintro ⟨k, hk, hmem⟩
      exact (kept hk).1 (h.group_unique hg hid (kept hk).2 hmem)
    · next hid =>
      rw [h.membership]
      constructor
      · rintro ⟨k, hk, hmem⟩
        refine ⟨k, (found gid).trans ((if_neg ?_).trans hk), hmem⟩
        rintro rfl
        exact hid (Option.some.inj (hg.symm.trans hk) ▸ hmem)
      · rintro ⟨k, hk, hmem⟩
        exact ⟨k, (kept hk).2, hmem⟩

theorem Coherent.unused_result {ix : GroupIndex} (h : ix.Coherent) {gid : GroupId} {g : Group}
    (hg : ix.group? gid = some g) : (⟨ix.nextResult⟩ : ResultId) ∉ g.memberIds :=
  fun hmem => absurd (h.membersBelow gid g hg _ hmem) (lt_irrefl _)

theorem Coherent.unused_group {ix : GroupIndex} (h : ix.Coherent) :
    ix.group? ⟨ix.nextGroup⟩ = none := by
  rw [group?_eq_none_iff]
  exact fun hmem => absurd (h.below _ hmem) (lt_irrefl _)

theorem Coherent.unmapped_result {ix : GroupIndex} (h : ix.Coherent) (gid : GroupId) :
    ix.groupOf? ⟨ix.nextResult⟩ ≠ some gid := by
  intro hold
  obtain ⟨g, hg, hmem⟩ := (h.membership _ gid).mp hold
  exact h.unused_result hg hmem

/-- A result joins its home. -/
theorem Coherent.place_of_home {ix : GroupIndex} (h : ix.Coherent) {r : SearchResult} {g : Group}
    (hh : ix.home? (.ofResult r) = some g) : (ix.place r).1.Coherent := by
  have hg : ix.group? g.id = some g := home?_spec hh
  rw [GroupIndex.place_of_home hh]
  refine h.put (g.push (ix.nextMember r)) hg rfl rfl rfl (Nat.le_succ _) ?_ ?_ ?_
  · rw [Group.memberIds_push]
    refine List.pairwise_append.mpr
      ⟨h.membersIncreasing _ g hg, List.pairwise_singleton _ _, ?_⟩
    intro id hid new hnew
    rw [List.mem_singleton.mp hnew]
    exact h.membersBelow _ g hg id hid
  · intro id hid
    rw [Group.memberIds_push, List.mem_append, List.mem_singleton] at hid
    rcases hid with hid | rfl
    · exact Nat.lt_succ_of_lt (h.membersBelow _ g hg id hid)
    · exact Nat.lt_succ_self _
  · intro id gid
    have hold := h.membership id g.id
    have hnew := h.unmapped_result gid
    simp only [groupOf?, SortedMap.find?_insert, Group.memberIds_push, List.mem_append,
      List.mem_singleton, nextMember] at hold hnew ⊢
    by_cases hid : id = ⟨ix.nextResult⟩
    · -- The new result was in no group, so the map said nothing of it.
      subst hid
      by_cases hgid : g.id = gid <;> simp [hgid, hnew]
    · rw [if_neg (Ne.symm hid)]
      by_cases hgid : g.id = gid
      · subst hgid
        simp_all
      · simp [hgid]

/-- A result starts a group of its own. -/
theorem Coherent.place_of_homeless {ix : GroupIndex} (h : ix.Coherent) {r : SearchResult}
    (hh : ix.home? (.ofResult r) = none) : (ix.place r).1.Coherent := by
  have groups : (ix.place r).1.groups =
      ix.groups ++ [.single ⟨ix.nextGroup⟩ (ix.nextMember r)] := by
    rw [GroupIndex.place_of_homeless hh]
  have nextGroup : (ix.place r).1.nextGroup = ix.nextGroup + 1 := by
    rw [GroupIndex.place_of_homeless hh]
  have nextResult : (ix.place r).1.nextResult = ix.nextResult + 1 := by
    rw [GroupIndex.place_of_homeless hh]
  have groupOf (id : ResultId) : (ix.place r).1.groupOf? id =
      if ⟨ix.nextResult⟩ = id then some ⟨ix.nextGroup⟩ else ix.groupOf? id := by
    rw [GroupIndex.place_of_homeless hh]
    exact SortedMap.find?_insert _ _ _ _
  have found (gid : GroupId) (k : Group) : (ix.place r).1.group? gid = some k ↔
      ix.group? gid = some k ∨
        gid = ⟨ix.nextGroup⟩ ∧ k = .single ⟨ix.nextGroup⟩ (ix.nextMember r) := by
    rw [group?_append groups, Group.id_single]
    by_cases hgid : ⟨ix.nextGroup⟩ = gid
    · subst hgid
      simp [h.unused_group, eq_comm]
    · simp [hgid, Ne.symm hgid]
  have memberIds_new : (Group.single ⟨ix.nextGroup⟩ (ix.nextMember r)).memberIds =
      [⟨ix.nextResult⟩] := rfl
  constructor
  · rw [ids, groups, List.map_append]
    refine List.pairwise_append.mpr ⟨h.increasing, List.pairwise_singleton _ _, ?_⟩
    intro id hid last hlast
    rw [List.mem_singleton.mp hlast]
    exact h.below id hid
  · intro id hid
    rw [ids, groups, List.map_append, List.mem_append] at hid
    rw [nextGroup]
    rcases hid with hid | hid
    · exact Nat.lt_succ_of_lt (h.below id hid)
    · rw [List.mem_singleton.mp hid]
      exact Nat.lt_succ_self _
  · intro gid k hk
    rcases (found gid k).mp hk with hk | ⟨-, rfl⟩
    · exact h.membersIncreasing gid k hk
    · exact List.pairwise_singleton _ _
  · intro gid k hk id hid
    rw [nextResult]
    rcases (found gid k).mp hk with hk | ⟨-, rfl⟩
    · exact Nat.lt_succ_of_lt (h.membersBelow gid k hk id hid)
    · rw [memberIds_new] at hid
      rw [List.mem_singleton.mp hid]
      exact Nat.lt_succ_self _
  · intro id gid
    simp only [found, groupOf]
    by_cases hid : ⟨ix.nextResult⟩ = id
    · -- The new result is in the new group, and in none of those from before.
      subst hid
      rw [if_pos rfl]
      constructor
      · rintro ⟨⟩
        exact ⟨_, .inr ⟨rfl, rfl⟩, List.mem_singleton_self _⟩
      · rintro ⟨k, hk | ⟨rfl, -⟩, hmem⟩
        · exact absurd hmem (h.unused_result hk)
        · rfl
    · rw [if_neg hid, h.membership]
      constructor
      · rintro ⟨k, hk, hmem⟩
        exact ⟨k, .inl hk, hmem⟩
      · rintro ⟨k, hk | ⟨-, rfl⟩, hmem⟩
        · exact ⟨k, hk, hmem⟩
        · rw [memberIds_new, List.mem_singleton] at hmem
          exact absurd hmem.symm hid

theorem Coherent.place {ix : GroupIndex} (h : ix.Coherent) (r : SearchResult) :
    (ix.place r).1.Coherent := by
  cases hh : ix.home? (.ofResult r) with
  | some g => exact h.place_of_home hh
  | none => exact h.place_of_homeless hh

/-- A known result is a member of its group, which has it under its name. -/
theorem Coherent.known_result {ix : GroupIndex} (h : ix.Coherent) {id : ResultId} {gid : GroupId}
    (hid : ix.groupOf? id = some gid) :
    ∃ g r, g.id = gid ∧ ix.group? g.id = some g ∧ id ∈ g.memberIds ∧ g.result? id = some r := by
  obtain ⟨g, hg, hmem⟩ := (h.membership id gid).mp hid
  obtain ⟨r, hr⟩ := Option.isSome_iff_exists.mp ((g.result?_isSome_iff id).mpr hmem)
  obtain rfl := id_of_group? hg
  exact ⟨g, r, rfl, hg, hmem, hr⟩

/-- The last result of a group goes, and the group with it. -/
theorem Coherent.remove_of_last {ix : GroupIndex} (h : ix.Coherent) {id : ResultId} {g : Group}
    {r : SearchResult} (hid : ix.groupOf? id = some g.id) (hg : ix.group? g.id = some g)
    (hr : g.result? id = some r) (hmem : id ∈ g.memberIds) (hd : g.detach? id = none) :
    (ix.remove id).1.Coherent := by
  rw [GroupIndex.remove_of_last hid hg hr hd]
  refine h.drop hg (by simp [dropGroup]) (by simp [dropGroup]) (by simp [dropGroup]) ?_
  intro other
  rw [Group.memberIds_of_last hmem hd]
  simp only [groupOf?, dropGroup, membership_unregister, SortedMap.find?_erase, List.mem_singleton]

/-- A result goes from among others. -/
theorem Coherent.remove_of_shared {ix : GroupIndex} (h : ix.Coherent) {id : ResultId}
    {g g' : Group} {r : SearchResult} (hid : ix.groupOf? id = some g.id)
    (hg : ix.group? g.id = some g) (hr : g.result? id = some r) (hd : g.detach? id = some g') :
    (ix.remove id).1.Coherent := by
  obtain ⟨ix', hrem, groups, membership, nextGroup, nextResult⟩ :=
    GroupIndex.remove_of_shared hid hg hr hd
  rw [hrem]
  have fewer : g'.memberIds.Sublist g.memberIds := by
    rw [Group.memberIds_of_detach hd]
    exact List.erase_sublist
  refine h.put g' hg (Group.detach?_spec hd).1 groups nextGroup nextResult.ge
    ((h.membersIncreasing _ g hg).sublist fewer) ?_ ?_
  · intro m hm
    exact nextResult.symm ▸ h.membersBelow _ g hg m (fewer.subset hm)
  · intro other gid
    have hother := h.membership other g.id
    rw [hg] at hother
    simp only [groupOf?, membership, SortedMap.find?_erase] at hid hother ⊢
    rw [Group.memberIds_of_detach hd, (h.memberIds_nodup hg).mem_erase_iff]
    by_cases heq : other = id
    · subst heq
      simp only [if_pos, hid, Option.some.injEq]
      simp
    · -- Any other result keeps its group; that group is this one for the members that stay.
      rw [if_neg heq]
      split
      · next hgid => subst hgid; simp_all
      · rfl

theorem Coherent.remove {ix : GroupIndex} (h : ix.Coherent) (id : ResultId) :
    (ix.remove id).1.Coherent := by
  cases hid : ix.groupOf? id with
  | none =>
      rw [remove_of_unknown hid]
      exact h
  | some gid =>
      obtain ⟨g, r, rfl, hg, hmem, hr⟩ := h.known_result hid
      cases hd : g.detach? id with
      | none => exact h.remove_of_last hid hg hr hmem hd
      | some g' => exact h.remove_of_shared hid hg hr hd

/-- Erasing keys one by one. -/
theorem find?_foldl_erase (members : List Member) (m : SortedMap ResultId GroupId) (id : ResultId) :
    (members.foldl (fun m member => m.erase member.id) m).find? id =
      if id ∈ members.map (·.id) then none else m.find? id := by
  induction members generalizing m with
  | nil => simp
  | cons member rest ih =>
      rw [List.foldl_cons, ih, SortedMap.find?_erase]
      by_cases h : id = member.id <;> simp [h]

theorem Coherent.removeGroup {ix : GroupIndex} (h : ix.Coherent) (gid : GroupId) :
    (ix.removeGroup gid).1.Coherent := by
  cases hg : ix.group? gid with
  | none =>
      rw [removeGroup_of_unknown hg]
      exact h
  | some g =>
      obtain rfl := id_of_group? hg
      rw [removeGroup_of_known hg]
      refine h.drop hg (by simp [dropGroup]) (by simp [dropGroup]) (by simp [dropGroup]) ?_
      exact fun id => find?_foldl_erase g.members ix.membership id

theorem Coherent.mark {ix : GroupIndex} (h : ix.Coherent) {g : Group}
    (hg : ix.group? g.id = some g) (junk : Bool) : (ix.putGroup (g.mark junk)).Coherent := by
  refine h.put (g.mark junk) hg rfl rfl rfl le_rfl (h.membersIncreasing _ g hg)
    (h.membersBelow _ g hg) ?_
  intro id gid
  by_cases hgid : g.id = gid
  · subst hgid
    have hid := h.membership id g.id
    rw [hg] at hid
    simpa [groupOf?, putGroup] using hid
  · rw [if_neg hgid]
    rfl

theorem Coherent.clear {ix : GroupIndex} : ix.clear.Coherent := by
  constructor <;> simp [ids, GroupIndex.clear, empty, group?, groupOf?]

/-! ### Counting -/

theorem Coherent.group?_of_mem {ix : GroupIndex} (h : ix.Coherent) {g : Group}
    (hg : g ∈ ix.groups) : ix.group? g.id = some g :=
  (group?_eq_some_iff h.ids_nodup).mpr ⟨hg, rfl⟩

/-- No result is listed twice: not within a group, nor by two groups. -/
theorem Coherent.members_nodup {ix : GroupIndex} (h : ix.Coherent) :
    (ix.groups.flatMap Group.memberIds).Nodup := by
  refine List.nodup_flatMap.mpr ⟨fun g hg => h.memberIds_nodup (h.group?_of_mem hg), ?_⟩
  refine (List.pairwise_map.mp h.increasing).imp_of_mem fun {g k} hg hk hlt => ?_
  intro id hid hid'
  have heq := h.group_unique (h.group?_of_mem hg) hid (h.group?_of_mem hk) hid'
  exact absurd hlt (heq ▸ lt_irrefl _)

/-- The map has one entry for each member of each group. -/
theorem Coherent.resultCount_eq {ix : GroupIndex} (h : ix.Coherent) :
    ix.resultCount = (ix.groups.map Group.sourceCount).sum := by
  have listed := h.members_nodup
  have same : ix.membership.keys.Perm (ix.groups.flatMap Group.memberIds) := by
    refine (List.perm_ext_iff_of_nodup ix.membership.keys_nodup listed).mpr fun id => ?_
    rw [SortedMap.mem_keys_iff, List.mem_flatMap]
    constructor
    · rintro ⟨gid, hid⟩
      obtain ⟨g, hg, hmem⟩ := (h.membership id gid).mp hid
      exact ⟨g, mem_of_group? hg, hmem⟩
    · rintro ⟨g, hg, hmem⟩
      exact ⟨g.id, (h.membership id g.id).mpr ⟨g, h.group?_of_mem hg, hmem⟩⟩
  calc ix.resultCount
      = ix.membership.keys.length := by rw [resultCount, SortedMap.size, SortedMap.keys,
          List.length_map]
    _ = (ix.groups.flatMap Group.memberIds).length := same.length_eq
    _ = (ix.groups.map Group.sourceCount).sum := by
        rw [List.length_flatMap]
        congr 2
        funext g
        exact (Group.sourceCount_eq_length g).symm

end GroupIndex

end PeerSearch
