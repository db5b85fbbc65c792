import PeerSearch.Proofs.GroupIndex.OnePerKey

/-!
# PeerSearch.Proofs.GroupIndex.Apart -- what an index holds apart from one group

Placing a result in a group or taking one out changes the group itself and under what it is found:
hash keys of other groups stay with them, and the other groups keep their places in the buckets. An
index from which the group is gone is settled by what it holds apart from the group, so it does not
matter in which order its results have left.
-/

namespace PeerSearch

attribute [ext] GroupIndex

namespace GroupIndex

/-! ## One group left out -/

/-- What an index holds of all groups but one. -/
@[ext]
structure Apart where
  groups : List Group
  byHash : HashKey → Option GroupId
  bySize : Nat → SizeIndex.Bucket
  membership : ResultId → Option GroupId
  grouping : Bool
  nextGroup : Nat
  nextResult : Nat

def apartFrom (ix : GroupIndex) (id : GroupId) : Apart where
  groups := ix.groups.filter (·.id != id)
  byHash key := (ix.byHash.find? key).filter (· != id)
  bySize size := (ix.bySize.bucket size).filter (·.1 != id)
  membership r := (ix.groupOf? r).filter (· != id)
  grouping := ix.grouping
  nextGroup := ix.nextGroup
  nextResult := ix.nextResult

/-- The members of the group of that name, if there is one. -/
def membersOf (ix : GroupIndex) (id : GroupId) : List ResultId :=
  (ix.group? id).elim [] Group.memberIds

variable {ix ix' : GroupIndex} {roster roster' : List (GroupId × Member)} {id : GroupId}

theorem filter_own (id : GroupId) : (some id).filter (· != id) = none :=
  Option.filter_some_neg (by simp)

theorem filter_other {found : Option GroupId} (other : found ≠ some id) :
    found.filter (· != id) = found := by
  cases found with
  | none => rfl
  | some k =>
      refine Option.filter_some_pos (bne_iff_ne.mpr ?_)
      rintro rfl
      exact other rfl

/-! ## Registration -/

theorem apartFrom_register (ix : GroupIndex) (id : GroupId) (f : Fingerprint) :
    (ix.register id f).apartFrom id = ix.apartFrom id := by
  apply Apart.ext
  · simp only [apartFrom, groups_register]
  · funext key
    simp only [apartFrom, find?_register]
    split
    · -- A key that was free is now held by the group that is left out.
      cases ix.byHash.find? key with
      | none => exact filter_own id
      | some k => rfl
    · rfl
  · funext size
    simp only [apartFrom, bucket_register]
    split
    · rw [List.filter_append, List.filter_singleton, bne_self_eq_false]
      exact List.append_nil _
    · rfl
  · funext r
    simp only [apartFrom, groupOf?, membership_register]
  · exact grouping_register ix id f
  · exact nextGroup_register ix id f
  · exact nextResult_register ix id f

theorem apartFrom_unregister (ix : GroupIndex) (id : GroupId) (f : Fingerprint) :
    (ix.unregister id f).apartFrom id = ix.apartFrom id := by
  apply Apart.ext
  · simp only [apartFrom, groups_unregister]
  · funext key
    simp only [apartFrom, find?_unregister]
    split
    · next held => rw [held.2, Option.filter_none, filter_own]
    · rfl
  · funext size
    simp only [apartFrom, bucket_unregister]
    split
    · rw [List.filter_filter]
      simp only [Bool.and_self]
    · rfl
  · funext r
    simp only [apartFrom, groupOf?, membership_unregister]
  · exact grouping_unregister ix id f
  · exact nextGroup_unregister ix id f
  · exact nextResult_unregister ix id f

/-! ## Groups and members -/

theorem filter_putGroup (ix : GroupIndex) (g : Group) :
    (ix.putGroup g).groups.filter (·.id != g.id) = ix.groups.filter (·.id != g.id) := by
  unfold putGroup
  induction ix.groups with
  | nil => rfl
  | cons h rest ih =>
      by_cases same : h.id = g.id
      · rw [List.map_cons, if_pos same, List.filter_cons_of_neg (by simp),
          List.filter_cons_of_neg (by simpa using same)]
        exact ih
      · rw [List.map_cons, if_neg same, List.filter_cons_of_pos (by simpa using same),
          List.filter_cons_of_pos (by simpa using same)]
        exact congrArg (h :: ·) ih

theorem filter_dropGroup (ix : GroupIndex) (id : GroupId) :
    (ix.dropGroup id).groups.filter (·.id != id) = ix.groups.filter (·.id != id) := by
  rw [dropGroup, List.filter_filter]
  simp only [Bool.and_self]

/-- Other groups and members, where they differ for the group that is left out. -/
theorem apartFrom_with {groups : List Group} {membership : SortedMap ResultId GroupId}
    (sameGroups : groups.filter (·.id != id) = ix.groups.filter (·.id != id))
    (sameMembers : ∀ r,
      (membership.find? r).filter (· != id) = (ix.groupOf? r).filter (· != id)) :
    { ix with groups, membership }.apartFrom id = ix.apartFrom id :=
  Apart.ext sameGroups rfl rfl (funext sameMembers) rfl rfl rfl

/-- A member that the map forgets was one of the group that is left out. -/
theorem filter_erase {r : ResultId} (hr : ix.groupOf? r = some id) (k : ResultId) :
    ((ix.membership.erase r).find? k).filter (· != id) = (ix.groupOf? k).filter (· != id) := by
  rw [SortedMap.find?_erase]
  split
  · next same =>
    subst same
    rw [hr, Option.filter_none, filter_own]
  · rfl

theorem Coherent.filter_eraseAll (h : ix.Coherent) {g : Group} (hg : ix.group? g.id = some g)
    (k : ResultId) :
    ((g.members.foldl (fun m member => m.erase member.id) ix.membership).find? k).filter
        (· != g.id) = (ix.groupOf? k).filter (· != g.id) := by
  rw [find?_foldl_erase]
  split
  · next member =>
    have own : ix.groupOf? k = some g.id := (h.membership k g.id).mpr ⟨g, hg, member⟩
    rw [own, Option.filter_none, filter_own]
  · rfl

/-! ## Taking results out of the group -/

/-- The whole group leaves. -/
theorem Coherent.apartFrom_dropped (h : ix.Coherent) {g : Group} (hg : ix.group? g.id = some g) :
    ({ ix.unregister g.id (fingerprintOf g) with
        groups := (ix.dropGroup g.id).groups
        membership := g.members.foldl (fun m member => m.erase member.id) ix.membership } :
      GroupIndex).apartFrom g.id = ix.apartFrom g.id := by
  refine (apartFrom_with ?_ fun r => ?_).trans (ix.apartFrom_unregister g.id _)
  · rw [groups_unregister]
    exact ix.filter_dropGroup g.id
  · rw [groupOf?, membership_unregister]
    exact h.filter_eraseAll hg r

theorem Coherent.apartFrom_remove (h : ix.Coherent) {r : ResultId}
    (hr : ix.groupOf? r = some id) : (ix.remove r).1.apartFrom id = ix.apartFrom id := by
  obtain ⟨g, result, rfl, hg, member, hresult⟩ := h.known_result hr
  cases hd : g.detach? r with
  | none =>
      rw [remove_of_only hr hg hresult member hd]
      exact h.apartFrom_dropped hg
  | some g' =>
      have name : g'.id = g.id := (Group.detach?_spec hd).1
      have put := ix.filter_putGroup g'
      rw [name] at put
      by_cases canonical : g.canonical.id = r
      · subst canonical
        rw [remove_of_canonical hr hg hresult hd]
        refine (apartFrom_with ?_ fun k => ?_).trans
          ((apartFrom_register _ g.id _).trans (ix.apartFrom_unregister g.id _))
        · rw [groups_register, groups_unregister]
          exact put
        · rw [groupOf?, membership_register, membership_unregister]
          exact filter_erase hr k
      · rw [remove_of_other hr hg hresult hd canonical]
        exact apartFrom_with put (filter_erase hr)

theorem Coherent.apartFrom_removeGroup (h : ix.Coherent) (id : GroupId) :
    (ix.removeGroup id).1.apartFrom id = ix.apartFrom id := by
  cases hg : ix.group? id with
  | none => rw [removeGroup_of_unknown hg]
  | some g =>
      obtain rfl := id_of_group? hg
      rw [removeGroup_of_live hg]
      exact h.apartFrom_dropped hg

/-! ### Placing a result in the group -/

/-- The map gets a member that is new, and it is one of the group that is left out. -/
theorem Coherent.filter_insert (h : ix.Coherent) (id : GroupId) (r : ResultId) :
    ((ix.membership.insert ⟨ix.nextResult⟩ id).find? r).filter (· != id) =
      (ix.groupOf? r).filter (· != id) := by
  rw [SortedMap.find?_insert]
  split
  · next new =>
    subst new
    have unmapped : ix.groupOf? ⟨ix.nextResult⟩ = none :=
      Option.eq_none_iff_forall_ne_some.mpr h.unmapped_result
    rw [unmapped, Option.filter_none, filter_own]
  · rfl

/-- A result that is placed changes its group and the names to hand out next. -/
theorem Coherent.apartFrom_place (h : ix.Coherent) (r : SearchResult) :
    (ix.place r).1.apartFrom (ix.place r).2.group =
      { ix.apartFrom (ix.place r).2.group with
        nextGroup := (ix.place r).1.nextGroup
        nextResult := (ix.place r).1.nextResult } := by
  cases hh : ix.home? (.ofResult r) with
  | some g =>
      rw [GroupIndex.place_of_home hh]
      exact Apart.ext (ix.filter_putGroup (g.push (ix.nextMember r))) rfl rfl
        (funext (h.filter_insert g.id)) rfl rfl rfl
  | none =>
      have started : (ix.groups ++ [Group.single ⟨ix.nextGroup⟩ (ix.nextMember r)]).filter
          (·.id != ⟨ix.nextGroup⟩) = ix.groups.filter (·.id != ⟨ix.nextGroup⟩) := by
        rw [List.filter_append, List.filter_singleton, Group.id_single, bne_self_eq_false]
        exact List.append_nil _
      have registered := ix.apartFrom_register ⟨ix.nextGroup⟩ (.ofResult r)
      have byHash := congrArg Apart.byHash registered
      have bySize := congrArg Apart.bySize registered
      have grouping := congrArg Apart.grouping registered
      rw [GroupIndex.place_of_homeless hh]
      exact Apart.ext started byHash bySize (funext (h.filter_insert ⟨ix.nextGroup⟩)) grouping
        rfl rfl

/-! ### Who is left in the group -/

theorem Coherent.mem_membersOf_iff (h : ix.Coherent) {r : ResultId} :
    r ∈ ix.membersOf id ↔ ix.groupOf? r = some id := by
  rw [h.membership, membersOf]
  cases ix.group? id with
  | none => simp
  | some g => simp

theorem membersOf_eq_nil_iff : ix.membersOf id = [] ↔ ix.group? id = none := by
  rw [membersOf]
  cases ix.group? id with
  | none => simp
  | some g =>
      have nonempty : g.memberIds ≠ [] := List.cons_ne_nil _ _
      simp [nonempty]

theorem Coherent.membersOf_remove (h : ix.Coherent) {r : ResultId}
    (hr : ix.groupOf? r = some id) : (ix.remove r).1.membersOf id = (ix.membersOf id).erase r := by
  obtain ⟨g, result, rfl, hg, member, hresult⟩ := h.known_result hr
  rw [membersOf, membersOf, hg, Option.elim_some]
  cases hd : g.detach? r with
  | none =>
      have groups : (ix.remove r).1.groups = (ix.dropGroup g.id).groups := by
        rw [remove_of_only hr hg hresult member hd]
      rw [group?_of_drop groups, if_pos rfl, Option.elim_none, Group.memberIds_of_last member hd,
        List.erase_cons_head]
  | some g' =>
      have name : g'.id = g.id := (Group.detach?_spec hd).1
      obtain ⟨ix', hremove, groups, -⟩ := GroupIndex.remove_of_shared hr hg hresult hd
      have left : (ix.remove r).1.group? g.id = some g' := by
        rw [hremove, group?_of_put (name.symm ▸ hg) groups, if_pos name]
      rw [left, Option.elim_some, Group.memberIds_of_detach hd]

/-! ## The index without the group -/

section Gone

variable (h : ix.Filed roster) (gone : ix.group? id = none)
include gone

theorem apartFrom_groups : (ix.apartFrom id).groups = ix.groups := by
  refine List.filter_eq_self.mpr fun g hg => ?_
  rw [bne_iff_ne]
  rintro rfl
  exact (ix.group?_eq_none_iff g.id).mp gone (List.mem_map_of_mem hg)

include h

theorem Filed.apartFrom_byHash (key : HashKey) :
    (ix.apartFrom id).byHash key = ix.byHash.find? key := by
  refine filter_other fun held => ?_
  obtain ⟨g, hg, -⟩ := h.group_of_key held
  cases gone.symm.trans hg

theorem Filed.apartFrom_bySize (size : Nat) :
    (ix.apartFrom id).bySize size = ix.bySize.bucket size := by
  refine List.filter_eq_self.mpr fun e he => ?_
  obtain ⟨g, hg, -, -, rfl⟩ := h.mem_bucket_iff.mp he
  rw [bne_iff_ne]
  rintro rfl
  exact (ix.group?_eq_none_iff g.id).mp gone (List.mem_map_of_mem hg)

theorem Filed.apartFrom_membership (r : ResultId) :
    (ix.apartFrom id).membership r = ix.groupOf? r := by
  refine filter_other fun member => ?_
  obtain ⟨g, hg, -⟩ := (h.coherent.membership r id).mp member
  cases gone.symm.trans hg

end Gone

/-- Indexes from which the group is gone are the same if they hold the same apart from it. -/
theorem Filed.eq_of_apartFrom (h : ix.Filed roster) (h' : ix'.Filed roster')
    (gone : ix.group? id = none) (gone' : ix'.group? id = none)
    (same : ix.apartFrom id = ix'.apartFrom id) : ix = ix' := by
  have groups : ix.groups = ix'.groups := by
    rw [← apartFrom_groups gone, same, apartFrom_groups gone']
  have byHash : ix.byHash = ix'.byHash := by
    refine SortedMap.ext_find? fun key => ?_
    rw [← h.apartFrom_byHash gone, same, h'.apartFrom_byHash gone']
  have bySize : ix.bySize = ix'.bySize := by
    refine SizeIndex.ext_bucket h.files.nonempty h'.files.nonempty fun size => ?_
    rw [← h.apartFrom_bySize gone, same, h'.apartFrom_bySize gone']
  have membership : ix.membership = ix'.membership := by
    refine SortedMap.ext_find? fun r => ?_
    have found := h.apartFrom_membership gone r
    rw [same, h'.apartFrom_membership gone'] at found
    exact found.symm
  exact GroupIndex.ext groups byHash bySize membership (congrArg Apart.grouping same)
    (congrArg Apart.nextGroup same) (congrArg Apart.nextResult same)

end GroupIndex

end PeerSearch
