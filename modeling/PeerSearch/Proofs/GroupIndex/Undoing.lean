import PeerSearch.Proofs.GroupIndex.Names
import PeerSearch.Proofs.GroupIndex.Summaries

/-!
# PeerSearch.Proofs.GroupIndex.Undoing -- removing a result undoes inserting it

A result that has just been placed is the last member of its group. If it joined the group, what is
left is the group as it was: the members are those from before, so summing them up again gives the
summary from before. If it started the group, the group goes, and the index holds apart from it what
it held before. Only the numbers to hand out next stay counted up.
-/

namespace PeerSearch

/-! ## The member that came last -/

namespace Group

variable {g : Group} {m : Member}

/-- Without a member that has joined, a group that is summed up is the one from before. -/
theorem Summed.detach?_push (h : g.Summed) (fresh : m.id ∉ g.memberIds) :
    (g.push m).detach? m.id = some g := by
  have others : ∀ n ∈ g.members, ¬ (n.id == m.id) = true := by
    intro n hn same
    exact fresh (beq_iff_eq.mp same ▸ List.mem_map_of_mem hn)
  have left : (g.push m).members.eraseP (·.id == m.id) = g.members := by
    rw [members_push, List.eraseP_append_right _ others]
    simp
  rw [detach?, left, members, withMembers?, ← h.summary]
  rfl

theorem detach?_single (id : GroupId) (m : Member) : (single id m).detach? m.id = none := by
  rw [detach?_eq_none_iff, members_single]
  simp

end Group

namespace GroupIndex

variable {ix : GroupIndex} {roster : List (GroupId × Member)} {r : SearchResult} {g : Group}

/-- The member that a result is placed as is found in its group. -/
theorem groupOf?_placed (ix : GroupIndex) (r : SearchResult) :
    (ix.place r).1.groupOf? ⟨ix.nextResult⟩ = some (ix.place r).2.group := by
  rw [groupOf?, membership_place, SortedMap.find?_insert, if_pos rfl]

/-! ## The group that was joined -/

/-- What was put last stays. -/
theorem putGroup_putGroup (ix : GroupIndex) {g g' : Group} (same : g'.id = g.id) :
    (ix.putGroup g').putGroup g = ix.putGroup g := by
  rw [putGroup, putGroup, putGroup, List.map_map]
  congr 1
  refine List.map_congr_left fun k _ => ?_
  by_cases here : k.id = g.id
  · simp [here, same]
  · simp [here, same]

/-- Putting a group that is there changes nothing. -/
theorem Coherent.putGroup_self (h : ix.Coherent) (live : ix.group? g.id = some g) :
    ix.putGroup g = ix := by
  have own : ∀ k ∈ ix.groups, (if k.id = g.id then g else k) = k := by
    intro k hk
    split
    · next same => exact Option.some.inj ((same ▸ live).symm.trans (h.group?_of_mem hk))
    · rfl
  rw [putGroup, List.map_congr_left own, List.map_id']

/-- The result has joined a group: it is put back as it was. -/
theorem Coherent.remove_joined (h : ix.Coherent) (summed : ix.AllSummed)
    (home : ix.home? (.ofResult r) = some g) :
    (ix.place r).1.remove ⟨ix.nextResult⟩ =
      ({ ix with nextResult := ix.nextResult + 1 }, some ⟨r, g.id, false⟩) := by
  let joined := g.push (ix.nextMember r)
  have live : ix.group? g.id = some g := home?_spec home
  have fresh : (ix.nextMember r).id ∉ g.memberIds := h.unused_result live
  have other : g.canonical.id ≠ ⟨ix.nextResult⟩ := fun same =>
    fresh (List.mem_map.mpr ⟨g.canonical, List.mem_cons_self, same⟩)
  have rest : joined.detach? ⟨ix.nextResult⟩ = some g :=
    (summed g (mem_of_group? live)).detach?_push fresh
  have groups : (ix.place r).1.groups = (ix.putGroup joined).groups := by
    rw [GroupIndex.place_of_home home]
  have found : (ix.place r).1.group? joined.id = some joined := by
    rw [group?_of_put (g := joined) live groups, if_pos rfl]
  have member : (ix.place r).1.groupOf? ⟨ix.nextResult⟩ = some joined.id := by
    rw [groupOf?_placed, GroupIndex.place_of_home home]
    rfl
  have unmapped : ix.membership.find? ⟨ix.nextResult⟩ = none :=
    Option.eq_none_iff_forall_ne_some.mpr h.unmapped_result
  have name : joined.id = g.id := rfl
  have restored : ((ix.putGroup joined).putGroup g).groups = ix.groups := by
    rw [ix.putGroup_putGroup name, h.putGroup_self live]
  rw [remove_of_other member found (Group.result?_push fresh) rest other,
    GroupIndex.place_of_home home]
  refine Prod.ext (GroupIndex.ext restored rfl rfl ?_ rfl rfl rfl) rfl
  exact SortedMap.erase_insert unmapped g.id

/-! ## The group that was started -/

/-- The numbers to hand out next may be counted up. -/
theorem Filed.countUp (h : ix.Filed roster) {nextGroup nextResult : Nat}
    (groups : ix.nextGroup ≤ nextGroup) (results : ix.nextResult ≤ nextResult) :
    { ix with nextGroup, nextResult }.Filed roster := by
  have coherent : { ix with nextGroup, nextResult }.Coherent := by
    constructor
    · exact h.coherent.increasing
    · exact fun id hid => (h.coherent.below id hid).trans_le groups
    · exact h.coherent.membersIncreasing
    · exact fun id g hg m hm => (h.coherent.membersBelow id g hg m hm).trans_le results
    · exact h.coherent.membership
  exact ⟨⟨coherent, h.perm⟩, h.files.congr rfl rfl⟩

/-- The result has started a group: it goes, and nothing else had changed. -/
theorem Filed.remove_started (h : ix.Filed roster) (valid : r.isValid = true)
    (homeless : ix.home? (.ofResult r) = none) :
    (ix.place r).1.remove ⟨ix.nextResult⟩ =
      ({ ix with nextGroup := ix.nextGroup + 1, nextResult := ix.nextResult + 1 },
        some ⟨r, ⟨ix.nextGroup⟩, true⟩) := by
  let started := Group.single ⟨ix.nextGroup⟩ (ix.nextMember r)
  have placed : ix.perform (.insert r) = (ix.place r).1 := by
    rw [GroupIndex.perform, insert_of_valid valid]
  have filed := h.perform (.insert r)
  rw [placed] at filed
  have own : (ix.place r).2.group = started.id := by
    rw [GroupIndex.place_of_homeless homeless]
    rfl
  have nextGroup : (ix.place r).1.nextGroup = ix.nextGroup + 1 := by
    rw [GroupIndex.place_of_homeless homeless]
  have nextResult : (ix.place r).1.nextResult = ix.nextResult + 1 :=
    (ix.place_handsOut r).nextResult
  have groups : (ix.place r).1.groups = ix.groups ++ [started] := by
    rw [GroupIndex.place_of_homeless homeless]
  have found : (ix.place r).1.group? started.id = some started := by
    rw [group?_of_append (g := started) h.coherent.unused_group groups, if_pos rfl]
  have member : (ix.place r).1.groupOf? ⟨ix.nextResult⟩ = some started.id := by
    rw [groupOf?_placed, own]
  have answer : ((ix.place r).1.remove ⟨ix.nextResult⟩).2 =
      some ⟨r, ⟨ix.nextGroup⟩, true⟩ := by
    rw [remove_of_only member found (Group.result?_single _ _) (List.mem_singleton_self _)
      (Group.detach?_single _ _)]
    rfl
  have gone : ((ix.place r).1.remove ⟨ix.nextResult⟩).1.group? started.id = none := by
    rw [← membersOf_eq_nil_iff, filed.coherent.membersOf_remove member, membersOf, found]
    exact List.erase_cons_head (a := (⟨ix.nextResult⟩ : ResultId)) (l := [])
  have apart : (ix.place r).1.apartFrom started.id =
      { ix with nextGroup := ix.nextGroup + 1, nextResult := ix.nextResult + 1 }.apartFrom
        started.id := by
    have before := h.coherent.apartFrom_place r
    rw [own, nextGroup, nextResult] at before
    exact before
  have counted := h.countUp (Nat.le_succ ix.nextGroup) (Nat.le_succ ix.nextResult)
  have index := (filed.perform (.remove ⟨ix.nextResult⟩)).eq_of_apartFrom counted gone
    h.coherent.unused_group ((filed.coherent.apartFrom_remove member).trans apart)
  exact Prod.ext index answer

/-! ## Either way -/

/-- After any commands, on or off as grouping may be, a valid result is taken in. Taking it out
again right away answers the result itself, and that a group has gone exactly if one was created.
The index is then the one from before, with the same groups in the same order, their members,
summaries and verdicts, the same hash keys, buckets and membership; only the numbers to hand out
next stay counted up. -/
theorem removing_undoes_inserting (grouping : Bool) (commands : List IndexCommand)
    {r : SearchResult} (valid : r.isValid = true) :
    let ix := (empty grouping).after commands
    ∃ ix' p, ix.insert r = .ok (ix', p) ∧ ix.HandsOut ix' p ∧
      (p.created = true ↔ p.group ∉ ix.ids) ∧
      ix'.remove p.result =
        ({ ix with nextGroup := ix'.nextGroup, nextResult := ix'.nextResult },
          some ⟨r, p.group, p.created⟩) := by
  intro ix
  have filed : ix.Filed _ := after_filed grouping commands
  refine ⟨(ix.place r).1, (ix.place r).2, insert_of_valid valid, ix.place_handsOut r, ?_⟩
  cases home : ix.home? (.ofResult r) with
  | some g =>
      have joined := filed.coherent.remove_joined (after_allSummed grouping commands) home
      rw [GroupIndex.place_of_home home] at joined ⊢
      have old : g.id ∈ ix.ids := mem_ids_of_group? (home?_spec home)
      exact ⟨iff_of_false Bool.false_ne_true (not_not.mpr old), joined⟩
  | none =>
      have started := filed.remove_started valid home
      rw [GroupIndex.place_of_homeless home] at started ⊢
      have new : (⟨ix.nextGroup⟩ : GroupId) ∉ ix.ids :=
        (ix.group?_eq_none_iff _).mp filed.coherent.unused_group
      exact ⟨iff_of_true rfl new, started⟩

/-- A second group of one hash is started while grouping is off. It goes with its result, and the
hash leads to the first group as it did. -/
theorem removing_undoes_inserting_of_shared_hash :
    let hash : ContentHash := ⟨List.replicate 32 'A', rfl⟩
    let first : SearchResult := { fileName := "a.mp3", size := 1, hash := some hash }
    let second : SearchResult := { fileName := "b.mp3", size := 2, hash := some hash }
    let ix := (empty true).after [.insert first, .setGrouping false]
    ∃ ix' p, ix.insert second = .ok (ix', p) ∧
      (ix'.remove p.result).2 = some ⟨second, p.group, true⟩ ∧
      (ix'.remove p.result).1.groups = ix.groups ∧
      (ix'.remove p.result).1.lookupHash? hash "mp3" = some ⟨0⟩ := by
  intro hash first second ix
  have valid : second.isValid = true := by decide +kernel
  obtain ⟨ix', p, inserted, -, created, undone⟩ :=
    removing_undoes_inserting true [.insert first, .setGrouping false] valid
  have placed : ix.place second = (ix', p) :=
    Except.ok.inj ((insert_of_valid valid).symm.trans inserted)
  have started : p.created = true := by
    have homeless : (ix.place second).2.created = true := by decide +kernel
    rwa [placed] at homeless
  have held : ix.lookupHash? hash "mp3" = some ⟨0⟩ := by decide +kernel
  refine ⟨ix', p, inserted, ?_, ?_, ?_⟩
  · rw [undone, started]
  · rw [undone]
  · rw [undone]
    exact held

end GroupIndex

end PeerSearch
