import PeerSearch.Proofs.GroupIndex.Apart

/-!
# PeerSearch.Proofs.GroupIndex.Names -- names in use

Groups and results are named by two numbers that an index counts up and that nothing sets back, not
even clearing. For each command this module says exactly which names are in use afterwards: those
that were so and that the command does not take, and the one or two that it hands out.
-/

namespace PeerSearch

namespace GroupIndex

variable {ix ix' : GroupIndex}

/-! ## What takes a name -/

/-- The group goes with the command: its only result leaves, or the group itself, or everything. -/
def TakesGroup (ix : GroupIndex) (id : GroupId) : IndexCommand → Prop
  | .remove r => ix.membersOf id = [r]
  | .removeGroup gone => gone = id
  | .clear => True
  | _ => False

/-- The result goes with the command: it leaves itself, or its group, or everything. -/
def TakesResult (ix : GroupIndex) (r : ResultId) : IndexCommand → Prop
  | .remove gone => gone = r
  | .removeGroup id => ix.groupOf? r = some id
  | .clear => True
  | _ => False

/-! ## The numbers to hand out next -/

/-- Only a command that makes a member hands out names. -/
theorem Effect.counters (e : ix.Effect [] ix') :
    ix'.nextGroup = ix.nextGroup ∧ ix'.nextResult = ix.nextResult := by
  cases e with
  | kept | marked | left | cleared => exact ⟨rfl, rfl⟩
  | succeeded g g' live rest =>
      constructor
      · show ((ix.unregister g.id _).register g.id _).nextGroup = ix.nextGroup
        rw [nextGroup_register, nextGroup_unregister]
      · show ((ix.unregister g.id _).register g.id _).nextResult = ix.nextResult
        rw [nextResult_register, nextResult_unregister]
  | dropped g live =>
      exact ⟨nextGroup_unregister ix g.id (fingerprintOf g),
        nextResult_unregister ix g.id (fingerprintOf g)⟩

/-- What becomes of the numbers when a result is placed, and what is answered. -/
structure HandsOut (ix ix' : GroupIndex) (p : Placement) : Prop where
  result : p.result = ⟨ix.nextResult⟩
  nextResult : ix'.nextResult = ix.nextResult + 1
  group : p.created = true → p.group = ⟨ix.nextGroup⟩
  nextGroup : ix'.nextGroup = if p.created then ix.nextGroup + 1 else ix.nextGroup

theorem place_handsOut (ix : GroupIndex) (r : SearchResult) :
    ix.HandsOut (ix.place r).1 (ix.place r).2 := by
  cases home : ix.home? (.ofResult r) with
  | some g =>
      rw [place_of_home home]
      exact ⟨rfl, rfl, fun created => absurd created Bool.false_ne_true, rfl⟩
  | none =>
      rw [place_of_homeless home]
      exact ⟨rfl, rfl, fun _ => rfl, rfl⟩

/-! ## Groups in use -/

theorem mem_ids_iff_membersOf {id : GroupId} : id ∈ ix.ids ↔ ix.membersOf id ≠ [] := by
  rw [Ne, membersOf_eq_nil_iff, group?_eq_none_iff, not_not]

theorem ids_place_of_home {r : SearchResult} {g : Group} (home : ix.home? (.ofResult r) = some g) :
    (ix.place r).1.ids = ix.ids := by
  rw [place_of_home home]
  exact ix.ids_putGroup (g.push (ix.nextMember r))

theorem ids_place_of_homeless {r : SearchResult} (homeless : ix.home? (.ofResult r) = none) :
    (ix.place r).1.ids = ix.ids ++ [⟨ix.nextGroup⟩] := by
  rw [place_of_homeless homeless, ids, List.map_append]
  rfl

theorem ids_removeGroup (ix : GroupIndex) (id : GroupId) :
    (ix.removeGroup id).1.ids = ix.ids.filter (· != id) := by
  cases hg : ix.group? id with
  | none =>
      rw [removeGroup_of_unknown hg, eq_comm]
      refine List.filter_eq_self.mpr fun k hk => bne_iff_ne.mpr ?_
      rintro rfl
      exact (ix.group?_eq_none_iff k).mp hg hk
  | some g =>
      obtain rfl := id_of_group? hg
      rw [removeGroup_of_live hg, ids, dropGroup, ids, List.filter_map]
      rfl

/-- Taking a result out leaves the members of other groups alone. -/
theorem Coherent.membersOf_remove_all (h : ix.Coherent) (r : ResultId) (id : GroupId) :
    (ix.remove r).1.membersOf id = (ix.membersOf id).erase r := by
  have absent (other : ix.groupOf? r ≠ some id) : r ∉ ix.membersOf id :=
    fun member => other (h.mem_membersOf_iff.mp member)
  cases hr : ix.groupOf? r with
  | none =>
      rw [remove_of_unknown hr, List.erase_of_not_mem (absent (by rw [hr]; simp))]
  | some gid =>
      by_cases same : gid = id
      · exact same ▸ h.membersOf_remove hr
      · rw [List.erase_of_not_mem (absent (by rw [hr]; simpa using same))]
        obtain ⟨g, result, rfl, hg, member, hresult⟩ := h.known_result hr
        have elsewhere : (ix.remove r).1.group? id = ix.group? id := by
          cases hd : g.detach? r with
          | none =>
              have groups : (ix.remove r).1.groups = (ix.dropGroup g.id).groups := by
                rw [remove_of_only hr hg hresult member hd]
              rw [group?_of_drop groups, if_neg same]
          | some g' =>
              have name : g'.id = g.id := (Group.detach?_spec hd).1
              obtain ⟨ix', hremove, groups, -⟩ := GroupIndex.remove_of_shared hr hg hresult hd
              rw [hremove, group?_of_put (name.symm ▸ hg) groups, if_neg (name ▸ same)]
        rw [membersOf, elsewhere, membersOf]

theorem Coherent.mem_ids_remove (h : ix.Coherent) (r : ResultId) (id : GroupId) :
    id ∈ (ix.remove r).1.ids ↔ id ∈ ix.ids ∧ ix.membersOf id ≠ [r] := by
  rw [mem_ids_iff_membersOf, mem_ids_iff_membersOf, h.membersOf_remove_all, Ne,
    List.erase_eq_nil_iff, not_or]

theorem mem_ids_place (ix : GroupIndex) (r : SearchResult) (id : GroupId) :
    id ∈ (ix.place r).1.ids ↔
      id ∈ ix.ids ∨ ix.nextGroup ≤ id.val ∧ id.val < (ix.place r).1.nextGroup := by
  cases home : ix.home? (.ofResult r) with
  | some g =>
      have next : (ix.place r).1.nextGroup = ix.nextGroup := by
        rw [place_of_home home]
        rfl
      rw [ids_place_of_home home, next]
      exact (or_iff_left fun new => absurd new.2 (not_lt.mpr new.1)).symm
  | none =>
      have next : (ix.place r).1.nextGroup = ix.nextGroup + 1 := by rw [place_of_homeless home]
      have new : id = ⟨ix.nextGroup⟩ ↔ id.val = ix.nextGroup :=
        ⟨congrArg GroupId.val, fun same => GroupId.eq_of_val same⟩
      rw [ids_place_of_homeless home, next, List.mem_append, List.mem_singleton, new]
      exact or_congr_right (by omega)

/-- A command that makes no member hands out no name. -/
theorem Coherent.hands_out_nothing (h : ix.Coherent) {c : IndexCommand}
    (none : ix.acceptedBy c = []) (number : Nat) :
    ¬ (ix.nextGroup ≤ number ∧ number < (ix.perform c).nextGroup) ∧
      ¬ (ix.nextResult ≤ number ∧ number < (ix.perform c).nextResult) := by
  have effect := perform_effect h c
  rw [none] at effect
  rw [effect.counters.1, effect.counters.2]
  exact ⟨fun new => absurd new.2 (not_lt.mpr new.1), fun new => absurd new.2 (not_lt.mpr new.1)⟩

/-- A result that is refused changes nothing. -/
theorem perform_insert (ix : GroupIndex) (r : SearchResult) :
    (ix.acceptedBy (.insert r) = [] ∧ ix.perform (.insert r) = ix) ∨
      ix.perform (.insert r) = (ix.place r).1 := by
  cases valid : r.isValid with
  | false =>
      obtain ⟨refusal, hinsert⟩ := insert_of_invalid ix valid
      exact .inl ⟨by simp only [acceptedBy, hinsert], by simp only [perform, hinsert]⟩
  | true => exact .inr (by simp only [perform, insert_of_valid valid])

/-- The groups that are there after a command. -/
theorem Coherent.mem_ids_perform (h : ix.Coherent) (c : IndexCommand) (id : GroupId) :
    id ∈ (ix.perform c).ids ↔ id ∈ ix.ids ∧ ¬ ix.TakesGroup id c ∨
      ix.nextGroup ≤ id.val ∧ id.val < (ix.perform c).nextGroup := by
  have other (none : ix.acceptedBy c = [])
      (kept : id ∈ (ix.perform c).ids ↔ id ∈ ix.ids ∧ ¬ ix.TakesGroup id c) :
      id ∈ (ix.perform c).ids ↔ id ∈ ix.ids ∧ ¬ ix.TakesGroup id c ∨
        ix.nextGroup ≤ id.val ∧ id.val < (ix.perform c).nextGroup :=
    kept.trans (or_iff_left (h.hands_out_nothing none id.val).1).symm
  cases c with
  | insert r =>
      rcases ix.perform_insert r with ⟨none, same⟩ | placed
      · refine other none ?_
        rw [same]
        exact (and_iff_left not_false).symm
      · rw [placed]
        exact (ix.mem_ids_place r id).trans (or_congr_left (and_iff_left not_false).symm)
  | remove r => exact other rfl (h.mem_ids_remove r id)
  | removeGroup gone =>
      refine other rfl ?_
      show id ∈ (ix.removeGroup gone).1.ids ↔ id ∈ ix.ids ∧ ¬ gone = id
      rw [ids_removeGroup, List.mem_filter, bne_iff_ne, ne_comm]
  | mark k junk =>
      refine other rfl ((iff_of_eq ?_).trans (and_iff_left not_false).symm)
      rw [GroupIndex.perform]
      cases hg : ix.group? k with
      | none => rfl
      | some g => exact congrArg (id ∈ ·) (ix.ids_putGroup (g.mark junk))
  | setGrouping grouping => exact other rfl (and_iff_left not_false).symm
  | clear => exact other rfl (iff_of_false List.not_mem_nil fun kept => kept.2 trivial)

/-! ## Results in use -/

theorem Coherent.groupOf?_remove (h : ix.Coherent) (gone r : ResultId) :
    (ix.remove gone).1.groupOf? r = if r = gone then none else ix.groupOf? r := by
  cases hgone : ix.groupOf? gone with
  | none =>
      rw [remove_of_unknown hgone]
      split
      · next same => rw [same, hgone]
      · rfl
  | some gid =>
      obtain ⟨g, result, rfl, hg, -, hresult⟩ := h.known_result hgone
      have forgotten : (ix.remove gone).1.membership = ix.membership.erase gone := by
        cases hd : g.detach? gone with
        | none =>
            rw [GroupIndex.remove_of_last hgone hg hresult hd, dropGroup]
            exact membership_unregister _ g.id (fingerprintOf g)
        | some g' =>
            obtain ⟨ix', hremove, -, membership, -⟩ :=
              GroupIndex.remove_of_shared hgone hg hresult hd
            rw [hremove, membership]
      rw [groupOf?, forgotten, SortedMap.find?_erase, groupOf?]

theorem Coherent.groupOf?_removeGroup (h : ix.Coherent) (id : GroupId) (r : ResultId) :
    (ix.removeGroup id).1.groupOf? r =
      if ix.groupOf? r = some id then none else ix.groupOf? r := by
  cases hg : ix.group? id with
  | none =>
      have elsewhere : ix.groupOf? r ≠ some id := by
        intro here
        obtain ⟨g, live, -⟩ := (h.membership r id).mp here
        cases hg.symm.trans live
      rw [removeGroup_of_unknown hg, if_neg elsewhere]
  | some g =>
      have member : r ∈ g.members.map (·.id) ↔ ix.groupOf? r = some id := by
        rw [h.membership, hg]
        constructor
        · exact fun member => ⟨g, rfl, member⟩
        · rintro ⟨k, live, member⟩
          exact Option.some.inj live ▸ member
      rw [removeGroup_of_known hg, groupOf?, find?_foldl_erase, groupOf?]
      exact if_congr member rfl rfl

theorem isSome_groupOf?_place (ix : GroupIndex) (s : SearchResult) (r : ResultId) :
    ((ix.place s).1.groupOf? r).isSome ↔
      (ix.groupOf? r).isSome ∨ ix.nextResult ≤ r.val ∧ r.val < (ix.place s).1.nextResult := by
  have next := (ix.place_handsOut s).nextResult
  have new : (⟨ix.nextResult⟩ : ResultId) = r ↔
      ix.nextResult ≤ r.val ∧ r.val < ix.nextResult + 1 := by
    have number : (⟨ix.nextResult⟩ : ResultId) = r ↔ ix.nextResult = r.val :=
      ⟨congrArg ResultId.val, congrArg ResultId.mk⟩
    rw [number]
    omega
  rw [groupOf?, membership_place, SortedMap.find?_insert, next, ← groupOf?, ← new]
  split
  · next here => exact iff_of_true rfl (.inr here)
  · next other => exact (or_iff_left other).symm

/-- The results that are in a group after a command. -/
theorem Coherent.isSome_groupOf?_perform (h : ix.Coherent) (c : IndexCommand) (r : ResultId) :
    ((ix.perform c).groupOf? r).isSome ↔ (ix.groupOf? r).isSome ∧ ¬ ix.TakesResult r c ∨
      ix.nextResult ≤ r.val ∧ r.val < (ix.perform c).nextResult := by
  have other (none : ix.acceptedBy c = [])
      (kept : ((ix.perform c).groupOf? r).isSome ↔
        (ix.groupOf? r).isSome ∧ ¬ ix.TakesResult r c) :
      ((ix.perform c).groupOf? r).isSome ↔ (ix.groupOf? r).isSome ∧ ¬ ix.TakesResult r c ∨
        ix.nextResult ≤ r.val ∧ r.val < (ix.perform c).nextResult :=
    kept.trans (or_iff_left (h.hands_out_nothing none r.val).2).symm
  cases c with
  | insert s =>
      rcases ix.perform_insert s with ⟨none, same⟩ | placed
      · refine other none ?_
        rw [same]
        exact (and_iff_left not_false).symm
      · rw [placed]
        exact (ix.isSome_groupOf?_place s r).trans (or_congr_left (and_iff_left not_false).symm)
  | remove gone =>
      refine other rfl ?_
      show ((ix.remove gone).1.groupOf? r).isSome ↔ (ix.groupOf? r).isSome ∧ ¬ gone = r
      rw [h.groupOf?_remove]
      by_cases same : r = gone
      · simp [same]
      · simp [same, Ne.symm same]
  | removeGroup id =>
      refine other rfl ?_
      show ((ix.removeGroup id).1.groupOf? r).isSome ↔
        (ix.groupOf? r).isSome ∧ ¬ ix.groupOf? r = some id
      rw [h.groupOf?_removeGroup]
      by_cases here : ix.groupOf? r = some id
      · simp [here]
      · simp [here]
  | mark k junk =>
      refine other rfl ((iff_of_eq ?_).trans (and_iff_left not_false).symm)
      rw [GroupIndex.perform]
      cases ix.group? k with
      | none => rfl
      | some g => rfl
  | setGrouping grouping => exact other rfl (and_iff_left not_false).symm
  | clear => exact other rfl (iff_of_false Bool.false_ne_true fun kept => kept.2 trivial)

end GroupIndex

end PeerSearch
