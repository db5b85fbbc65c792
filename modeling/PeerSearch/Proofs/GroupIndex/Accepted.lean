import PeerSearch.Proofs.GroupIndex.Effect

/-!
# PeerSearch.Proofs.GroupIndex.Accepted -- what goes in comes out

Every member of a group was made by an insert, under an identifier that no other insert answers; so a
result that is taken back out is the one that went in under its identifier. With the coherence of
groups and membership this settles where each accepted result is, and that taking out what is not
there changes nothing.
-/

namespace PeerSearch

/-! ## Members of a group -/

namespace Group

@[simp] theorem members_push (g : Group) (m : Member) : (g.push m).members = g.members ++ [m] := by
  simp [push, members]

@[simp] theorem members_mark (g : Group) (junk : Bool) : (g.mark junk).members = g.members := rfl

@[simp] theorem members_single (id : GroupId) (m : Member) : (single id m).members = [m] := rfl

/-- The results of the members, that of the canonical one first. -/
def results (g : Group) : List SearchResult :=
  g.members.map (·.result)

theorem mem_results_iff {g : Group} {r : SearchResult} :
    r ∈ g.results ↔ ∃ m ∈ g.members, m.result = r :=
  List.mem_map

@[simp] theorem results_push (g : Group) (m : Member) :
    (g.push m).results = g.results ++ [m.result] := by
  simp [results]

@[simp] theorem results_single (id : GroupId) (m : Member) : (single id m).results = [m.result] :=
  rfl

theorem mem_members_of_detach {g g' : Group} {id : ResultId} (h : g.detach? id = some g')
    {m : Member} (hm : m ∈ g'.members) : m ∈ g.members := by
  rw [(detach?_spec h).2.2] at hm
  exact List.mem_of_mem_eraseP hm

/-- A result of a group belongs to the member of that name. -/
theorem mem_of_result? {g : Group} {id : ResultId} {r : SearchResult} (h : g.result? id = some r) :
    ⟨id, r⟩ ∈ g.members := by
  unfold result? at h
  obtain ⟨m, hm, rfl⟩ := Option.map_eq_some_iff.mp h
  have named : m.id = id := by simpa using List.find?_some hm
  rw [← named]
  exact List.mem_of_find?_eq_some hm

theorem result?_single (id : GroupId) (m : Member) :
    (single id m).result? m.id = some m.result := by
  simp [result?]

/-- A group has a new member under the name that the member has. -/
theorem result?_push {g : Group} {m : Member} (fresh : m.id ∉ g.memberIds) :
    (g.push m).result? m.id = some m.result := by
  have others : g.members.find? (·.id == m.id) = none := by
    refine List.find?_eq_none.mpr fun other hother same => fresh ?_
    rw [← beq_iff_eq.mp same]
    exact List.mem_map_of_mem hother
  rw [result?, members_push, List.find?_append, others, Option.none_or, List.find?_singleton,
    beq_self_eq_true, if_pos rfl]
  rfl

end Group

namespace GroupIndex

variable {ix ix' : GroupIndex}

/-! ## Members of all groups -/

theorem mem_putGroup {g k : Group} (h : k ∈ (ix.putGroup g).groups) : k = g ∨ k ∈ ix.groups := by
  obtain ⟨before, hbefore, rfl⟩ := List.mem_map.mp h
  split
  · exact .inl rfl
  · exact .inr hbefore

/-- A command adds no members but those that it makes. -/
theorem Effect.mem_of_mem {new : List Member} (e : ix.Effect new ix') {k : Group}
    (hk : k ∈ ix'.groups) {m : Member} (hm : m ∈ k.members) :
    (∃ g ∈ ix.groups, m ∈ g.members) ∨ m ∈ new := by
  cases e with
  | kept grouping => exact .inl ⟨k, hk, hm⟩
  | joined r g valid home =>
      rcases mem_putGroup hk with rfl | hk
      · rw [Group.members_push, List.mem_append] at hm
        rcases hm with hm | hm
        · exact .inl ⟨g, mem_of_group? (home?_spec home), hm⟩
        · exact .inr hm
      · exact .inl ⟨k, hk, hm⟩
  | started r valid homeless =>
      rcases List.mem_append.mp hk with hk | hk
      · exact .inl ⟨k, hk, hm⟩
      · rw [List.mem_singleton.mp hk] at hm
        exact .inr hm
  | marked g junk live =>
      rcases mem_putGroup hk with rfl | hk
      · exact .inl ⟨g, mem_of_group? live, hm⟩
      · exact .inl ⟨k, hk, hm⟩
  | left id g g' live member other rest =>
      rcases mem_putGroup hk with rfl | hk
      · exact .inl ⟨g, mem_of_group? live, Group.mem_members_of_detach rest hm⟩
      · exact .inl ⟨k, hk, hm⟩
  | succeeded g g' live rest =>
      rcases mem_putGroup hk with rfl | hk
      · exact .inl ⟨g, mem_of_group? live, Group.mem_members_of_detach rest hm⟩
      · exact .inl ⟨k, hk, hm⟩
  | dropped g live => exact .inl ⟨k, List.mem_of_mem_filter hk, hm⟩
  | cleared => cases hk

/-- A command that makes a member gives it the next identifier. -/
theorem Effect.made {new : List Member} (e : ix.Effect new ix') :
    (new = [] ∧ ix'.nextResult = ix.nextResult) ∨
      ∃ r, new = [ix.nextMember r] ∧ ix'.nextResult = ix.nextResult + 1 := by
  cases e with
  | joined r g valid home => exact .inr ⟨r, rfl, rfl⟩
  | started r valid homeless => exact .inr ⟨r, rfl, rfl⟩
  | succeeded g g' live rest =>
      refine .inl ⟨rfl, ?_⟩
      show ((ix.unregister g.id _).register g.id _).nextResult = ix.nextResult
      rw [nextResult_register, nextResult_unregister]
  | dropped g live =>
      exact .inl ⟨rfl, nextResult_unregister ix g.id (fingerprintOf g)⟩
  | _ => exact .inl ⟨rfl, rfl⟩

/-! ## The record of a run -/

/-- The members of all groups are among those that were made, each of which has its own name. -/
structure Recorded (ix : GroupIndex) (made : List Member) : Prop where
  coherent : ix.Coherent
  members : ∀ g ∈ ix.groups, ∀ m ∈ g.members, m ∈ made
  below : ∀ m ∈ made, m.id.val < ix.nextResult
  unique : (made.map Member.id).Nodup

theorem Recorded.perform {made : List Member} (h : ix.Recorded made) (c : IndexCommand) :
    (ix.perform c).Recorded (made ++ ix.acceptedBy c) := by
  have e := perform_effect h.coherent c
  have members : ∀ g ∈ (ix.perform c).groups, ∀ m ∈ g.members, m ∈ made ++ ix.acceptedBy c := by
    intro k hk m hm
    rcases e.mem_of_mem hk hm with ⟨g, hg, hm⟩ | hm
    · exact List.mem_append_left _ (h.members g hg m hm)
    · exact List.mem_append_right _ hm
  -- The identifiers already given lie below the next one.
  rcases e.made with ⟨new, next⟩ | ⟨r, new, next⟩
  · refine ⟨h.coherent.perform c, members, ?_, ?_⟩
    · rw [new, List.append_nil, next]
      exact h.below
    · rw [new, List.append_nil]
      exact h.unique
  · refine ⟨h.coherent.perform c, members, ?_, ?_⟩
    · intro m hm
      rw [new, List.mem_append, List.mem_singleton] at hm
      rw [next]
      rcases hm with hm | rfl
      · exact Nat.lt_succ_of_lt (h.below m hm)
      · exact Nat.lt_succ_self _
    · rw [new, List.map_append]
      refine List.nodup_append.mpr ⟨h.unique, List.nodup_singleton _, ?_⟩
      intro id hid id' hid'
      obtain ⟨m, hm, rfl⟩ := List.mem_map.mp hid
      rw [List.mem_singleton.mp hid']
      intro heq
      have := h.below m hm
      rw [heq] at this
      exact lt_irrefl _ this

theorem Recorded.after {made : List Member} (h : ix.Recorded made) (commands : List IndexCommand) :
    (ix.after commands).Recorded (made ++ ix.accepted commands) := by
  induction commands generalizing ix made with
  | nil =>
      rw [accepted, List.append_nil]
      exact h
  | cons c rest ih =>
      rw [accepted, ← List.append_assoc]
      exact ih (h.perform c)

theorem empty_recorded (grouping : Bool) : (empty grouping).Recorded [] := by
  refine ⟨coherent_empty grouping, ?_, ?_, List.nodup_nil⟩
  · intro g hg
    cases hg
  · intro m hm
    cases hm

/-! ## Taking out -/

/-- What a removal answers, and that it changes nothing when it answers nothing. -/
theorem Coherent.remove_cases (h : ix.Coherent) (id : ResultId) :
    (ix.remove id = (ix, none) ∧ ¬ ∃ g ∈ ix.groups, id ∈ g.memberIds) ∨
      ∃ g ∈ ix.groups, ∃ d, id ∈ g.memberIds ∧ (ix.remove id).2 = some d ∧
        ⟨id, d.result⟩ ∈ g.members := by
  cases hid : ix.groupOf? id with
  | none =>
      refine .inl ⟨remove_of_unknown hid, ?_⟩
      rintro ⟨g, hg, hmem⟩
      have := (h.membership id g.id).mpr ⟨g, h.group?_of_mem hg, hmem⟩
      rw [hid] at this
      cases this
  | some gid =>
      obtain ⟨g, r, rfl, hg, hmem, hr⟩ := h.known_result hid
      have made := Group.mem_of_result? hr
      refine .inr ⟨g, mem_of_group? hg, ?_⟩
      cases hd : g.detach? id with
      | none =>
          rw [GroupIndex.remove_of_last hid hg hr hd]
          exact ⟨_, hmem, rfl, made⟩
      | some g' =>
          obtain ⟨ix', hrem, -⟩ := GroupIndex.remove_of_shared hid hg hr hd
          rw [hrem]
          exact ⟨_, hmem, rfl, made⟩

/-- In every state the accepted results are divided among the groups, each being a member of exactly
one; names grow from earlier to later groups and members, the first member of a group is its
earliest, and what is taken back out is what went in under that name. -/
theorem results_in_one_group_each (grouping : Bool) (commands : List IndexCommand) :
    let ix := (empty grouping).after commands
    let made := (empty grouping).accepted commands
    (∀ id gid, ix.groupOf? id = some gid ↔ ∃ g ∈ ix.groups, g.id = gid ∧ id ∈ g.memberIds) ∧
      (ix.groups.flatMap Group.memberIds).Nodup ∧
      (∀ g ∈ ix.groups, g.memberIds.Pairwise (·.val < ·.val) ∧
        g.memberIds.head? = some g.canonical.id ∧
        ∀ id ∈ g.memberIds, g.canonical.id.val ≤ id.val) ∧
      ix.ids.Pairwise (·.val < ·.val) ∧
      (∀ g ∈ ix.groups, g.id.val < ix.nextGroup ∧ ∀ id ∈ g.memberIds, id.val < ix.nextResult) ∧
      ix.resultCount = (ix.groups.map Group.sourceCount).sum ∧
      (made.map Member.id).Nodup ∧
      (∀ id, (ix.remove id).2.isSome ↔ ∃ g ∈ ix.groups, id ∈ g.memberIds) ∧
      (∀ id d, (ix.remove id).2 = some d → ⟨id, d.result⟩ ∈ made) ∧
      (∀ id, (ix.remove id).2 = none → (ix.remove id).1 = ix) ∧
      ∀ gid, (ix.removeGroup gid).2 = none → (ix.removeGroup gid).1 = ix := by
  intro ix made
  have recorded : ix.Recorded made := (empty_recorded grouping).after commands
  have h := recorded.coherent
  refine ⟨?_, h.members_nodup, ?_, h.increasing, ?_, h.resultCount_eq, recorded.unique, ?_, ?_, ?_,
    ?_⟩
  · intro id gid
    rw [h.membership]
    constructor
    · rintro ⟨g, hg, hmem⟩
      exact ⟨g, mem_of_group? hg, id_of_group? hg, hmem⟩
    · rintro ⟨g, hg, rfl, hmem⟩
      exact ⟨g, h.group?_of_mem hg, hmem⟩
  · intro g hg
    have increasing := h.membersIncreasing g.id g (h.group?_of_mem hg)
    refine ⟨increasing, rfl, ?_⟩
    intro id hid
    rcases List.mem_cons.mp hid with rfl | hid
    · exact le_rfl
    · exact ((List.pairwise_cons.mp increasing).1 id hid).le
  · intro g hg
    exact ⟨h.below g.id (List.mem_map_of_mem hg), h.membersBelow g.id g (h.group?_of_mem hg)⟩
  · intro id
    rcases h.remove_cases id with ⟨hrem, absent⟩ | ⟨g, hg, d, hmem, hrem, -⟩
    · rw [hrem]
      exact iff_of_false (by simp) absent
    · rw [hrem]
      exact iff_of_true rfl ⟨g, hg, hmem⟩
  · intro id d hd
    rcases h.remove_cases id with ⟨hrem, -⟩ | ⟨g, hg, d', -, hrem, hmem⟩
    · rw [hrem] at hd
      cases hd
    · rw [Option.some.inj (hd.symm.trans hrem)]
      exact recorded.members g hg _ hmem
  · intro id hnone
    rcases h.remove_cases id with ⟨hrem, -⟩ | ⟨g, -, d, -, hrem, -⟩
    · rw [hrem]
    · rw [hrem] at hnone
      cases hnone
  · intro gid hnone
    cases hg : ix.group? gid with
    | none => rw [removeGroup_of_unknown hg]
    | some g =>
        rw [removeGroup_of_known hg] at hnone
        cases hnone

end GroupIndex

end PeerSearch
