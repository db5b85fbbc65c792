import PeerSearch.Proofs.GroupIndex.Effect

/-!
# PeerSearch.Proofs.GroupIndex.Roster -- the groups in the order of registration

A group is registered under its canonical member: when it is started, and again when another member
becomes the canonical one. The roster lists the groups with their canonical members in the order of
registration. It is kept by an observer of the groups, who knows nothing of the lookups: after a
command, what still stands keeps its place, and what is new comes last.
-/

namespace PeerSearch

/-- The group keeps its canonical member when another one leaves. -/
theorem Group.canonical_of_detach {g g' : Group} {id : ResultId} (h : g.detach? id = some g')
    (other : g.canonical.id ≠ id) : g'.canonical = g.canonical := by
  have members := (detach?_spec h).2.2
  rw [Group.members, Group.members, List.eraseP_cons_of_neg (by simpa using other)] at members
  exact (List.cons.inj members).1

namespace GroupIndex

variable {ix ix' : GroupIndex} {roster : List (GroupId × Member)}

/-! ## The roster -/

/-- The groups, each with its canonical member. -/
def standing (ix : GroupIndex) : List (GroupId × Member) :=
  ix.groups.map fun g => (g.id, g.canonical)

/-- The roster over a changed index: what still stands keeps its place, and what is new comes
last. -/
def enroll (roster : List (GroupId × Member)) (ix : GroupIndex) : List (GroupId × Member) :=
  roster.filter (· ∈ ix.standing) ++ ix.standing.filter (· ∉ roster)

/-- The roster after some commands. -/
def rosterFrom (ix : GroupIndex) (roster : List (GroupId × Member)) :
    List IndexCommand → List (GroupId × Member)
  | [] => roster
  | c :: rest => (ix.perform c).rosterFrom (enroll roster (ix.perform c)) rest

theorem names_standing (ix : GroupIndex) : ix.standing.map (·.1) = ix.ids := by
  rw [standing, List.map_map, ids]
  rfl

theorem Coherent.standing_nodup (h : ix.Coherent) : ix.standing.Nodup := by
  apply List.Nodup.of_map (·.1)
  rw [names_standing]
  exact h.ids_nodup

theorem Coherent.mem_standing (h : ix.Coherent) {e : GroupId × Member} :
    e ∈ ix.standing ↔ ∃ g, ix.group? e.1 = some g ∧ g.canonical = e.2 := by
  constructor
  · intro he
    obtain ⟨g, hg, rfl⟩ := List.mem_map.mp he
    exact ⟨g, h.group?_of_mem hg, rfl⟩
  · rintro ⟨g, hg, hc⟩
    refine List.mem_map.mpr ⟨g, mem_of_group? hg, ?_⟩
    rw [id_of_group? hg, hc]

/-- A roster of groups that were there once becomes one of those that are there now. -/
theorem enroll_perm (hroster : roster.Nodup) (hstanding : ix.standing.Nodup) :
    (enroll roster ix).Perm ix.standing := by
  have disjoint : ∀ e ∈ roster.filter (· ∈ ix.standing),
      ∀ e' ∈ ix.standing.filter (· ∉ roster), e ≠ e' := by
    rintro e he e' he' rfl
    exact of_decide_eq_true (List.mem_filter.mp he').2 (List.mem_of_mem_filter he)
  have nodup : (enroll roster ix).Nodup :=
    List.nodup_append.mpr ⟨hroster.filter _, hstanding.filter _, disjoint⟩
  refine (List.perm_ext_iff_of_nodup nodup hstanding).mpr ?_
  intro e
  simp only [enroll, List.mem_append, List.mem_filter, decide_eq_true_eq]
  by_cases he : e ∈ roster
  · simp [he]
  · simp [he]

/-- While nothing new stands, the roster only loses entries. -/
theorem enroll_fewer {kept : GroupId × Member → Bool}
    (h : ∀ e, e ∈ ix.standing ↔ e ∈ roster ∧ kept e = true) :
    enroll roster ix = roster.filter kept := by
  have comes : ix.standing.filter (· ∉ roster) = [] := by
    rw [List.filter_eq_nil_iff]
    intro e he
    rw [decide_eq_true_eq, not_not]
    exact ((h e).mp he).1
  rw [enroll, comes, List.append_nil]
  apply List.filter_congr
  intro e he
  rw [Bool.eq_iff_iff, decide_eq_true_eq, h, and_iff_right he]

/-- One new entry comes after those that are kept. -/
theorem enroll_one_more {kept : GroupId × Member → Bool} {x : GroupId × Member}
    (nodup : ix.standing.Nodup) (fresh : x ∉ roster)
    (h : ∀ e, e ∈ ix.standing ↔ (e ∈ roster ∧ kept e = true) ∨ e = x) :
    enroll roster ix = roster.filter kept ++ [x] := by
  have comes : ix.standing.filter (· ∉ roster) = [x] := by
    apply List.perm_singleton.mp
    refine (List.perm_ext_iff_of_nodup (nodup.filter _) (List.nodup_singleton x)).mpr ?_
    intro e
    rw [List.mem_filter, List.mem_singleton, decide_eq_true_eq, h]
    constructor
    · rintro ⟨⟨he, -⟩ | heq, hnot⟩
      · exact absurd he hnot
      · exact heq
    · rintro rfl
      exact ⟨.inr rfl, fresh⟩
  rw [enroll, comes]
  congr 1
  apply List.filter_congr
  intro e he
  have other : e ≠ x := fun heq => fresh (heq ▸ he)
  rw [Bool.eq_iff_iff, decide_eq_true_eq, h, or_iff_left other, and_iff_right he]

/-! ## The roster after a change -/

/-- The roster lists the groups with their canonical members. -/
structure Enrolled (ix : GroupIndex) (roster : List (GroupId × Member)) : Prop where
  coherent : ix.Coherent
  perm : roster.Perm ix.standing

theorem Enrolled.names_nodup (h : ix.Enrolled roster) : (roster.map (·.1)).Nodup := by
  rw [(h.perm.map _).nodup_iff, names_standing]
  exact h.coherent.ids_nodup

theorem Enrolled.mem_roster (h : ix.Enrolled roster) {e : GroupId × Member} :
    e ∈ roster ↔ ∃ g, ix.group? e.1 = some g ∧ g.canonical = e.2 := by
  rw [h.perm.mem_iff, h.coherent.mem_standing]

theorem Enrolled.change (h : ix.Enrolled roster) (coherent : ix'.Coherent) :
    ix'.Enrolled (enroll roster ix') :=
  ⟨coherent, enroll_perm h.names_nodup.of_map coherent.standing_nodup⟩

/-- While the groups keep their canonical members, the roster stays as it is. -/
theorem Enrolled.same (h : ix.Enrolled roster) (coherent : ix'.Coherent)
    (canonical : ∀ id, (ix'.group? id).map Group.canonical = (ix.group? id).map Group.canonical) :
    enroll roster ix' = roster := by
  have same (e : GroupId × Member) : e ∈ ix'.standing ↔ e ∈ roster ∧ true = true := by
    rw [coherent.mem_standing, h.mem_roster, ← Option.map_eq_some_iff, canonical,
      Option.map_eq_some_iff, and_iff_left rfl]
  rw [enroll_fewer same, List.filter_true]

/-- Replacing a group by one with the same canonical member. -/
theorem canonical_of_put {g before : Group} (live : ix.group? g.id = some before)
    (same : g.canonical = before.canonical) (groups : ix'.groups = (ix.putGroup g).groups)
    (id : GroupId) :
    (ix'.group? id).map Group.canonical = (ix.group? id).map Group.canonical := by
  rw [group?_of_put live groups]
  split
  · next heq => rw [← heq, live, Option.map_some, Option.map_some, same]
  · rfl

/-- A new group comes last. -/
theorem Enrolled.started (h : ix.Enrolled roster) (coherent : ix'.Coherent) {m : Member}
    (groups : ix'.groups = ix.groups ++ [.single ⟨ix.nextGroup⟩ m]) :
    enroll roster ix' = roster ++ [(⟨ix.nextGroup⟩, m)] := by
  have unused := h.coherent.unused_group
  have found := group?_of_append (g := .single ⟨ix.nextGroup⟩ m) unused groups
  have fresh : (⟨ix.nextGroup⟩, m) ∉ roster := by
    rw [h.mem_roster]
    rintro ⟨g, hg, -⟩
    rw [unused] at hg
    cases hg
  have mem (e : GroupId × Member) :
      e ∈ ix'.standing ↔ (e ∈ roster ∧ true = true) ∨ e = (⟨ix.nextGroup⟩, m) := by
    rw [coherent.mem_standing, h.mem_roster, found, and_iff_left rfl]
    by_cases he : ⟨ix.nextGroup⟩ = e.1
    · rw [Group.id_single, if_pos he, ← he, unused]
      constructor
      · rintro ⟨g, hg, hc⟩
        rw [← Option.some.inj hg] at hc
        exact .inr (Prod.ext he.symm hc.symm)
      · rintro (⟨g, hg, -⟩ | rfl)
        · cases hg
        · exact ⟨_, rfl, rfl⟩
    · rw [Group.id_single, if_neg he]
      refine (or_iff_left ?_).symm
      rintro rfl
      exact he rfl
  rw [enroll_one_more coherent.standing_nodup fresh mem, List.filter_true]

/-- A group that is dropped is struck off. -/
theorem Enrolled.dropped (h : ix.Enrolled roster) (coherent : ix'.Coherent) {id : GroupId}
    (groups : ix'.groups = (ix.dropGroup id).groups) :
    enroll roster ix' = roster.filter (·.1 != id) := by
  apply enroll_fewer
  intro e
  rw [coherent.mem_standing, h.mem_roster, group?_of_drop groups, bne_iff_ne]
  by_cases he : id = e.1
  · simp [he]
  · simp [he, Ne.symm he]

/-- A group that gets another canonical member goes to the end. -/
theorem Enrolled.succeeded (h : ix.Enrolled roster) (coherent : ix'.Coherent) {g g' : Group}
    (live : ix.group? g.id = some g) (rest : g.detach? g.canonical.id = some g')
    (groups : ix'.groups = (ix.putGroup g').groups) :
    enroll roster ix' = roster.filter (·.1 != g.id) ++ [(g.id, g'.canonical)] := by
  have name : g'.id = g.id := (Group.detach?_spec rest).1
  have found := group?_of_put (name.symm ▸ live) groups
  -- The member that has left is not canonical any more, so the new entry was not on the roster.
  have other : g'.canonical ≠ g.canonical := by
    intro heq
    have gone := (h.coherent.memberIds_nodup live).not_mem_erase (a := g.canonical.id)
    rw [← Group.memberIds_of_detach rest, ← heq] at gone
    exact gone List.mem_cons_self
  have fresh : (g.id, g'.canonical) ∉ roster := by
    rw [h.mem_roster]
    rintro ⟨k, hk, hc⟩
    rw [Option.some.inj (hk.symm.trans live)] at hc
    exact other hc.symm
  refine enroll_one_more coherent.standing_nodup fresh ?_
  intro e
  rw [coherent.mem_standing, h.mem_roster, found, name, bne_iff_ne]
  by_cases he : g.id = e.1
  · rw [if_pos he]
    constructor
    · rintro ⟨k, hk, hc⟩
      rw [← Option.some.inj hk] at hc
      exact .inr (Prod.ext he.symm hc.symm)
    · rintro (⟨-, hne⟩ | rfl)
      · exact absurd he.symm hne
      · exact ⟨g', rfl, rfl⟩
  · rw [if_neg he, and_iff_left (Ne.symm he)]
    refine (or_iff_left ?_).symm
    rintro rfl
    exact he rfl

end GroupIndex

end PeerSearch
