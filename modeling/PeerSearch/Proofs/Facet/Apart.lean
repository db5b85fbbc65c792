import PeerSearch.Proofs.Facet.Labels

/-!
# PeerSearch.Proofs.Facet.Apart -- what a facet model says apart from one group

Whatever is recorded of a group, and however often, the model says the same of the other groups:
what is recorded of them, and which of them would label a value if the group were gone. The second
is needed because a label tells of the past: a bucket goes on being labelled by the group that took
over when the labelling group left. Once the group is forgotten that is all there is to the model,
so it does not matter what was recorded of it on the way.
-/

namespace PeerSearch

attribute [ext] FacetBucket FacetModel

/-! ## One group left out -/

/-- The group that labels the bucket once a group has left it. -/
def FacetBucket.labellerWithout (b : FacetBucket) (id : GroupId) : Option GroupId :=
  if b.labelledBy = id then (SortedSet.toList (b.groups.erase id)).head? else some b.labelledBy

namespace FacetModel

/-- What a model says of all groups but one. -/
@[ext]
structure Apart where
  registry : Registry
  indexed : SortedMap GroupId (List FacetEntry)
  /-- Who labels a value. -/
  labeller : Axis → FacetValue → Option GroupId

def apartFrom (m : FacetModel) (id : GroupId) : Apart where
  registry := m.registry
  indexed := m.indexed.erase id
  labeller axis folded := (m.bucketUnder? axis folded).bind (·.labellerWithout id)

variable {m m' : FacetModel} {id : GroupId}

/-! ## Linking and unlinking -/

/-- Every bucket is labelled by one of its groups. -/
def LabelledByMember (m : FacetModel) : Prop :=
  ∀ axis folded b, m.bucketUnder? axis folded = some b → b.labelledBy ∈ b.groups.toList

theorem Consistent.labelledByMember (h : m.Consistent) : m.LabelledByMember := by
  intro axis folded b hb
  have holds := h.links.holds axis folded b hb
  exact (holds.members b.labelledBy).mpr ⟨b.label, holds.labelled, holds.folds⟩

/-- A group that joins a bucket has no say in who labels it without the group. -/
theorem labellerWithout_joined (b : Option FacetBucket) (id : GroupId) (value : FacetValue) :
    (joined b id value).labellerWithout id = b.bind (·.labellerWithout id) := by
  have left (groups : SortedSet GroupId) : (groups.add id).erase id = groups.erase id := by
    refine SortedSet.eq_of_mem_iff fun k => ?_
    rw [SortedSet.mem_erase, SortedSet.mem_erase, SortedSet.mem_add]
    exact and_congr_right fun other => or_iff_right other
  cases b with
  | none =>
      have alone : (SortedSet.add ∅ id).erase id = (∅ : SortedSet GroupId) :=
        (left ∅).trans (SortedMap.erase_of_unused rfl)
      simp only [joined, Option.getD_none, FacetBucket.labellerWithout, if_pos, alone,
        Option.bind_none]
      rfl
  | some b =>
      simp only [joined, Option.getD_some, FacetBucket.labellerWithout, left, Option.bind_some]

theorem apartFrom_link (m : FacetModel) (id : GroupId) (e : FacetEntry) :
    (m.link id e).apartFrom id = m.apartFrom id := by
  refine Apart.ext rfl rfl (funext fun axis => funext fun folded => ?_)
  simp only [apartFrom, bucketUnder?_link]
  split
  · exact labellerWithout_joined _ id e.2
  · rfl

/-- A bucket that a group leaves is labelled by whom it would have been without the group. -/
theorem labellerWithout_left {b : FacetBucket} (member : b.labelledBy ∈ b.groups.toList)
    (m : FacetModel) (id : GroupId) (e : FacetEntry) :
    (m.bucketWithout b id e).bind (·.labellerWithout id) = b.labellerWithout id := by
  have stays (k : GroupId) : k ∈ SortedSet.toList (b.groups.erase id) ↔
      k ≠ id ∧ k ∈ b.groups.toList := SortedSet.mem_erase
  unfold bucketWithout
  dsimp only
  cases first : (SortedSet.toList (b.groups.erase id)).head? with
  | none =>
      -- The group was alone in the bucket, so it is the one that labels it.
      have empty := List.head?_eq_none_iff.mp first
      have own : b.labelledBy = id := by
        by_contra other
        have left := (stays b.labelledBy).mpr ⟨other, member⟩
        rw [empty] at left
        cases left
      rw [FacetBucket.labellerWithout, if_pos own, first]
      rfl
  | some next =>
      have other := ((stays next).mp (List.mem_of_head? first)).1
      rw [Option.map_some, Option.bind_some]
      by_cases own : b.labelledBy = id
      · rw [if_pos own, FacetBucket.labellerWithout, if_neg other, FacetBucket.labellerWithout,
          if_pos own, first]
      · rw [if_neg own, FacetBucket.labellerWithout, if_neg own, FacetBucket.labellerWithout,
          if_neg own]

theorem LabelledByMember.unlink (h : m.LabelledByMember) (id : GroupId) (e : FacetEntry) :
    (m.unlink id e).LabelledByMember ∧ (m.unlink id e).apartFrom id = m.apartFrom id := by
  cases hb : m.bucket? e.1 e.2 with
  | none =>
      have same : m.unlink id e = m := by simp only [FacetModel.unlink, hb]
      rw [same]
      exact ⟨h, rfl⟩
  | some b =>
      have one : m.OneBucket (m.unlink id e) e.1 e.2.folded (m.bucketWithout b id e) :=
        oneBucket_unlink hb
      have member := h e.1 e.2.folded b hb
      constructor
      · intro axis folded b' hb'
        by_cases here : e.1 = axis ∧ e.2.folded = folded
        · obtain ⟨rfl, rfl⟩ := here
          obtain ⟨next, hnext, rfl⟩ := Option.map_eq_some_iff.mp (one.here.symm.trans hb')
          split
          · exact List.mem_of_head? hnext
          · next stays => exact SortedSet.mem_erase.mpr ⟨stays, member⟩
        · exact h axis folded b' ((one.others axis folded here).symm.trans hb')
      · have kept := m.unlink_keeps id e
        refine Apart.ext kept.2 (congrArg (·.erase id) kept.1) ?_
        refine funext fun axis => funext fun folded => ?_
        by_cases here : e.1 = axis ∧ e.2.folded = folded
        · obtain ⟨rfl, rfl⟩ := here
          have before : m.bucketUnder? e.1 e.2.folded = some b := hb
          simp only [apartFrom, one.here, before, Option.bind_some]
          exact labellerWithout_left member m id e
        · simp only [apartFrom, one.others axis folded here]

theorem apartFrom_linkAll (m : FacetModel) (id : GroupId) (entries : List FacetEntry) :
    (m.linkAll id entries).apartFrom id = m.apartFrom id := by
  induction entries generalizing m with
  | nil => rfl
  | cons e rest ih => exact (ih (m.link id e)).trans (m.apartFrom_link id e)

theorem LabelledByMember.apartFrom_unlinkAll (h : m.LabelledByMember) (id : GroupId)
    (entries : List FacetEntry) : (m.unlinkAll id entries).apartFrom id = m.apartFrom id := by
  induction entries generalizing m with
  | nil => rfl
  | cons e rest ih =>
      obtain ⟨labelled, same⟩ := h.unlink id e
      exact (ih labelled).trans same

/-! ## Recording and forgetting the group -/

theorem apartFrom_withdraw (m : FacetModel) (id : GroupId) :
    (m.withdraw id).apartFrom id = m.apartFrom id := by
  have erased : (m.indexed.erase id).erase id = m.indexed.erase id := by
    refine SortedMap.erase_of_unused ?_
    rw [SortedMap.find?_erase, if_pos rfl]
  exact Apart.ext rfl erased rfl

theorem Consistent.apartFrom_unlinked (h : m.Consistent) (id : GroupId)
    (entries : List FacetEntry) :
    ((m.withdraw id).unlinkAll id entries).apartFrom id = m.apartFrom id := by
  have labelled : (m.withdraw id).LabelledByMember := h.labelledByMember
  exact (labelled.apartFrom_unlinkAll id entries).trans (m.apartFrom_withdraw id)

theorem Consistent.apartFrom_replace (h : m.Consistent) (id : GroupId)
    (entries : List FacetEntry) : (m.replace id entries).apartFrom id = m.apartFrom id := by
  have relinked : (m.relink id entries).apartFrom id = m.apartFrom id :=
    (apartFrom_linkAll _ id _).trans (h.apartFrom_unlinked id _)
  have inserted : ((m.relink id entries).indexed.insert id entries).erase id =
      (m.relink id entries).indexed.erase id := by
    refine SortedMap.ext_find? fun k => ?_
    rw [SortedMap.find?_erase, SortedMap.find?_erase, SortedMap.find?_insert]
    by_cases same : k = id
    · rw [if_pos same, if_pos same]
    · rw [if_neg same, if_neg same, if_neg (Ne.symm same)]
  rw [replace_eq, ← relinked]
  exact Apart.ext rfl inserted rfl

theorem Consistent.apartFrom_add (h : m.Consistent) (g : Group) :
    (m.add g).apartFrom g.id = m.apartFrom g.id :=
  h.apartFrom_replace g.id _

theorem Consistent.apartFrom_remove (h : m.Consistent) (id : GroupId) :
    (m.remove id).apartFrom id = m.apartFrom id :=
  h.apartFrom_unlinked id _

/-! ## The model without the group -/

/-- The axes of a consistent model are settled by the buckets on them. -/
theorem Consistent.axes_eq (h : m.Consistent) (h' : m'.Consistent)
    (same : ∀ axis, m.buckets axis = m'.buckets axis) : m.axes = m'.axes := by
  refine SortedMap.ext_find? fun axis => ?_
  have here := same axis
  rw [buckets, buckets] at here
  cases found : m.axes.find? axis with
  | none =>
      cases found' : m'.axes.find? axis with
      | none => rfl
      | some bs =>
          rw [found, found'] at here
          exact absurd here.symm (h'.links.filled axis bs found')
  | some bs =>
      cases found' : m'.axes.find? axis with
      | none =>
          rw [found, found'] at here
          exact absurd here (h.links.filled axis bs found)
      | some bs' =>
          rw [found, found'] at here
          exact congrArg some here

/-- A consistent model is known by what is recorded and by who labels each value. -/
theorem Consistent.ext (h : m.Consistent) (h' : m'.Consistent) (registry : m.registry = m'.registry)
    (indexed : m.indexed = m'.indexed)
    (labelled : ∀ axis folded, (m.bucketUnder? axis folded).map (·.labelledBy) =
      (m'.bucketUnder? axis folded).map (·.labelledBy)) : m = m' := by
  have recorded (k : GroupId) : m.recorded k = m'.recorded k := by
    rw [FacetModel.recorded, indexed, FacetModel.recorded]
  have bucket (axis : Axis) (folded : FacetValue) :
      m.bucketUnder? axis folded = m'.bucketUnder? axis folded := by
    have by_same := labelled axis folded
    cases hb : m.bucketUnder? axis folded with
    | none =>
        rw [hb] at by_same
        exact (Option.map_eq_none_iff.mp by_same.symm).symm
    | some b =>
        rw [hb] at by_same
        obtain ⟨b', hb', labeller⟩ := Option.map_eq_some_iff.mp by_same.symm
        have holds := h.links.holds axis folded b hb
        have holds' := h'.links.holds axis folded b' hb'
        have groups : b.groups = b'.groups := by
          refine SortedSet.eq_of_mem_iff fun k => ?_
          rw [holds.members, holds'.members]
          simp only [FacetRecord.Carries, recorded]
        -- The label is what the one labelling group has recorded on the axis.
        have label : b.label = b'.label := by
          have spelled := holds'.labelled
          rw [labeller, ← recorded] at spelled
          exact (h.oneEach b.labelledBy).unique holds.labelled spelled
        rw [hb']
        exact congrArg some (FacetBucket.ext label labeller.symm groups)
  have axes := h.axes_eq h' fun axis => SortedMap.ext_find? (bucket axis)
  exact FacetModel.ext registry axes indexed

/-- Who labels a value of a model that has not recorded the group. -/
theorem Consistent.labeller_eq (h : m.Consistent) (unrecorded : m.indexed.find? id = none)
    (axis : Axis) (folded : FacetValue) :
    (m.apartFrom id).labeller axis folded =
      (m.bucketUnder? axis folded).map (·.labelledBy) := by
  simp only [apartFrom]
  cases hb : m.bucketUnder? axis folded with
  | none => rfl
  | some b =>
      have other : b.labelledBy ≠ id := by
        intro own
        have spelled := (h.links.holds axis folded b hb).labelled
        rw [own, recorded, unrecorded] at spelled
        cases spelled
      rw [Option.bind_some, FacetBucket.labellerWithout, if_neg other, Option.map_some]

/-- Models that have forgotten the group are the same if they say the same of the others. -/
theorem Consistent.eq_of_apartFrom (h : m.Consistent) (h' : m'.Consistent)
    (unrecorded : m.indexed.find? id = none) (unrecorded' : m'.indexed.find? id = none)
    (same : m.apartFrom id = m'.apartFrom id) : m = m' := by
  have indexed : m.indexed.erase id = m'.indexed.erase id := congrArg Apart.indexed same
  rw [SortedMap.erase_of_unused unrecorded, SortedMap.erase_of_unused unrecorded'] at indexed
  refine h.ext h' (congrArg Apart.registry same) indexed fun axis folded => ?_
  rw [← h.labeller_eq unrecorded, ← h'.labeller_eq unrecorded', same]

end FacetModel

end PeerSearch
