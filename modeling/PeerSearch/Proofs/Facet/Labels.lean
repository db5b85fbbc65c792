import PeerSearch.GroupIndex.Command
import PeerSearch.Proofs.Facet.Answers
import PeerSearch.Proofs.Runs

/-!
# PeerSearch.Proofs.Facet.Labels -- whose spelling a value is shown in

A value is shown as the group that labels its bucket spells it. A bucket is labelled by the group
that it was made for, and by the earliest one left whenever the labelling group leaves. So the label
is the spelling of the earliest group in the bucket as long as no group joins a bucket of groups
that are all later than it; the first that does so leaves the label wrong, unless it happens to be
spelled like that.
-/

namespace PeerSearch

/-! ## The first of some groups -/

theorem GroupId.compare_eq_lt_iff {a b : GroupId} : compare a b = .lt ↔ a.val < b.val :=
  Nat.compare_eq_lt

/-- The earliest of some groups. -/
structure IsFirst (ids : List GroupId) (id : GroupId) : Prop where
  mem : id ∈ ids
  le : ∀ k ∈ ids, id.val ≤ k.val

theorem IsFirst.unique {ids : List GroupId} {a b : GroupId} (ha : IsFirst ids a)
    (hb : IsFirst ids b) : a = b :=
  GroupId.eq_of_val (Nat.le_antisymm (ha.le b hb.mem) (hb.le a ha.mem))

theorem isFirst_head {ids : List GroupId} {id : GroupId}
    (increasing : ids.Pairwise fun a b => compare a b = .lt) (h : ids.head? = some id) :
    IsFirst ids id := by
  obtain ⟨rest, rfl⟩ := List.head?_eq_some_iff.mp h
  refine ⟨List.mem_cons_self, fun k hk => ?_⟩
  rcases List.mem_cons.mp hk with rfl | hk
  · exact Nat.le_refl _
  · exact (GroupId.compare_eq_lt_iff.mp ((List.pairwise_cons.mp increasing).1 k hk)).le

namespace FacetModel

variable {m : FacetModel} {id : GroupId} {entries : List FacetEntry}

/-! ## Labels that follow the first group -/

/-- Every bucket is labelled by the earliest group in it. -/
def LabelledByFirst (m : FacetModel) : Prop :=
  ∀ axis folded b, m.bucketUnder? axis folded = some b → IsFirst b.groups.toList b.labelledBy

/-- Every value is shown as the earliest of the groups that have it has recorded it. -/
def LabelsFollowFirst (m : FacetModel) : Prop :=
  ∀ axis label n, (label, n) ∈ m.values axis →
    ∃ first, IsFirst (m.carriers axis label.folded) first ∧ (axis, label) ∈ m.recorded first

/-- From the one model to the other, `id` has recorded a spelling of a value that it had not recorded
before and that other groups have, of which `next` is the earliest, and is later than `id`. -/
structure Overtakes (m m' : FacetModel) (id next : GroupId) (axis : Axis) (value : FacetValue) :
    Prop where
  recorded : (axis, value) ∈ m'.recorded id
  fresh : (axis, value) ∉ m.recorded id
  first : IsFirst ((m.carriers axis value.folded).filter (· ≠ id)) next
  earlier : id.val < next.val

/-- Some group overtakes all others that have a value. -/
def Overtaken (m m' : FacetModel) : Prop :=
  ∃ id next axis value, m.Overtakes m' id next axis value

/-- A bucket shows what the earliest group in it has recorded. -/
def FollowsFirst (m : FacetModel) (axis : Axis) (b : FacetBucket) : Prop :=
  ∃ first, IsFirst b.groups.toList first ∧ (axis, b.label) ∈ m.recorded first

theorem Consistent.labelsFollowFirst_iff (h : m.Consistent) :
    m.LabelsFollowFirst ↔
      ∀ axis folded b, m.bucketUnder? axis folded = some b → m.FollowsFirst axis b := by
  constructor
  · intro follow axis folded b hb
    have shown := follow axis b.label b.groups.size (mem_values_iff.mpr ⟨folded, b, hb, rfl⟩)
    rwa [(h.links.holds axis folded b hb).folds, ← h.toList_groups hb] at shown
  · intro follow axis label n listed
    obtain ⟨folded, b, hb, heq⟩ := mem_values_iff.mp listed
    obtain ⟨rfl, rfl⟩ := Prod.mk.inj heq
    have shown := follow axis folded b hb
    rwa [FollowsFirst, h.toList_groups hb, ← (h.links.holds axis folded b hb).folds] at shown

/-- The label is what the labelling group has recorded. -/
theorem Consistent.followsFirst (h : m.Consistent) {axis : Axis} {folded : FacetValue}
    {b : FacetBucket} (hb : m.bucketUnder? axis folded = some b)
    (first : IsFirst b.groups.toList b.labelledBy) : m.FollowsFirst axis b :=
  ⟨b.labelledBy, first, (h.links.holds axis folded b hb).labelled⟩

/-! ## Leaving buckets -/

/-- A bucket that the labelling group leaves is labelled by the earliest one left. -/
theorem LabelledByFirst.unlink (h : m.LabelledByFirst) (id : GroupId) (e : FacetEntry) :
    (m.unlink id e).LabelledByFirst := by
  cases hb : m.bucket? e.1 e.2 with
  | none =>
      have same : m.unlink id e = m := by simp only [FacetModel.unlink, hb]
      rwa [same]
  | some b =>
      have one : m.OneBucket (m.unlink id e) e.1 e.2.folded (m.bucketWithout b id e) :=
        oneBucket_unlink hb
      intro axis folded b' hb'
      by_cases here : e.1 = axis ∧ e.2.folded = folded
      · obtain ⟨rfl, rfl⟩ := here
        obtain ⟨next, hnext, rfl⟩ := Option.map_eq_some_iff.mp (one.here.symm.trans hb')
        have first := isFirst_head (SortedMap.keys_increasing (b.groups.erase id)) hnext
        split
        · exact first
        · next stays =>
          have old := h e.1 e.2.folded b hb
          refine ⟨SortedSet.mem_erase.mpr ⟨stays, old.mem⟩, fun k hk => ?_⟩
          exact old.le k (SortedSet.mem_erase.mp hk).2
      · exact h axis folded b' ((one.others axis folded here).symm.trans hb')

theorem LabelledByFirst.unlinkAll (h : m.LabelledByFirst) (id : GroupId)
    (entries : List FacetEntry) : (m.unlinkAll id entries).LabelledByFirst := by
  induction entries generalizing m with
  | nil => exact h
  | cons e rest ih => exact ih (h.unlink id e)

theorem LabelledByFirst.remove (h : m.LabelledByFirst) (id : GroupId) :
    (m.remove id).LabelledByFirst :=
  LabelledByFirst.unlinkAll (m := m.withdraw id) h id (m.recorded id)

/-! ## Joining buckets -/

/-- The bucket of a value once a group has joined it. -/
def joined (b : Option FacetBucket) (id : GroupId) (value : FacetValue) : FacetBucket :=
  let b : FacetBucket := b.getD ⟨value, id, ∅⟩
  { b with groups := b.groups.add id }

theorem bucketUnder?_link (m : FacetModel) (id : GroupId) (e : FacetEntry) (axis : Axis)
    (folded : FacetValue) : (m.link id e).bucketUnder? axis folded =
      if e.1 = axis ∧ e.2.folded = folded then some (joined (m.bucketUnder? axis folded) id e.2)
      else m.bucketUnder? axis folded := by
  have one := m.oneBucket_insert e.1 e.2.folded (joined (m.bucketUnder? e.1 e.2.folded) id e.2)
  split
  · next here =>
    obtain ⟨rfl, rfl⟩ := here
    exact one.here
  · next other => exact one.others axis folded other

theorem bucketUnder?_linkAll_of_unnamed (m : FacetModel) (id : GroupId) {axis : Axis}
    {folded : FacetValue} (unnamed : ∀ v, (axis, v) ∈ entries → v.folded ≠ folded) :
    (m.linkAll id entries).bucketUnder? axis folded = m.bucketUnder? axis folded := by
  induction entries generalizing m with
  | nil => rfl
  | cons e rest ih =>
      have later : ∀ v, (axis, v) ∈ rest → v.folded ≠ folded :=
        fun v hv => unnamed v (List.mem_cons_of_mem _ hv)
      show ((m.link id e).linkAll id rest).bucketUnder? axis folded = m.bucketUnder? axis folded
      rw [ih (m.link id e) later, bucketUnder?_link, if_neg]
      rintro ⟨rfl, folds⟩
      exact unnamed e.2 List.mem_cons_self folds

/-- With one value on each axis, every value is joined once. -/
theorem bucketUnder?_linkAll_of_mem (m : FacetModel) (id : GroupId) (oneEach : OneEach entries)
    {axis : Axis} {value : FacetValue} (hv : (axis, value) ∈ entries) :
    (m.linkAll id entries).bucketUnder? axis value.folded =
      some (joined (m.bucketUnder? axis value.folded) id value) := by
  induction entries generalizing m with
  | nil => cases hv
  | cons e rest ih =>
      have ⟨fresh, oneEach'⟩ := List.nodup_cons.mp oneEach
      have noMore {v : FacetValue} (hv : (e.1, v) ∈ rest) : False :=
        fresh (List.mem_map.mpr ⟨(e.1, v), hv, rfl⟩)
      show ((m.link id e).linkAll id rest).bucketUnder? axis value.folded = _
      rcases List.mem_cons.mp hv with rfl | hv
      · rw [bucketUnder?_linkAll_of_unnamed _ _ fun v hv => (noMore hv).elim, bucketUnder?_link,
          if_pos ⟨rfl, rfl⟩]
      · rw [ih (m.link id e) oneEach' hv, bucketUnder?_link, if_neg]
        rintro ⟨rfl, -⟩
        exact noMore hv

theorem isFirst_joined_none (id : GroupId) (value : FacetValue) :
    IsFirst (joined none id value).groups.toList (joined none id value).labelledBy := by
  refine ⟨SortedSet.mem_add.mpr (.inl rfl), fun k hk => ?_⟩
  rcases SortedSet.mem_add.mp hk with rfl | hk
  · exact Nat.le_refl _
  · cases hk

/-- A group that joins a bucket is no earlier than the labelling group, or the label is behind. -/
theorem isFirst_joined_iff {b : FacetBucket} (first : IsFirst b.groups.toList b.labelledBy)
    (id : GroupId) (value : FacetValue) :
    IsFirst (joined (some b) id value).groups.toList (joined (some b) id value).labelledBy ↔
      b.labelledBy.val ≤ id.val := by
  constructor
  · intro h
    exact h.le id (SortedSet.mem_add.mpr (.inl rfl))
  · intro later
    refine ⟨SortedSet.mem_add.mpr (.inr first.mem), fun k hk => ?_⟩
    rcases SortedSet.mem_add.mp hk with rfl | hk
    · exact later
    · exact first.le k hk

/-! ## Recording other entries for a group -/

/-- The model with the links removed that recording these entries removes. -/
def unlinked (m : FacetModel) (id : GroupId) (entries : List FacetEntry) : FacetModel :=
  (m.withdraw id).unlinkAll id ((m.recorded id).filter (!entries.contains ·))

/-- The entries of these that are not recorded yet. -/
def added (m : FacetModel) (id : GroupId) (entries : List FacetEntry) : List FacetEntry :=
  entries.filter (!(m.recorded id).contains ·)

theorem mem_added_iff {e : FacetEntry} :
    e ∈ m.added id entries ↔ e ∈ entries ∧ e ∉ m.recorded id := by
  simp [added, List.mem_filter]

theorem bucketUnder?_replace (m : FacetModel) (id : GroupId) (entries : List FacetEntry)
    (axis : Axis) (folded : FacetValue) : (m.replace id entries).bucketUnder? axis folded =
      ((m.unlinked id entries).linkAll id (m.added id entries)).bucketUnder? axis folded := rfl

theorem Consistent.unlinked_links (h : m.Consistent) (id : GroupId) (entries : List FacetEntry) :
    (m.unlinked id entries).Links fun k e =>
      e ∈ m.recorded k ∧ ¬ (k = id ∧ e ∈ (m.recorded id).filter (!entries.contains ·)) :=
  h.unlinked id List.filter_sublist

theorem LabelledByFirst.unlinked (h : m.LabelledByFirst) (id : GroupId)
    (entries : List FacetEntry) : (m.unlinked id entries).LabelledByFirst :=
  LabelledByFirst.unlinkAll (m := m.withdraw id) h id _

/-- A value that is new to a group is one that only other groups are left with. -/
theorem Consistent.mem_unlinked_iff (h : m.Consistent) (oneEach : OneEach entries) {axis : Axis}
    {value : FacetValue} (hv : (axis, value) ∈ m.added id entries) {b : FacetBucket}
    (hb : (m.unlinked id entries).bucketUnder? axis value.folded = some b) (k : GroupId) :
    k ∈ b.groups.toList ↔ k ∈ (m.carriers axis value.folded).filter (· ≠ id) := by
  have links := h.unlinked_links id entries
  obtain ⟨mem, fresh⟩ := mem_added_iff.mp hv
  -- What the group had recorded on this axis goes, since something else is recorded there now.
  have goes {w : FacetValue} (hw : (axis, w) ∈ m.recorded id) : (axis, w) ∉ entries := by
    intro stays
    rw [oneEach.unique stays mem] at hw
    exact fresh hw
  rw [(links.holds axis value.folded b hb).members, List.mem_filter, mem_carriers_iff]
  simp only [FacetRecord.Carries, List.mem_filter, decide_eq_true_eq, List.contains_eq_mem,
    Bool.not_eq_true', decide_eq_false_iff_not]
  constructor
  · rintro ⟨w, ⟨hw, kept⟩, folds⟩
    refine ⟨⟨w, hw, folds⟩, ?_⟩
    rintro rfl
    exact kept ⟨rfl, hw, goes hw⟩
  · rintro ⟨⟨w, hw, folds⟩, other⟩
    exact ⟨w, ⟨hw, fun same => other same.1⟩, folds⟩

/-- A group that is new to a bucket is behind the labelling group exactly when it overtakes. -/
theorem Consistent.overtakes_iff (h : m.Consistent) (first : m.LabelledByFirst)
    (oneEach : OneEach entries) {axis : Axis} {value : FacetValue} {next : GroupId} :
    m.Overtakes (m.replace id entries) id next axis value ↔
      (axis, value) ∈ m.added id entries ∧
        ∃ b, (m.unlinked id entries).bucketUnder? axis value.folded = some b ∧
          b.labelledBy = next ∧ id.val < next.val := by
  have links := h.unlinked_links id entries
  have labelled := first.unlinked id entries
  constructor
  · intro overtakes
    have hv : (axis, value) ∈ m.added id entries := by
      refine mem_added_iff.mpr ⟨?_, overtakes.fresh⟩
      have recorded := overtakes.recorded
      rwa [recorded_replace, if_pos rfl] at recorded
    obtain ⟨carries, other⟩ := List.mem_filter.mp overtakes.first.mem
    obtain ⟨w, hw, folds⟩ := mem_carriers_iff.mp carries
    have kept : ¬ (next = id ∧ (axis, w) ∈ (m.recorded id).filter (!entries.contains ·)) :=
      fun same => of_decide_eq_true other same.1
    obtain ⟨b, hb⟩ := links.found next axis value.folded ⟨w, ⟨hw, kept⟩, folds⟩
    have members := h.mem_unlinked_iff oneEach hv hb
    have labels := labelled axis value.folded b hb
    refine ⟨hv, b, hb, ?_, overtakes.earlier⟩
    refine IsFirst.unique ?_ overtakes.first
    exact ⟨(members _).mp labels.mem, fun k hk => labels.le k ((members k).mpr hk)⟩
  · rintro ⟨hv, b, hb, rfl, earlier⟩
    have members := h.mem_unlinked_iff oneEach hv hb
    have labels := labelled axis value.folded b hb
    obtain ⟨mem, fresh⟩ := mem_added_iff.mp hv
    refine ⟨?_, fresh, ?_, earlier⟩
    · rwa [recorded_replace, if_pos rfl]
    · exact ⟨(members _).mp labels.mem, fun k hk => labels.le k ((members k).mpr hk)⟩

/-- The buckets after other entries have been recorded: those that the group has not joined, and
those that it has, made for it or there before. -/
theorem bucket_cases {P : Axis → FacetBucket → Prop} (oneEach : OneEach entries) :
    (∀ axis folded b, (m.replace id entries).bucketUnder? axis folded = some b → P axis b) ↔
      (∀ axis folded b, (∀ v, (axis, v) ∈ m.added id entries → v.folded ≠ folded) →
        (m.unlinked id entries).bucketUnder? axis folded = some b → P axis b) ∧
      ∀ axis value, (axis, value) ∈ m.added id entries →
        P axis (joined ((m.unlinked id entries).bucketUnder? axis value.folded) id value) := by
  have oneEach' : OneEach (m.added id entries) := oneEach.sublist (List.filter_sublist.map _)
  constructor
  · intro all
    constructor
    · intro axis folded b unnamed hb
      refine all axis folded b ?_
      rwa [bucketUnder?_replace, bucketUnder?_linkAll_of_unnamed _ _ unnamed]
    · intro axis value hv
      refine all axis value.folded _ ?_
      rw [bucketUnder?_replace, bucketUnder?_linkAll_of_mem _ _ oneEach' hv]
  · rintro ⟨unnamed, named⟩ axis folded b hb
    by_cases new : ∃ v, (axis, v) ∈ m.added id entries ∧ v.folded = folded
    · obtain ⟨v, hv, rfl⟩ := new
      rw [bucketUnder?_replace, bucketUnder?_linkAll_of_mem _ _ oneEach' hv] at hb
      obtain rfl := Option.some.inj hb
      exact named axis v hv
    · have none : ∀ v, (axis, v) ∈ m.added id entries → v.folded ≠ folded :=
        fun v hv folds => new ⟨v, hv, folds⟩
      rw [bucketUnder?_replace, bucketUnder?_linkAll_of_unnamed _ _ none] at hb
      exact unnamed axis folded b none hb

/-- Only the group that is recorded anew can overtake others. -/
theorem eq_of_overtakes_replace {k next : GroupId} {axis : Axis} {value : FacetValue}
    (h : m.Overtakes (m.replace id entries) k next axis value) : k = id := by
  by_contra other
  have recorded := h.recorded
  rw [recorded_replace, if_neg other] at recorded
  exact h.fresh recorded

theorem Consistent.replace_labelled_iff (h : m.Consistent) (first : m.LabelledByFirst)
    (oneEach : OneEach entries) :
    (m.replace id entries).LabelledByFirst ↔ ¬ m.Overtaken (m.replace id entries) := by
  have labelled := first.unlinked id entries
  constructor
  · rintro all ⟨k, next, axis, value, overtakes⟩
    obtain rfl := eq_of_overtakes_replace overtakes
    obtain ⟨hv, b, hb, rfl, earlier⟩ := (h.overtakes_iff first oneEach).mp overtakes
    have shown := ((bucket_cases oneEach).mp all).2 axis value hv
    rw [hb, isFirst_joined_iff (labelled axis value.folded b hb)] at shown
    exact absurd earlier shown.not_gt
  · intro none
    refine (bucket_cases oneEach).mpr ⟨fun axis folded b _ hb => labelled axis folded b hb, ?_⟩
    intro axis value hv
    cases hb : (m.unlinked id entries).bucketUnder? axis value.folded with
    | none => exact isFirst_joined_none id value
    | some b =>
        refine (isFirst_joined_iff (labelled axis value.folded b hb) id value).mpr ?_
        by_contra earlier
        exact none ⟨id, b.labelledBy, axis, value,
          (h.overtakes_iff first oneEach).mpr ⟨hv, b, hb, rfl, not_le.mp earlier⟩⟩

/-- A group that joins a bucket ahead of all others is shown if it spells the value as the first of
them does. -/
theorem Consistent.joined_follows_iff (h : m.Consistent) (first : m.LabelledByFirst)
    (oneEach : OneEach entries) {axis : Axis} {value : FacetValue}
    (hv : (axis, value) ∈ m.added id entries) {b : FacetBucket}
    (hb : (m.unlinked id entries).bucketUnder? axis value.folded = some b)
    (earlier : id.val < b.labelledBy.val) :
    (m.replace id entries).FollowsFirst axis (joined (some b) id value) ↔
      (axis, value) ∈ m.recorded b.labelledBy := by
  have links := h.unlinked_links id entries
  have labels := first.unlinked id entries axis value.folded b hb
  have own : IsFirst (joined (some b) id value).groups.toList id := by
    refine ⟨SortedSet.mem_add.mpr (.inl rfl), fun k hk => ?_⟩
    rcases SortedSet.mem_add.mp hk with rfl | hk
    · exact Nat.le_refl _
    · exact earlier.le.trans (labels.le k hk)
  have shown : (m.replace id entries).FollowsFirst axis (joined (some b) id value) ↔
      (axis, b.label) ∈ entries := by
    constructor
    · rintro ⟨k, hk, recorded⟩
      rwa [IsFirst.unique hk own, recorded_replace, if_pos rfl] at recorded
    · intro recorded
      refine ⟨id, own, ?_⟩
      rwa [recorded_replace, if_pos rfl]
  -- Both groups have one value on the axis, so both ask whether the label is that value.
  have label : (axis, b.label) ∈ m.recorded b.labelledBy :=
    (links.holds axis value.folded b hb).labelled.1
  have mem := (mem_added_iff.mp hv).1
  rw [shown]
  constructor
  · intro recorded
    rwa [oneEach.unique mem recorded]
  · intro recorded
    rwa [(h.oneEach b.labelledBy).unique label recorded]

theorem Consistent.replace_follows_iff (h : m.Consistent) (first : m.LabelledByFirst)
    (oneEach : OneEach entries) :
    (m.replace id entries).LabelsFollowFirst ↔
      ∀ k next axis value, m.Overtakes (m.replace id entries) k next axis value →
        (axis, value) ∈ m.recorded next := by
  have consistent := h.replace id oneEach
  have labelled := first.unlinked id entries
  have shown := (consistent.labelsFollowFirst_iff).trans (bucket_cases oneEach)
  rw [shown]
  constructor
  · rintro ⟨-, named⟩ k next axis value overtakes
    obtain rfl := eq_of_overtakes_replace overtakes
    obtain ⟨hv, b, hb, rfl, earlier⟩ := (h.overtakes_iff first oneEach).mp overtakes
    have follows := named axis value hv
    rw [hb] at follows
    exact (h.joined_follows_iff first oneEach hv hb earlier).mp follows
  · intro same
    -- Whatever is labelled by its first group is shown as that group has it.
    have buckets : ∀ axis folded b, (m.replace id entries).bucketUnder? axis folded = some b →
        IsFirst b.groups.toList b.labelledBy → (m.replace id entries).FollowsFirst axis b :=
      fun _ _ _ => consistent.followsFirst
    obtain ⟨unnamed, named⟩ := (bucket_cases oneEach).mp buckets
    refine ⟨fun axis folded b other hb => unnamed axis folded b other hb (labelled axis folded b hb),
      fun axis value hv => ?_⟩
    cases hb : (m.unlinked id entries).bucketUnder? axis value.folded with
    | none =>
        have follows := named axis value hv
        rw [hb] at follows
        exact follows (isFirst_joined_none id value)
    | some b =>
        by_cases earlier : id.val < b.labelledBy.val
        · refine (h.joined_follows_iff first oneEach hv hb earlier).mpr ?_
          exact same id b.labelledBy axis value
            ((h.overtakes_iff first oneEach).mpr ⟨hv, b, hb, rfl, earlier⟩)
        · have follows := named axis value hv
          rw [hb] at follows
          exact follows
            ((isFirst_joined_iff (labelled axis value.folded b hb) id value).mpr (not_lt.mp earlier))

/-! ## Commands -/

/-- Where nothing new is recorded, no group overtakes others. -/
theorem not_overtakes {m' : FacetModel} (sub : ∀ k e, e ∈ m'.recorded k → e ∈ m.recorded k)
    (k next : GroupId) (axis : Axis) (value : FacetValue) : ¬ m.Overtakes m' k next axis value :=
  fun overtakes => overtakes.fresh (sub k _ overtakes.recorded)

/-- A command records entries for a group, with one value on each axis, or it leaves labels right
and lets no group overtake others. -/
theorem Consistent.perform_cases (h : m.Consistent) (first : m.LabelledByFirst) (c : FacetCommand) :
    (∃ id entries, OneEach entries ∧ m.perform c = m.replace id entries) ∨
      (m.perform c).LabelledByFirst ∧
        ∀ k next axis value, ¬ m.Overtakes (m.perform c) k next axis value := by
  have stays : m.LabelledByFirst ∧ ∀ k next axis value, ¬ m.Overtakes m k next axis value :=
    ⟨first, not_overtakes fun _ _ he => he⟩
  cases c with
  | add g => exact .inl ⟨g.id, _, g.facetEntries_oneEach m.registry, rfl⟩
  | remove id =>
      refine .inr ⟨first.remove id, not_overtakes fun k e he => ?_⟩
      rw [FacetModel.perform, recorded_remove] at he
      split at he
      · cases he
      · exact he
  | updateProperty g p =>
      simp only [FacetModel.perform, updateProperty]
      split
      · exact .inl ⟨g.id, _, h.withProperty_oneEach g p, rfl⟩
      · exact .inr stays
  | refresh g =>
      simp only [FacetModel.perform, refresh]
      split
      · exact .inl ⟨g.id, _, g.facetEntries_oneEach m.registry, rfl⟩
      · exact .inr stays
  | clear =>
      refine .inr ⟨fun axis folded b hb => ?_, not_overtakes fun _ _ he => ?_⟩
      · cases hb
      · cases he

theorem Consistent.perform_labelled_iff (h : m.Consistent) (first : m.LabelledByFirst)
    (c : FacetCommand) : (m.perform c).LabelledByFirst ↔ ¬ m.Overtaken (m.perform c) := by
  rcases h.perform_cases first c with ⟨id, entries, oneEach, same⟩ | ⟨labelled, none⟩
  · rw [same]
    exact h.replace_labelled_iff first oneEach
  · refine iff_of_true labelled ?_
    rintro ⟨k, next, axis, value, overtakes⟩
    exact none k next axis value overtakes

theorem Consistent.labelsFollowFirst (h : m.Consistent) (first : m.LabelledByFirst) :
    m.LabelsFollowFirst :=
  h.labelsFollowFirst_iff.mpr fun axis folded b hb => h.followsFirst hb (first axis folded b hb)

theorem Consistent.perform_follows_iff (h : m.Consistent) (first : m.LabelledByFirst)
    (c : FacetCommand) : (m.perform c).LabelsFollowFirst ↔
      ∀ k next axis value, m.Overtakes (m.perform c) k next axis value →
        (axis, value) ∈ m.recorded next := by
  rcases h.perform_cases first c with ⟨id, entries, oneEach, same⟩ | ⟨labelled, none⟩
  · rw [same]
    exact h.replace_follows_iff first oneEach
  · refine iff_of_true ((h.perform c).labelsFollowFirst labelled) ?_
    exact fun k next axis value overtakes => (none k next axis value overtakes).elim

/-! ## Runs -/

/-- A value that is shown as its first group has it is shown so by every model of the same
records. -/
theorem Consistent.mem_values_of_same {m' : FacetModel} (h : m.Consistent) (h' : m'.Consistent)
    (follow : m.LabelsFollowFirst) (follow' : m'.LabelsFollowFirst)
    (same : ∀ id e, e ∈ m'.recorded id ↔ e ∈ m.recorded id) {axis : Axis} {p : FacetValue × Nat}
    (hp : p ∈ m.values axis) : p ∈ m'.values axis := by
  have carriers (folded : FacetValue) : m'.carriers axis folded = m.carriers axis folded := by
    refine SortedMap.eq_of_increasing id (m'.carriers_increasing axis folded)
      (m.carriers_increasing axis folded) fun id => ?_
    simp only [mem_carriers_iff, same]
  obtain ⟨label, n⟩ := p
  obtain ⟨first, hfirst, recorded⟩ := follow axis label n hp
  obtain ⟨label', n', hp', folds⟩ := h'.values_listed ((same first _).mpr recorded)
  obtain ⟨first', hfirst', recorded'⟩ := follow' axis label' n' hp'
  rw [folds, carriers] at hfirst'
  obtain rfl := hfirst'.unique hfirst
  obtain rfl := (h.oneEach first').unique ((same first' _).mp recorded') recorded
  rwa [(h.values_counted hp).2, ← carriers, ← (h'.values_counted hp').2]

/-- Values are listed in one way only, if they are shown as their first groups have them. -/
theorem Consistent.values_eq {m' : FacetModel} (h : m.Consistent) (h' : m'.Consistent)
    (follow : m.LabelsFollowFirst) (follow' : m'.LabelsFollowFirst)
    (same : ∀ id e, e ∈ m'.recorded id ↔ e ∈ m.recorded id) (axis : Axis) :
    m'.values axis = m.values axis := by
  refine SortedMap.eq_of_increasing (fun p => p.1.folded) (h'.values_increasing axis)
    (h.values_increasing axis) fun p => ⟨?_, h.mem_values_of_same h' follow follow' same⟩
  exact h'.mem_values_of_same h follow' follow fun id e => (same id e).symm

/-- Buckets are labelled by their first groups in all states of a run exactly when no command lets
a group overtake others. Up to there every value is shown as the earliest of its groups has recorded
it, and the command that lets one overtake leaves it so exactly when both spell it alike. Values that
are shown in this way do not tell in which order their groups were recorded. -/
theorem labels_follow_first_until_overtaken (registry : Registry) (commands : List FacetCommand) :
    let state n := (empty registry).after (commands.take n)
    ((∀ n, (state n).LabelledByFirst) ↔
      ∀ n c, commands[n]? = some c → ¬ (state n).Overtaken ((state n).perform c)) ∧
    ∀ n, (state n).LabelledByFirst →
      (state n).LabelsFollowFirst ∧
      (∀ c, ((state n).perform c).LabelsFollowFirst ↔
        ∀ id next axis value, (state n).Overtakes ((state n).perform c) id next axis value →
          (axis, value) ∈ (state n).recorded next) ∧
      ∀ registry' commands', let m := (empty registry').after commands'
        m.LabelsFollowFirst → (∀ id e, e ∈ m.recorded id ↔ e ∈ (state n).recorded id) →
          ∀ axis, m.values axis = (state n).values axis := by
  intro state
  have consistent (registry : Registry) (commands : List FacetCommand) :
      ((empty registry).after commands).Consistent := (empty_consistent registry).after commands
  constructor
  · have start : (empty registry).LabelledByFirst := by
      intro axis folded b hb
      cases hb
    refine holds_throughout_iff LabelledByFirst (fun m c => m.Overtaken (m.perform c)) start ?_
    intro n c _ first
    exact (consistent registry (commands.take n)).perform_labelled_iff first c
  · intro n first
    have h := consistent registry (commands.take n)
    have follow := h.labelsFollowFirst first
    refine ⟨follow, h.perform_follows_iff first, ?_⟩
    intro registry' commands' m follow' same axis
    exact h.values_eq (consistent registry' commands') follow follow' same axis

/-- The first of two groups gets a document after the second one has been recorded with a genre. The
genre is then shown as the second group spells it, and as the first one does in a model that records
both afterwards, although the records are the same. -/
theorem late_document_is_not_shown :
    let genre (text : String) : Document := { schema := "audio", fields := .insert ∅ "genre" text }
    let before := (GroupIndex.empty true).after
      [.insert { fileName := "a.mp3", size := 1 },
        .insert { fileName := "b.mp3", size := 2, document := some (genre "rock") }]
    let now := before.after
      [.insert { fileName := "a.mp3", size := 1, document := some (genre "Rock") }]
    let m := (empty .empty).after (before.groups.map .add ++ now.groups.map .refresh)
    let m' := (empty .empty).after (now.groups.map .add)
    m.values (.field .audio "genre") = [(.text "rock", 2)] ∧
      m'.values (.field .audio "genre") = [(.text "Rock", 2)] ∧ m.indexed = m'.indexed ∧
      ¬ m.LabelsFollowFirst := by
  intro genre before now m m'
  have values : m.values (.field .audio "genre") = [(.text "rock", 2)] := by decide +kernel
  refine ⟨values, by decide +kernel, by decide +kernel, fun follow => ?_⟩
  obtain ⟨first, isFirst, recorded⟩ := follow (.field .audio "genre") (.text "rock") 2
    (values ▸ List.mem_cons_self)
  have zero : first = ⟨0⟩ :=
    GroupId.eq_of_val (Nat.le_zero.mp (isFirst.le ⟨0⟩ (by decide +kernel)))
  subst zero
  revert recorded
  decide +kernel

end FacetModel

end PeerSearch
