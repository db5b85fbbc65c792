import Mathlib
import PeerSearch.Facet.Model
import PeerSearch.Proofs.SortedMap

/-!
# PeerSearch.Proofs.Facet.Links -- buckets and what they stand for

A facet model keeps two things: what is recorded of each group, and the buckets that link values to
groups. While a group is recorded anew the two are out of step, so `Links` compares the buckets with
any record at all: linking adds an entry to it and unlinking takes one away.
-/

namespace PeerSearch

/-! ## Records -/

/-- Which entries are recorded of which group. -/
abbrev FacetRecord := GroupId → FacetEntry → Prop

namespace FacetRecord

/-- The group has a value on the axis that is counted under `folded`. -/
def Carries (record : FacetRecord) (id : GroupId) (axis : Axis) (folded : FacetValue) : Prop :=
  ∃ value, record id (axis, value) ∧ value.folded = folded

/-- No group has two values on one axis. -/
def Single (record : FacetRecord) : Prop :=
  ∀ id axis v w, record id (axis, v) → record id (axis, w) → v = w

/-- The record with one entry more. -/
def adding (record : FacetRecord) (id : GroupId) (e : FacetEntry) : FacetRecord :=
  fun k x => record k x ∨ (k = id ∧ x = e)

/-- The record with one entry less. -/
def without (record : FacetRecord) (id : GroupId) (e : FacetEntry) : FacetRecord :=
  fun k x => record k x ∧ ¬ (k = id ∧ x = e)

variable {record : FacetRecord} {id k : GroupId} {e : FacetEntry} {axis : Axis}
  {folded : FacetValue}

theorem carries_adding_iff : (record.adding id e).Carries k axis folded ↔
    record.Carries k axis folded ∨ (k = id ∧ e.1 = axis ∧ e.2.folded = folded) := by
  constructor
  · rintro ⟨value, had | ⟨rfl, rfl⟩, folds⟩
    · exact .inl ⟨value, had, folds⟩
    · exact .inr ⟨rfl, rfl, folds⟩
  · rintro (⟨value, had, folds⟩ | ⟨rfl, rfl, folds⟩)
    · exact ⟨value, .inl had, folds⟩
    · exact ⟨e.2, .inr ⟨rfl, rfl⟩, folds⟩

/-- With one value on an axis, a group that loses it has none there. -/
theorem Single.carries_without_iff (single : record.Single) (had : record id e) :
    (record.without id e).Carries k axis folded ↔
      record.Carries k axis folded ∧ ¬ (k = id ∧ e.1 = axis ∧ e.2.folded = folded) := by
  constructor
  · rintro ⟨value, ⟨kept, other⟩, folds⟩
    refine ⟨⟨value, kept, folds⟩, ?_⟩
    rintro ⟨rfl, rfl, -⟩
    exact other ⟨rfl, by rw [single k e.1 value e.2 kept had]⟩
  · rintro ⟨⟨value, kept, folds⟩, other⟩
    refine ⟨value, ⟨kept, ?_⟩, folds⟩
    rintro ⟨rfl, rfl⟩
    exact other ⟨rfl, rfl, folds⟩

theorem Single.without (single : record.Single) : (record.without id e).Single :=
  fun k axis v w hv hw => single k axis v w hv.1 hw.1

end FacetRecord

/-! ## What buckets stand for -/

variable {m : FacetModel} {record : FacetRecord}

/-- A bucket holds the groups that carry its value, under a spelling that one of them recorded. -/
structure FacetBucket.Holds (b : FacetBucket) (record : FacetRecord) (axis : Axis)
    (folded : FacetValue) : Prop where
  members : ∀ id, id ∈ b.groups.toList ↔ record.Carries id axis folded
  labelled : record b.labelledBy (axis, b.label)
  folds : b.label.folded = folded

namespace FacetModel

/-- The bucket of the groups that are counted under `folded` on an axis. -/
def bucketUnder? (m : FacetModel) (axis : Axis) (folded : FacetValue) : Option FacetBucket :=
  (m.buckets axis).find? folded

/-- The buckets are those of a record: every bucket holds what it should, every value has one, and
no axis is kept without buckets. -/
structure Links (m : FacetModel) (record : FacetRecord) : Prop where
  holds : ∀ axis folded b, m.bucketUnder? axis folded = some b → b.Holds record axis folded
  found : ∀ id axis folded, record.Carries id axis folded →
    ∃ b, m.bucketUnder? axis folded = some b
  filled : ∀ axis buckets, m.axes.find? axis = some buckets → buckets ≠ ∅

theorem Links.congr {record' : FacetRecord} (h : m.Links record)
    (same : ∀ id e, record' id e ↔ record id e) : m.Links record' := by
  obtain rfl : record' = record := funext fun id => funext fun e => propext (same id e)
  exact h

/-- Buckets are read off the axes alone. -/
theorem Links.of_axes (h : m.Links record) (m' : FacetModel) (same : m'.axes = m.axes) :
    m'.Links record := by
  have buckets (axis : Axis) : m'.buckets axis = m.buckets axis := by
    rw [FacetModel.buckets, FacetModel.buckets, same]
  refine ⟨fun axis folded b hb => h.holds axis folded b ?_, fun id axis folded hc => ?_,
    same ▸ h.filled⟩
  · rwa [bucketUnder?, ← buckets]
  · rw [bucketUnder?, buckets]
    exact h.found id axis folded hc

theorem empty_links (registry : Registry) : (empty registry).Links fun _ _ => False where
  holds _ _ _ hb := by cases hb
  found _ _ _ hc := by
    obtain ⟨_, had, _⟩ := hc
    cases had
  filled _ _ h := by cases h

/-! ### Other buckets on one axis -/

theorem find?_putBuckets (axes : SortedMap Axis FacetBuckets) (axis j : Axis)
    (buckets : FacetBuckets) :
    ((putBuckets axes axis buckets).find? j).getD ∅ =
      if axis = j then buckets else (axes.find? j).getD ∅ := by
  unfold putBuckets
  split
  · next empty =>
    rw [SortedMap.find?_erase, SortedMap.isEmpty_iff.mp empty]
    by_cases h : axis = j <;> simp [h, Ne.symm]
  · rw [SortedMap.find?_insert]
    split <;> rfl

/-- With other buckets on one axis, none of the axes is left without buckets. -/
theorem filled_putBuckets {axes : SortedMap Axis FacetBuckets}
    (filled : ∀ j bs, axes.find? j = some bs → bs ≠ ∅) (axis : Axis) (buckets : FacetBuckets)
    (j : Axis) (bs : FacetBuckets) (h : (putBuckets axes axis buckets).find? j = some bs) :
    bs ≠ ∅ := by
  unfold putBuckets at h
  split at h
  · rw [SortedMap.find?_erase] at h
    split at h
    · cases h
    · exact filled j bs h
  · next nonempty =>
    rw [SortedMap.find?_insert] at h
    split at h
    · obtain rfl := Option.some.inj h
      exact fun empty => nonempty (SortedMap.isEmpty_iff.mpr empty)
    · exact filled j bs h

/-- A model in which one bucket has changed, and no axis is kept without buckets. -/
structure OneBucket (m m' : FacetModel) (axis : Axis) (folded : FacetValue)
    (b : Option FacetBucket) : Prop where
  here : m'.bucketUnder? axis folded = b
  others : ∀ j f, ¬ (axis = j ∧ folded = f) → m'.bucketUnder? j f = m.bucketUnder? j f
  filled : (∀ j bs, m.axes.find? j = some bs → bs ≠ ∅) →
    ∀ j bs, m'.axes.find? j = some bs → bs ≠ ∅

theorem oneBucket_put (m : FacetModel) (axis : Axis) {folded : FacetValue}
    {buckets : FacetBuckets} {b : Option FacetBucket} (here : buckets.find? folded = b)
    (others : ∀ f, folded ≠ f → buckets.find? f = (m.buckets axis).find? f) :
    m.OneBucket { m with axes := putBuckets m.axes axis buckets } axis folded b := by
  refine ⟨?_, fun j f other => ?_, fun filled => filled_putBuckets filled _ _⟩
  · rw [bucketUnder?, FacetModel.buckets, find?_putBuckets, if_pos rfl, here]
  · rw [bucketUnder?, FacetModel.buckets, find?_putBuckets]
    split
    · next same =>
      subst same
      exact others f fun h => other ⟨rfl, h⟩
    · rfl

theorem oneBucket_insert (m : FacetModel) (axis : Axis) (folded : FacetValue) (b : FacetBucket) :
    m.OneBucket { m with axes := putBuckets m.axes axis ((m.buckets axis).insert folded b) }
      axis folded (some b) := by
  apply oneBucket_put
  · rw [SortedMap.find?_insert, if_pos rfl]
  · intro f other
    rw [SortedMap.find?_insert, if_neg other]

theorem oneBucket_erase (m : FacetModel) (axis : Axis) (folded : FacetValue) :
    m.OneBucket { m with axes := putBuckets m.axes axis ((m.buckets axis).erase folded) }
      axis folded none := by
  apply oneBucket_put
  · rw [SortedMap.find?_erase, if_pos rfl]
  · intro f other
    rw [SortedMap.find?_erase, if_neg other.symm]

/-- The links after one bucket has changed: what has to be shown of that bucket, and that the others
hold the same groups as before. -/
theorem Links.oneBucket {m' : FacetModel} {record' : FacetRecord} {axis : Axis}
    {folded : FacetValue} {b : Option FacetBucket} (h : m.Links record)
    (one : m.OneBucket m' axis folded b) (here : ∀ b', b = some b' → b'.Holds record' axis folded)
    (carried : ∀ id, record'.Carries id axis folded → ∃ b', b = some b')
    (others : ∀ j f, ¬ (axis = j ∧ folded = f) →
      (∀ id, record'.Carries id j f ↔ record.Carries id j f) ∧
        ∀ id v, v.folded = f → record id (j, v) → record' id (j, v)) :
    m'.Links record' := by
  refine ⟨fun j f b' hb => ?_, fun id j f hc => ?_, one.filled h.filled⟩
  · by_cases same : axis = j ∧ folded = f
    · obtain ⟨rfl, rfl⟩ := same
      exact here b' (one.here.symm.trans hb)
    · rw [one.others j f same] at hb
      have old := h.holds j f b' hb
      have ⟨members, kept⟩ := others j f same
      exact ⟨fun id => (old.members id).trans (members id).symm,
        kept b'.labelledBy b'.label old.folds old.labelled, old.folds⟩
  · by_cases same : axis = j ∧ folded = f
    · obtain ⟨rfl, rfl⟩ := same
      rw [one.here]
      exact carried id hc
    · rw [one.others j f same]
      exact h.found id j f (((others j f same).1 id).mp hc)

/-! ## Linking and unlinking -/

theorem Links.link (h : m.Links record) (id : GroupId) (e : FacetEntry) :
    (m.link id e).Links (record.adding id e) := by
  refine h.oneBucket (m.oneBucket_insert e.1 e.2.folded _) ?_ (fun _ _ => ⟨_, rfl⟩)
    fun j f other => ⟨fun k => ?_, fun _ _ _ had => .inl had⟩
  · intro b' hb
    obtain rfl := Option.some.inj hb
    -- A value that is new gets a bucket of its own, labelled by the group that brings it.
    cases hold : m.bucket? e.1 e.2 with
    | none =>
        refine ⟨fun k => ?_, .inr ⟨rfl, rfl⟩, rfl⟩
        have noone : ¬ record.Carries k e.1 e.2.folded := by
          intro hc
          obtain ⟨b, hb⟩ := h.found k e.1 e.2.folded hc
          cases hold.symm.trans hb
        rw [FacetRecord.carries_adding_iff, or_iff_right noone, and_iff_left ⟨rfl, rfl⟩]
        exact SortedSet.mem_add.trans (or_iff_left List.not_mem_nil)
    | some b =>
        have old := h.holds e.1 e.2.folded b hold
        refine ⟨fun k => ?_, .inl old.labelled, old.folds⟩
        rw [FacetRecord.carries_adding_iff, ← old.members, and_iff_left ⟨rfl, rfl⟩]
        exact SortedSet.mem_add.trans or_comm
  · rw [FacetRecord.carries_adding_iff]
    exact or_iff_left fun hc => other hc.2

/-- What is left of a bucket without a group: the earliest group left labels it when the group that
did so leaves. -/
def bucketWithout (m : FacetModel) (b : FacetBucket) (id : GroupId) (e : FacetEntry) :
    Option FacetBucket :=
  let groups : SortedSet GroupId := b.groups.erase id
  groups.toList.head?.map fun next =>
    if b.labelledBy = id then ⟨(m.spelling? next e.1 e.2.folded).getD b.label, next, groups⟩
    else { b with groups }

theorem oneBucket_unlink {id : GroupId} {e : FacetEntry} {b : FacetBucket}
    (hb : m.bucket? e.1 e.2 = some b) :
    m.OneBucket (m.unlink id e) e.1 e.2.folded (m.bucketWithout b id e) := by
  simp only [unlink, hb, bucketWithout]
  split
  · next left =>
    rw [left]
    exact m.oneBucket_erase e.1 e.2.folded
  · next next rest left =>
    rw [left]
    exact m.oneBucket_insert e.1 e.2.folded _

/-- The spelling of a group that carries a value is one that the group has recorded. -/
theorem spelling?_of_carries {id : GroupId} {axis : Axis} {folded : FacetValue}
    (h : FacetRecord.Carries (fun k e => e ∈ m.recorded k) id axis folded) :
    ∃ value, m.spelling? id axis folded = some value ∧ (axis, value) ∈ m.recorded id ∧
      value.folded = folded := by
  obtain ⟨value, hv, folds⟩ := h
  have found : ((m.recorded id).find? fun e => e.1 == axis && e.2.folded == folded).isSome := by
    rw [List.find?_isSome]
    exact ⟨(axis, value), hv, by simp [folds]⟩
  obtain ⟨⟨j, w⟩, hw⟩ := Option.isSome_iff_exists.mp found
  have fits := List.find?_some hw
  simp only [Bool.and_eq_true, beq_iff_eq] at fits
  obtain ⟨rfl, folds'⟩ := fits
  refine ⟨w, ?_, List.mem_of_find?_eq_some hw, folds'⟩
  rw [spelling?, ← recorded, hw, Option.map_some]

theorem Links.unlink (h : m.Links record) (single : record.Single) {id : GroupId} {e : FacetEntry}
    (had : record id e) (others : ∀ k, k ≠ id → ∀ x, x ∈ m.recorded k ↔ record k x) :
    (m.unlink id e).Links (record.without id e) := by
  have carries {k : GroupId} {j : Axis} {f : FacetValue} : (record.without id e).Carries k j f ↔
      record.Carries k j f ∧ ¬ (k = id ∧ e.1 = j ∧ e.2.folded = f) :=
    single.carries_without_iff had
  obtain ⟨b, hb⟩ := h.found id e.1 e.2.folded ⟨e.2, had, rfl⟩
  have old := h.holds e.1 e.2.folded b hb
  have left (k : GroupId) : k ∈ SortedSet.toList (b.groups.erase id) ↔
      (record.without id e).Carries k e.1 e.2.folded := by
    rw [carries, SortedSet.mem_erase, old.members, and_comm]
    simp
  refine h.oneBucket (oneBucket_unlink hb) ?_ ?_ fun j f other => ⟨fun k => ?_, ?_⟩
  · intro b' hb'
    obtain ⟨next, hnext, rfl⟩ := Option.map_eq_some_iff.mp hb'
    have stays := (left next).mp (List.mem_of_head? hnext)
    split
    · -- The next group has recorded a spelling of its own, which is not the one that goes.
      next leaves =>
      have ne : next ≠ id := fun same => (carries.mp stays).2 ⟨same, rfl, rfl⟩
      have carried : FacetRecord.Carries (fun k x => x ∈ m.recorded k) next e.1 e.2.folded := by
        obtain ⟨value, hv, folds⟩ := stays
        exact ⟨value, (others next ne _).mpr hv.1, folds⟩
      obtain ⟨value, spelled, hv, folds⟩ := spelling?_of_carries carried
      rw [spelled]
      exact ⟨left, ⟨(others next ne _).mp hv, fun same => ne same.1⟩, folds⟩
    · next stays =>
      exact ⟨left, ⟨old.labelled, fun same => stays same.1⟩, old.folds⟩
  · intro k hk
    have first : (SortedSet.toList (b.groups.erase id)).head?.isSome := by
      rw [List.isSome_head?]
      exact List.ne_nil_of_mem ((left k).mpr hk)
    obtain ⟨next, hnext⟩ := Option.isSome_iff_exists.mp first
    exact ⟨_, Option.map_eq_some_iff.mpr ⟨next, hnext, rfl⟩⟩
  · rw [carries]
    exact and_iff_left fun hc => other hc.2
  · rintro k v rfl hv
    refine ⟨hv, ?_⟩
    rintro ⟨-, rfl⟩
    exact other ⟨rfl, rfl⟩

end FacetModel

end PeerSearch
