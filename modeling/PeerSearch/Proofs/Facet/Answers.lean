import PeerSearch.Proofs.Facet.Consistent

/-!
# PeerSearch.Proofs.Facet.Answers -- what a facet model answers

A facet model answers from its buckets, which are patched with every command. What it should answer
can be read off the records alone, by looking at every group: `carriers` does so, and `Exact` says
that each answer is the one found in that way. Reading a group anew tells whether its record has
changed; records are compared as the sets of their entries, whatever order these stand in.
-/

namespace PeerSearch

namespace FacetModel

variable {m : FacetModel} {id : GroupId} {axis : Axis} {folded : FacetValue}

/-! ## Looking at every group -/

/-- The indexed groups with a value that is counted under `folded` on an axis, in increasing order. -/
def carriers (m : FacetModel) (axis : Axis) (folded : FacetValue) : List GroupId :=
  m.indexed.keys.filter fun id => (m.recorded id).any fun e => e.1 == axis && e.2.folded == folded

theorem mem_carriers_iff : id ∈ m.carriers axis folded ↔
    ∃ v, (axis, v) ∈ m.recorded id ∧ v.folded = folded := by
  simp only [carriers, List.mem_filter, List.any_eq_true, Bool.and_eq_true, beq_iff_eq]
  constructor
  · rintro ⟨-, ⟨_, v⟩, hv, rfl, folds⟩
    exact ⟨v, hv, folds⟩
  · rintro ⟨v, hv, folds⟩
    refine ⟨m.indexed.mem_keys_iff.mpr ?_, (axis, v), hv, rfl, folds⟩
    -- Of a group that is not indexed, nothing is recorded.
    cases found : m.indexed.find? id with
    | none =>
        rw [recorded, found] at hv
        cases hv
    | some entries => exact ⟨entries, rfl⟩

theorem carriers_increasing (m : FacetModel) (axis : Axis) (folded : FacetValue) :
    (m.carriers axis folded).Pairwise fun a b => compare a b = .lt :=
  m.indexed.keys_increasing.filter _

/-! ## Buckets -/

theorem Consistent.toList_groups (h : m.Consistent) {b : FacetBucket}
    (hb : m.bucketUnder? axis folded = some b) : b.groups.toList = m.carriers axis folded := by
  refine SortedMap.eq_of_increasing id b.groups.keys_increasing (m.carriers_increasing axis folded) ?_
  intro id
  rw [mem_carriers_iff]
  exact (h.links.holds axis folded b hb).members id

theorem Consistent.bucketUnder?_isSome_iff (h : m.Consistent) :
    (∃ b, m.bucketUnder? axis folded = some b) ↔ m.carriers axis folded ≠ [] := by
  constructor
  · rintro ⟨b, hb⟩
    have holds := h.links.holds axis folded b hb
    have first : b.labelledBy ∈ m.carriers axis folded :=
      mem_carriers_iff.mpr ⟨b.label, holds.labelled, holds.folds⟩
    exact List.ne_nil_of_mem first
  · intro some
    obtain ⟨id, hid⟩ := List.exists_mem_of_ne_nil _ some
    exact h.links.found id axis folded (mem_carriers_iff.mp hid)

theorem mem_values_iff {p : FacetValue × Nat} : p ∈ m.values axis ↔
    ∃ folded b, m.bucketUnder? axis folded = some b ∧ p = (b.label, b.groups.size) := by
  rw [values, List.mem_map]
  constructor
  · rintro ⟨b, hb, rfl⟩
    obtain ⟨folded, found⟩ := (m.buckets axis).mem_values_iff.mp hb
    exact ⟨folded, b, found, rfl⟩
  · rintro ⟨folded, b, found, rfl⟩
    exact ⟨b, (m.buckets axis).mem_values_iff.mpr ⟨folded, found⟩, rfl⟩

/-- The labels of an axis are spellings of the keys of its buckets. -/
theorem Consistent.labels_folded (h : m.Consistent) (axis : Axis) :
    (m.buckets axis).values.map (·.label.folded) = (m.buckets axis).keys := by
  rw [SortedMap.values, SortedMap.keys, List.map_map]
  refine List.map_congr_left ?_
  rintro ⟨folded, b⟩ hb
  exact (h.links.holds axis folded b ((m.buckets axis).mem_entries_iff.mp hb)).folds

theorem mem_axisOptions_iff : axis ∈ m.axisOptions ↔ m.axes.find? axis ≠ none := by
  rw [axisOptions, SortedMap.mem_keys_iff, Option.ne_none_iff_exists']

/-! ## Exact answers -/

/-- Every answer is the one that looking at every group finds. -/
structure Exact (m : FacetModel) : Prop where
  /-- A group has one value at most on an axis. -/
  oneEach : ∀ id, OneEach (m.recorded id)
  /-- The groups of a value are those that have recorded it in whatever case. -/
  groupsFor : ∀ axis value, (m.groupsFor? axis value).map SortedSet.toList =
    if m.carriers axis value.folded = [] then none else some (m.carriers axis value.folded)
  /-- No axis is kept without buckets and no bucket without groups. -/
  filled : ∀ axis buckets, m.axes.find? axis = some buckets →
    buckets.values ≠ [] ∧ ∀ b ∈ buckets.values, b.groups.toList ≠ []
  /-- The axes are those on which something is recorded, each once and in order. -/
  axes : ∀ axis, axis ∈ m.axisOptions ↔ ∃ id v, (axis, v) ∈ m.recorded id
  axesInOrder : m.axisOptions.Pairwise fun a b => compare a b = .lt
  /-- Every value that is recorded is listed, values that differ in case only as one. -/
  listed : ∀ axis id v, (axis, v) ∈ m.recorded id →
    ∃ label n, (label, n) ∈ m.values axis ∧ label.folded = v.folded
  valuesInOrder : ∀ axis,
    (m.values axis).Pairwise fun a b => compare a.1.folded b.1.folded = .lt
  /-- A value is spelled as one of its groups spells it, and counted once for each of them. -/
  counted : ∀ axis label n, (label, n) ∈ m.values axis →
    (∃ id, (axis, label) ∈ m.recorded id) ∧ n = (m.carriers axis label.folded).length
  /-- Narrowing to the groups of a value counts those of them that each listed value has. -/
  narrowed : ∀ parent value child, m.intersection parent value child =
    (m.values child).filterMap fun p =>
      let both := (m.carriers child p.1.folded).filter (m.carriers parent value.folded).contains
      if both = [] then none else some (p.1, both.length)

theorem Consistent.groupsFor?_eq (h : m.Consistent) (axis : Axis) (value : FacetValue) :
    (m.groupsFor? axis value).map SortedSet.toList =
      if m.carriers axis value.folded = [] then none else some (m.carriers axis value.folded) := by
  have bucket : m.bucket? axis value = m.bucketUnder? axis value.folded := rfl
  rw [groupsFor?, bucket]
  cases hb : m.bucketUnder? axis value.folded with
  | none =>
      have nobody : m.carriers axis value.folded = [] := by
        by_contra somebody
        obtain ⟨b, found⟩ := h.bucketUnder?_isSome_iff.mpr somebody
        cases hb.symm.trans found
      rw [if_pos nobody]
      rfl
  | some b =>
      rw [if_neg (h.bucketUnder?_isSome_iff.mp ⟨b, hb⟩), ← h.toList_groups hb]
      rfl

/-- Which groups have a value is settled by what is recorded of each, however that came about. -/
theorem Consistent.groupsFor?_congr {m' : FacetModel} (h : m.Consistent) (h' : m'.Consistent)
    (indexed : m.indexed = m'.indexed) (axis : Axis) (value : FacetValue) :
    m.groupsFor? axis value = m'.groupsFor? axis value := by
  have carriers : m.carriers axis value.folded = m'.carriers axis value.folded := by
    simp only [FacetModel.carriers, recorded, indexed]
  have listed := h.groupsFor?_eq axis value
  rw [carriers, ← h'.groupsFor?_eq] at listed
  refine Option.map_injective (fun s s' same => ?_) listed
  exact SortedSet.eq_of_mem_iff fun k => by rw [same]

theorem Consistent.axes_filled (h : m.Consistent) {buckets : FacetBuckets}
    (found : m.axes.find? axis = some buckets) :
    buckets.values ≠ [] ∧ ∀ b ∈ buckets.values, b.groups.toList ≠ [] := by
  have own : m.buckets axis = buckets := by rw [FacetModel.buckets, found, Option.getD_some]
  constructor
  · intro none
    refine h.links.filled axis buckets found (SortedMap.eq_of_entries ?_)
    exact List.map_eq_nil_iff.mp none
  · intro b hb
    obtain ⟨folded, hb⟩ := buckets.mem_values_iff.mp hb
    have under : m.bucketUnder? axis folded = some b := by rw [bucketUnder?, own, hb]
    rw [h.toList_groups under]
    exact h.bucketUnder?_isSome_iff.mp ⟨b, under⟩

theorem Consistent.mem_axisOptions_iff (h : m.Consistent) :
    axis ∈ m.axisOptions ↔ ∃ id v, (axis, v) ∈ m.recorded id := by
  rw [FacetModel.mem_axisOptions_iff]
  constructor
  · intro kept
    obtain ⟨buckets, found⟩ := Option.ne_none_iff_exists'.mp kept
    obtain ⟨b, hb⟩ := List.exists_mem_of_ne_nil _ (h.axes_filled found).1
    obtain ⟨folded, hb⟩ := buckets.mem_values_iff.mp hb
    have under : m.bucketUnder? axis folded = some b := by
      rw [bucketUnder?, FacetModel.buckets, found, Option.getD_some, hb]
    exact ⟨b.labelledBy, b.label, (h.links.holds axis folded b under).labelled⟩
  · rintro ⟨id, v, hv⟩ dropped
    obtain ⟨b, hb⟩ := h.links.found id axis v.folded ⟨v, hv, rfl⟩
    rw [bucketUnder?, FacetModel.buckets, dropped] at hb
    cases hb

theorem Consistent.values_listed (h : m.Consistent) {v : FacetValue}
    (hv : (axis, v) ∈ m.recorded id) :
    ∃ label n, (label, n) ∈ m.values axis ∧ label.folded = v.folded := by
  obtain ⟨b, hb⟩ := h.links.found id axis v.folded ⟨v, hv, rfl⟩
  exact ⟨b.label, b.groups.size, mem_values_iff.mpr ⟨v.folded, b, hb, rfl⟩,
    (h.links.holds axis v.folded b hb).folds⟩

theorem Consistent.values_increasing (h : m.Consistent) (axis : Axis) :
    (m.values axis).Pairwise fun a b => compare a.1.folded b.1.folded = .lt := by
  have keys := (m.buckets axis).keys_increasing
  rw [← h.labels_folded axis] at keys
  exact List.pairwise_map.mpr (List.pairwise_map.mp keys)

theorem Consistent.values_counted (h : m.Consistent) {label : FacetValue} {n : Nat}
    (listed : (label, n) ∈ m.values axis) :
    (∃ id, (axis, label) ∈ m.recorded id) ∧ n = (m.carriers axis label.folded).length := by
  obtain ⟨folded, b, hb, heq⟩ := mem_values_iff.mp listed
  obtain ⟨rfl, rfl⟩ := Prod.mk.inj heq
  have holds := h.links.holds axis folded b hb
  refine ⟨⟨b.labelledBy, holds.labelled⟩, ?_⟩
  rw [holds.folds, ← h.toList_groups hb, SortedMap.size, SortedSet.toList, SortedMap.keys,
    List.length_map]

theorem Consistent.intersection_eq (h : m.Consistent) (parent : Axis) (value : FacetValue)
    (child : Axis) : m.intersection parent value child =
      (m.values child).filterMap fun p =>
        let both := (m.carriers child p.1.folded).filter (m.carriers parent value.folded).contains
        if both = [] then none else some (p.1, both.length) := by
  have selected := h.groupsFor?_eq parent value
  rw [intersection, values]
  cases hgroups : m.groupsFor? parent value with
  | none =>
      -- Nobody has the value, so nobody is left on the other axis.
      rw [hgroups, Option.map_none] at selected
      have nobody : m.carriers parent value.folded = [] := by
        by_contra somebody
        rw [if_neg somebody] at selected
        cases selected
      simp [nobody]
  | some groups =>
      rw [hgroups, Option.map_some] at selected
      have same : groups.toList = m.carriers parent value.folded := by
        split at selected
        · cases selected
        · exact Option.some.inj selected
      rw [List.filterMap_map]
      refine List.filterMap_congr fun b hb => ?_
      obtain ⟨folded, found⟩ := (m.buckets child).mem_values_iff.mp hb
      have under : m.bucketUnder? child folded = some b := found
      have members := h.toList_groups under
      have chosen : groups.contains = (m.carriers parent value.folded).contains := by
        funext k
        rw [← same, SortedSet.contains_toList]
      simp only [Function.comp_apply, (h.links.holds child folded b under).folds, ← members, chosen,
        beq_iff_eq, List.length_eq_zero_iff]

theorem Consistent.exact (h : m.Consistent) : m.Exact where
  oneEach := h.oneEach
  groupsFor := h.groupsFor?_eq
  filled _ _ := h.axes_filled
  axes _ := h.mem_axisOptions_iff
  axesInOrder := m.axes.keys_increasing
  listed _ _ _ := h.values_listed
  valuesInOrder := h.values_increasing
  counted _ _ _ := h.values_counted
  narrowed := h.intersection_eq

/-! ## Reading a group anew -/

/-- Recording entries makes a difference exactly when they are other entries. -/
theorem Consistent.differs_iff (h : m.Consistent) (id : GroupId) {entries : List FacetEntry}
    (oneEach : OneEach entries) :
    m.differs id entries = true ↔ ¬ ∀ e, e ∈ entries ↔ e ∈ m.recorded id := by
  have previous := (h.oneEach id).nodup
  have differs : m.differs id entries = true ↔
      ¬ ((m.recorded id).length = entries.length ∧ m.recorded id ⊆ entries) := by
    simp only [FacetModel.differs, Bool.or_eq_true, bne_iff_ne, List.any_eq_true,
      Bool.not_eq_true', List.contains_eq_mem, decide_eq_false_iff_not, not_and_or,
      List.subset_def, not_forall, exists_prop, ne_eq]
  rw [differs, not_iff_not]
  constructor
  · rintro ⟨length, sub⟩ e
    exact ((previous.subperm sub).perm_of_length_le length.ge).mem_iff.symm
  · intro same
    have perm := (List.perm_ext_iff_of_nodup oneEach.nodup previous).mpr same
    exact ⟨perm.length_eq.symm, perm.symm.subset⟩

/-- A group that is indexed has been read anew, and `now` is what is recorded of it from now on. -/
structure Rereads (m : FacetModel) (id : GroupId) (now : FacetEntry → Prop)
    (result : FacetModel × Bool) : Prop where
  recorded : ∀ e, e ∈ result.1.recorded id ↔ m.contains id = true ∧ now e
  others : ∀ k, k ≠ id → result.1.indexed.find? k = m.indexed.find? k
  /-- The answer tells whether the record of the group is another than before. -/
  told : result.2 = true ↔ ¬ ∀ e, e ∈ result.1.recorded id ↔ e ∈ m.recorded id

/-- A group that is not indexed is left alone. -/
theorem rereads_of_unknown {now : FacetEntry → Prop} (unknown : ¬ m.contains id = true) :
    m.Rereads id now (m, false) := by
  rw [contains, SortedMap.contains_eq_isSome, Bool.not_eq_true, Option.isSome_eq_false_iff,
    Option.isNone_iff_eq_none] at unknown
  refine ⟨fun e => ?_, fun _ _ => rfl, by simp⟩
  rw [FacetModel.recorded, contains, SortedMap.contains_eq_isSome, unknown]
  simp

theorem Consistent.rereads (h : m.Consistent) {entries : List FacetEntry}
    (indexed : m.contains id = true) (oneEach : OneEach entries) :
    m.Rereads id (· ∈ entries) (m.replace id entries, m.differs id entries) where
  recorded e := by rw [recorded_replace, if_pos rfl, and_iff_right indexed]
  others k hk := by rw [find?_replace, if_neg hk]
  told := by
    rw [recorded_replace, if_pos rfl]
    exact h.differs_iff id oneEach

theorem mem_withProperty_iff {g : Group} {p : Property} {e : FacetEntry} :
    e ∈ m.withProperty g p ↔
      if e.1 = .property p then p.valueOf? g = some e.2 else e ∈ m.recorded g.id := by
  obtain ⟨axis, v⟩ := e
  simp only [withProperty, List.mem_append, List.mem_filter, Option.mem_toList,
    Option.map_eq_some_iff, Prod.mk.injEq, bne_iff_ne]
  split
  · next own => simp [own]
  · next other => simp [other, Ne.symm other]

theorem Consistent.updateProperty_rereads (h : m.Consistent) (g : Group) (p : Property) :
    m.Rereads g.id
      (fun e => if e.1 = .property p then p.valueOf? g = some e.2 else e ∈ m.recorded g.id)
      (m.updateProperty g p) := by
  simp only [updateProperty, ← mem_withProperty_iff]
  split
  · next indexed => exact h.rereads indexed (h.withProperty_oneEach g p)
  · next unknown => exact rereads_of_unknown unknown

theorem Consistent.refresh_rereads (h : m.Consistent) (g : Group) :
    m.Rereads g.id (· ∈ g.facetEntries m.registry) (m.refresh g) := by
  unfold refresh
  split
  · next indexed => exact h.rereads indexed (g.facetEntries_oneEach m.registry)
  · next unknown => exact rereads_of_unknown unknown

/-- Whatever a model was told, its answers are those that looking at every record would give. Adding
and removing a group, and reading it anew, change the record of that group only, and reading it anew
tells truly whether it does. -/
theorem answers_come_from_records (registry : Registry) (commands : List FacetCommand) :
    let m := (empty registry).after commands
    m.Exact ∧
      (∀ g k, (m.add g).indexed.find? k =
        if k = g.id then some (g.facetEntries m.registry) else m.indexed.find? k) ∧
      (∀ id k, (m.remove id).indexed.find? k = if k = id then none else m.indexed.find? k) ∧
      (∀ g p, m.Rereads g.id
        (fun e => if e.1 = .property p then p.valueOf? g = some e.2 else e ∈ m.recorded g.id)
        (m.updateProperty g p)) ∧
      ∀ g, m.Rereads g.id (· ∈ g.facetEntries m.registry) (m.refresh g) := by
  intro m
  have h : m.Consistent := (empty_consistent registry).after commands
  exact ⟨h.exact, m.find?_add, m.find?_remove, h.updateProperty_rereads, h.refresh_rereads⟩

end FacetModel

end PeerSearch
