import PeerSearch.Facet.Command
import PeerSearch.Proofs.Facet.Entries
import PeerSearch.Proofs.Facet.Links

/-!
# PeerSearch.Proofs.Facet.Consistent -- records and buckets fit after every command

Every command of a facet model comes down to recording other entries for a group: the entries that
go are unlinked and the new ones linked, and in the end the buckets are those of what is recorded.
What a command records is one lemma each, so that callers need not know how the buckets are kept.
-/

namespace PeerSearch

namespace FacetModel

variable {m : FacetModel} {record : FacetRecord}

/-! ## Several entries of one group -/

/-- Links several entries of a group. -/
def linkAll (m : FacetModel) (id : GroupId) (entries : List FacetEntry) : FacetModel :=
  entries.foldl (fun m e => m.link id e) m

/-- Unlinks several entries of a group. -/
def unlinkAll (m : FacetModel) (id : GroupId) (entries : List FacetEntry) : FacetModel :=
  entries.foldl (fun m e => m.unlink id e) m

theorem unlink_keeps (m : FacetModel) (id : GroupId) (e : FacetEntry) :
    (m.unlink id e).indexed = m.indexed ∧ (m.unlink id e).registry = m.registry := by
  unfold unlink
  split
  · exact ⟨rfl, rfl⟩
  · dsimp only
    split <;> exact ⟨rfl, rfl⟩

theorem linkAll_keeps (m : FacetModel) (id : GroupId) (entries : List FacetEntry) :
    (m.linkAll id entries).indexed = m.indexed ∧
      (m.linkAll id entries).registry = m.registry := by
  induction entries generalizing m with
  | nil => exact ⟨rfl, rfl⟩
  | cons e rest ih => exact ih (m.link id e)

theorem unlinkAll_keeps (m : FacetModel) (id : GroupId) (entries : List FacetEntry) :
    (m.unlinkAll id entries).indexed = m.indexed ∧
      (m.unlinkAll id entries).registry = m.registry := by
  induction entries generalizing m with
  | nil => exact ⟨rfl, rfl⟩
  | cons e rest ih =>
      have rest := ih (m.unlink id e)
      have first := m.unlink_keeps id e
      exact ⟨rest.1.trans first.1, rest.2.trans first.2⟩

theorem Links.linkAll (h : m.Links record) (id : GroupId) (entries : List FacetEntry) :
    (m.linkAll id entries).Links fun k x => record k x ∨ (k = id ∧ x ∈ entries) := by
  induction entries generalizing m record with
  | nil => exact h.congr (by simp)
  | cons e rest ih =>
      refine (ih (h.link id e)).congr fun k x => ?_
      simp only [FacetRecord.adding, List.mem_cons]
      tauto

/-- Entries that are recorded, each once, can be unlinked one after the other, as long as the model
still knows what the other groups recorded. -/
theorem Links.unlinkAll (h : m.Links record) (single : record.Single) {id : GroupId}
    {entries : List FacetEntry} (had : ∀ e ∈ entries, record id e) (once : entries.Nodup)
    (others : ∀ k, k ≠ id → ∀ x, x ∈ m.recorded k ↔ record k x) :
    (m.unlinkAll id entries).Links fun k x => record k x ∧ ¬ (k = id ∧ x ∈ entries) := by
  induction entries generalizing m record with
  | nil => exact h.congr (by simp)
  | cons e rest ih =>
      have ⟨first, later⟩ := List.forall_mem_cons.mp had
      have ⟨fresh, once'⟩ := List.nodup_cons.mp once
      have step := ih (h.unlink single first others) single.without
        (fun x hx => ⟨later x hx, fun same => fresh (same.2 ▸ hx)⟩) once' fun k hk x => by
          rw [recorded, (m.unlink_keeps id e).1, ← recorded, others k hk]
          exact (and_iff_left fun same => hk same.1).symm
      refine step.congr fun k x => ?_
      simp only [FacetRecord.without, List.mem_cons]
      tauto

/-! ## The invariant -/

/-- No group has two values on one axis, and the buckets are those of what is recorded. -/
structure Consistent (m : FacetModel) : Prop where
  oneEach : ∀ id, OneEach (m.recorded id)
  links : m.Links fun id e => e ∈ m.recorded id

theorem Consistent.single (h : m.Consistent) :
    FacetRecord.Single fun id e => e ∈ m.recorded id :=
  fun id _ _ _ hv hw => (h.oneEach id).unique hv hw

theorem empty_consistent (registry : Registry) : (empty registry).Consistent := by
  refine ⟨fun _ => List.nodup_nil, (empty_links registry).congr fun _ _ => ?_⟩
  exact iff_of_false List.not_mem_nil not_false

/-! ## Recording other entries for a group -/

/-- The model that forgets a group, but not yet its links. -/
def withdraw (m : FacetModel) (id : GroupId) : FacetModel :=
  { m with indexed := m.indexed.erase id }

theorem recorded_withdraw (m : FacetModel) {id k : GroupId} (other : k ≠ id) :
    (m.withdraw id).recorded k = m.recorded k := by
  rw [recorded, withdraw, SortedMap.find?_erase, if_neg other, recorded]

/-- The model with the links that recording these entries removes and adds. -/
def relink (m : FacetModel) (id : GroupId) (entries : List FacetEntry) : FacetModel :=
  ((m.withdraw id).unlinkAll id ((m.recorded id).filter (!entries.contains ·))).linkAll id
    (entries.filter (!(m.recorded id).contains ·))

theorem relink_keeps (m : FacetModel) (id : GroupId) (entries : List FacetEntry) :
    (m.relink id entries).indexed = m.indexed.erase id ∧
      (m.relink id entries).registry = m.registry := by
  have unlinked := (m.withdraw id).unlinkAll_keeps id ((m.recorded id).filter (!entries.contains ·))
  have linked := ((m.withdraw id).unlinkAll id
    ((m.recorded id).filter (!entries.contains ·))).linkAll_keeps id
      (entries.filter (!(m.recorded id).contains ·))
  exact ⟨linked.1.trans unlinked.1, linked.2.trans unlinked.2⟩

theorem replace_eq (m : FacetModel) (id : GroupId) (entries : List FacetEntry) :
    m.replace id entries =
      { m.relink id entries with
        indexed := (m.relink id entries).indexed.insert id entries } := rfl

/-- What is recorded after entries have been recorded for a group. -/
theorem find?_replace (m : FacetModel) (id k : GroupId) (entries : List FacetEntry) :
    (m.replace id entries).indexed.find? k =
      if k = id then some entries else m.indexed.find? k := by
  rw [replace_eq, (m.relink_keeps id entries).1, SortedMap.find?_insert, SortedMap.find?_erase]
  by_cases h : k = id
  · simp [h]
  · simp [h, Ne.symm h]

theorem find?_add (m : FacetModel) (g : Group) (k : GroupId) :
    (m.add g).indexed.find? k =
      if k = g.id then some (g.facetEntries m.registry) else m.indexed.find? k :=
  m.find?_replace g.id k _

theorem replace_registry (m : FacetModel) (id : GroupId) (entries : List FacetEntry) :
    (m.replace id entries).registry = m.registry :=
  (m.relink_keeps id entries).2

theorem recorded_replace (m : FacetModel) (id k : GroupId) (entries : List FacetEntry) :
    (m.replace id entries).recorded k = if k = id then entries else m.recorded k := by
  rw [recorded, find?_replace]
  split <;> rfl

theorem remove_eq (m : FacetModel) (id : GroupId) :
    m.remove id = (m.withdraw id).unlinkAll id (m.recorded id) := rfl

/-- What is recorded after a group has been forgotten. -/
theorem find?_remove (m : FacetModel) (id k : GroupId) :
    (m.remove id).indexed.find? k = if k = id then none else m.indexed.find? k := by
  rw [remove_eq, ((m.withdraw id).unlinkAll_keeps id _).1]
  exact SortedMap.find?_erase _ _ _

theorem remove_registry (m : FacetModel) (id : GroupId) :
    (m.remove id).registry = m.registry :=
  ((m.withdraw id).unlinkAll_keeps id _).2

theorem recorded_remove (m : FacetModel) (id k : GroupId) :
    (m.remove id).recorded k = if k = id then [] else m.recorded k := by
  rw [recorded, find?_remove]
  split <;> rfl

/-! ### The invariant afterwards -/

/-- Unlinking entries of a group that are recorded, while the group itself is withdrawn. -/
theorem Consistent.unlinked (h : m.Consistent) (id : GroupId) {entries : List FacetEntry}
    (sub : entries.Sublist (m.recorded id)) :
    ((m.withdraw id).unlinkAll id entries).Links fun k x =>
      x ∈ m.recorded k ∧ ¬ (k = id ∧ x ∈ entries) := by
  refine (h.links.of_axes (m.withdraw id) rfl).unlinkAll h.single (fun e he => sub.subset he)
    ((h.oneEach id).nodup.sublist sub) fun k hk x => ?_
  rw [m.recorded_withdraw hk]

theorem Consistent.replace (h : m.Consistent) (id : GroupId) {entries : List FacetEntry}
    (oneEach : OneEach entries) : (m.replace id entries).Consistent := by
  constructor
  · intro k
    rw [recorded_replace]
    split
    · exact oneEach
    · exact h.oneEach k
  · have relinked : (m.relink id entries).Links _ :=
      (h.unlinked id List.filter_sublist).linkAll id (entries.filter (!(m.recorded id).contains ·))
    refine (relinked.of_axes (m.replace id entries) rfl).congr fun k x => ?_
    rw [recorded_replace]
    by_cases same : k = id
    · -- Of the group itself, what was recorded and is not any more has been unlinked.
      subst same
      simp only [if_pos, List.mem_filter, Bool.not_eq_true', List.contains_eq_mem,
        decide_eq_false_iff_not, true_and]
      tauto
    · simp [same]

theorem Consistent.remove (h : m.Consistent) (id : GroupId) : (m.remove id).Consistent := by
  constructor
  · intro k
    rw [recorded_remove]
    split
    · exact .nil
    · exact h.oneEach k
  · refine (h.unlinked id (.refl _)).congr fun k x => ?_
    rw [recorded_remove]
    by_cases same : k = id
    · simp [same]
    · simp [same]

theorem Consistent.add (h : m.Consistent) (g : Group) : (m.add g).Consistent :=
  h.replace g.id (g.facetEntries_oneEach m.registry)

theorem Consistent.withProperty_oneEach (h : m.Consistent) (g : Group) (p : Property) :
    OneEach (m.withProperty g p) := by
  have others : OneEach ((m.recorded g.id).filter (·.1 != .property p)) :=
    (h.oneEach g.id).sublist (List.filter_sublist.map _)
  rw [OneEach, withProperty, List.map_append]
  cases p.valueOf? g with
  | none =>
      rw [Option.map_none, Option.toList_none, List.map_nil, List.append_nil]
      exact others
  | some v =>
      refine List.nodup_append'.mpr ⟨others, List.nodup_singleton _, ?_⟩
      intro axis hother hp
      obtain ⟨e, he, rfl⟩ := List.mem_map.mp hother
      simpa [List.mem_singleton.mp hp] using (List.mem_filter.mp he).2

/-! ## Commands -/

theorem Consistent.perform (h : m.Consistent) (c : FacetCommand) : (m.perform c).Consistent := by
  cases c with
  | add g => exact h.add g
  | remove id => exact h.remove id
  | updateProperty g p =>
      simp only [FacetModel.perform, updateProperty]
      split
      · exact h.replace g.id (h.withProperty_oneEach g p)
      · exact h
  | refresh g =>
      simp only [FacetModel.perform, refresh]
      split
      · exact h.add g
      · exact h
  | clear => exact empty_consistent m.registry

/-- Whatever a model was told, its records and its buckets fit together. -/
theorem Consistent.after (h : m.Consistent) (commands : List FacetCommand) :
    (m.after commands).Consistent := by
  induction commands generalizing m with
  | nil => exact h
  | cons c rest ih => exact ih (h.perform c)

/-! ## Recording several groups -/

theorem addAll_registry (m : FacetModel) (gs : List Group) :
    (gs.foldl add m).registry = m.registry := by
  induction gs generalizing m with
  | nil => rfl
  | cons g rest ih => exact (ih (m.add g)).trans (m.replace_registry g.id _)

theorem Consistent.addAll (h : m.Consistent) (gs : List Group) :
    (gs.foldl FacetModel.add m).Consistent := by
  induction gs generalizing m with
  | nil => exact h
  | cons g rest ih => exact ih (h.add g)

theorem find?_addAll_of_not_mem (m : FacetModel) {gs : List Group} {k : GroupId}
    (unnamed : k ∉ gs.map Group.id) : (gs.foldl add m).indexed.find? k = m.indexed.find? k := by
  induction gs generalizing m with
  | nil => rfl
  | cons g rest ih =>
      rw [List.map_cons, List.mem_cons, not_or] at unnamed
      rw [List.foldl_cons, ih (m.add g) unnamed.2, find?_add, if_neg unnamed.1]

/-- Groups with names of their own are recorded as they are. -/
theorem find?_addAll_of_mem (m : FacetModel) {gs : List Group} (distinct : (gs.map Group.id).Nodup)
    {g : Group} (hg : g ∈ gs) :
    (gs.foldl add m).indexed.find? g.id = some (g.facetEntries m.registry) := by
  induction gs generalizing m with
  | nil => cases hg
  | cons h rest ih =>
      have ⟨fresh, distinct'⟩ := List.nodup_cons.mp distinct
      rw [List.foldl_cons]
      rcases List.mem_cons.mp hg with rfl | hg
      · rw [find?_addAll_of_not_mem _ fresh, find?_add, if_pos rfl]
      · rw [ih (m.add h) distinct' hg, add, replace_registry]

/-! ## What choosers show -/

/-- The groups listed under a value are those that have recorded it, in whatever case. -/
theorem Consistent.mem_groupsFor?_iff (h : m.Consistent) {axis : Axis} {value : FacetValue}
    {id : GroupId} :
    (∃ groups, m.groupsFor? axis value = some groups ∧ id ∈ groups.toList) ↔
      ∃ v, (axis, v) ∈ m.recorded id ∧ v.folded = value.folded := by
  constructor
  · rintro ⟨groups, hgroups, hid⟩
    obtain ⟨b, hb, rfl⟩ := Option.map_eq_some_iff.mp hgroups
    exact ((h.links.holds axis value.folded b hb).members id).mp hid
  · intro carries
    obtain ⟨b, hb⟩ := h.links.found id axis value.folded carries
    exact ⟨b.groups, congrArg (Option.map _) hb,
      ((h.links.holds axis value.folded b hb).members id).mpr carries⟩

/-- A value that is listed with a count is the spelling of a group, and the count is that of the
groups listed under it. -/
theorem Consistent.mem_values (h : m.Consistent) {axis : Axis} {value : FacetValue} {n : Nat}
    (listed : (value, n) ∈ m.values axis) :
    (∃ id, (axis, value) ∈ m.recorded id) ∧
      ∃ groups, m.groupsFor? axis value = some groups ∧ groups.size = n := by
  obtain ⟨b, hb, heq⟩ := List.mem_map.mp listed
  obtain ⟨folded, found⟩ := (m.buckets axis).mem_values_iff.mp hb
  obtain ⟨rfl, rfl⟩ := Prod.mk.inj heq
  have holds := h.links.holds axis folded b found
  refine ⟨⟨b.labelledBy, holds.labelled⟩, b.groups, ?_, rfl⟩
  rw [groupsFor?, bucket?, holds.folds, found, Option.map_some]

end FacetModel

end PeerSearch
