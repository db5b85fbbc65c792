import PeerSearch.Proofs.GroupIndex.Names
import PeerSearch.Proofs.Table.Apart

/-!
# PeerSearch.Proofs.Table.Clearing -- a table without groups is a cleared one

Everything that a table holds is held for one of its groups: a hash key leads to a group, a bucket
lists groups, a result is in a group, a group stands in a row or is hidden, and choosers know of
groups only. So once no group is left nothing is left, however the groups have gone, and the table
is the one that clearing leaves.
-/

namespace PeerSearch

/-! ## An index without groups -/

namespace GroupIndex

variable {ix : GroupIndex} {roster : List (GroupId × Member)}

/-- Of an index without groups only the numbers to hand out next are left, and whether it groups. -/
theorem Filed.eq_clear (h : ix.Filed roster) (empty : ix.groups = []) : ix = ix.clear := by
  have nobody (id : GroupId) : ix.group? id = none := by
    rw [group?, empty]
    rfl
  have byHash : ix.byHash = ∅ := by
    refine SortedMap.ext_find? fun key => ?_
    cases found : ix.byHash.find? key with
    | none => rfl
    | some id =>
        obtain ⟨g, live, -⟩ := h.group_of_key found
        cases (nobody id).symm.trans live
  have bySize : ix.bySize = .empty := by
    refine SizeIndex.ext_bucket h.files.nonempty (fun _ hb => by cases hb) fun size => ?_
    refine List.eq_nil_iff_forall_not_mem.mpr fun e he => ?_
    obtain ⟨g, hg, -⟩ := h.mem_bucket_iff.mp he
    rw [empty] at hg
    cases hg
  have membership : ix.membership = ∅ := by
    refine SortedMap.ext_find? fun r => ?_
    cases found : ix.membership.find? r with
    | none => rfl
    | some id =>
        obtain ⟨g, live, -⟩ := (h.coherent.membership r id).mp found
        cases (nobody id).symm.trans live
  exact GroupIndex.ext empty byHash bySize membership rfl rfl rfl

/-- Removing a group hands out no number, and so clearing afterwards is clearing. -/
theorem clear_removeGroup (ix : GroupIndex) (id : GroupId) :
    (ix.removeGroup id).1.clear = ix.clear := by
  obtain ⟨nextGroup, nextResult⟩ := (removeGroup_effect ix id).counters
  exact GroupIndex.ext rfl rfl rfl rfl (grouping_removeGroup ix id) nextGroup nextResult

end GroupIndex

/-! ## Facets of no group -/

/-- When nothing is recorded of any group, no axis has a value. -/
theorem FacetModel.Consistent.eq_clear {m : FacetModel} (h : m.Consistent)
    (unrecorded : m.indexed = ∅) : m = m.clear := by
  refine h.ext (empty_consistent m.registry) rfl unrecorded fun axis folded => ?_
  suffices none : m.bucketUnder? axis folded = none by
    rw [none]
    rfl
  cases hb : m.bucketUnder? axis folded with
  | none => rfl
  | some b =>
      have label := (h.links.holds axis folded b hb).labelled
      rw [recorded, unrecorded] at label
      cases label

namespace Table

variable {t : Table} {registry : Registry}

/-! ## A table without groups -/

/-- Nothing is held for any group. -/
structure Blank (t : Table) : Prop where
  groups : t.index.groups = []
  byHash : t.index.byHash = ∅
  bySize : t.index.bySize.buckets = ∅
  membership : t.index.membership = ∅
  rows : t.rows = []
  hidden : t.hidden = []
  selection : t.selection = ∅
  axes : t.facets.axes = ∅
  indexed : t.facets.indexed = ∅
  filteredSources : t.filteredSources = 0
  hiddenSources : t.hiddenSources = 0

theorem clear_blank (t : Table) : t.clear.table.Blank :=
  ⟨rfl, rfl, rfl, rfl, rfl, rfl, rfl, rfl, rfl, rfl, rfl⟩

theorem Sound.eq_clear (h : t.Sound registry) (empty : t.index.groups = []) :
    t = t.clear.table := by
  obtain ⟨roster, filed⟩ := h.filed
  have index : t.index = t.index.clear := filed.eq_clear empty
  have nobody (id : GroupId) : t.index.group? id = none := by
    rw [index]
    rfl
  -- The rows and the hidden groups are the groups.
  have placed : t.rows ++ t.hidden = [] := by
    have perm := h.placed
    rw [GroupIndex.ids, empty] at perm
    exact perm.eq_nil
  obtain ⟨rows, hidden⟩ := List.append_eq_nil_iff.mp placed
  have selection : t.selection = ∅ := by
    refine SortedSet.eq_of_mem_iff fun id => iff_of_false (fun selected => ?_) List.not_mem_nil
    have row := h.visible id (isSelected_iff.mpr selected)
    rw [rows] at row
    cases row
  have indexed : t.facets.indexed = ∅ :=
    SortedMap.ext_find? fun id => h.facets_unrecorded (nobody id)
  refine Table.ext index rows hidden ?_ ?_ rfl rfl rfl rfl rfl selection
    (h.consistent.eq_clear indexed) rfl
  · rw [h.filteredSum, rows]
    rfl
  · rw [h.hiddenSum, hidden]
    rfl

/-! ## Removing all groups -/

/-- Clearing after a group has been removed is clearing. -/
theorem Sound.clear_removeGroup (h : t.Sound registry) (id : GroupId) :
    (t.removeGroup id).change.table.clear.table = t.clear.table := by
  obtain ⟨index, rejected⟩ := removeGroup_leaves h.toPlaced id
  have settings := (removeGroup_local h.toPlaced id).settings
  have classed := (h.perform (.removeGroup id)).classed.trans h.classed.symm
  refine Table.ext ?_ rfl rfl rfl rfl settings.filter settings.junkPolicy settings.junk
    settings.sort settings.realTimeSort rfl (congrArg FacetModel.empty classed) rejected
  show (t.removeGroup id).change.table.index.clear = t.index.clear
  rw [index, GroupIndex.clear_removeGroup]

theorem Sound.after_removeGroups (h : t.Sound registry) {order : List GroupId}
    (all : ∀ id ∈ t.index.ids, id ∈ order) :
    t.after (order.map .removeGroup) = t.clear.table := by
  induction order generalizing t with
  | nil =>
      have ids : t.index.ids = [] :=
        List.eq_nil_iff_forall_not_mem.mpr fun id hid => List.not_mem_nil (all id hid)
      exact h.eq_clear (List.map_eq_nil_iff.mp ids)
  | cons id rest ih =>
      have left : ∀ k ∈ (t.removeGroup id).change.table.index.ids, k ∈ rest := by
        intro k hk
        rw [removeGroup_index h.toPlaced, GroupIndex.ids_removeGroup, List.mem_filter] at hk
        exact (List.mem_cons.mp (all k hk.1)).resolve_left (bne_iff_ne.mp hk.2)
      rw [← h.clear_removeGroup id]
      exact ih (h.perform (.removeGroup id)) left

/-- In every state, removing the groups, in any order, leaves the table that clearing leaves, where
nothing is held for any group. The numbers to hand out next, what was refused and the settings are
those from before. -/
theorem removing_groups_clears (options : Options) (registry : Registry)
    (commands : List TableCommand) :
    let t := (new options registry).after commands
    ∀ order : List GroupId, order.Perm t.index.ids →
      let emptied := t.after (order.map .removeGroup)
      emptied = t.clear.table ∧ emptied.Blank ∧
        emptied.index.nextGroup = t.index.nextGroup ∧
        emptied.index.nextResult = t.index.nextResult ∧
        emptied.index.grouping = t.index.grouping ∧
        emptied.rejected = t.rejected ∧ t.SameSettings emptied ∧
        emptied.facets.registry = registry := by
  intro t order perm emptied
  have h : t.Sound registry := after_sound options registry commands
  have same : emptied = t.clear.table := h.after_removeGroups fun id hid => perm.mem_iff.mpr hid
  refine ⟨same, ?_⟩
  rw [same]
  exact ⟨t.clear_blank, rfl, rfl, rfl, rfl, ⟨rfl, rfl, rfl, rfl, rfl⟩, h.classed⟩

/-- Two groups were started under one hash while grouping was off; a third one has been called junk
and taken back in, and its canonical member has left. -/
theorem removing_groups_clears_of_three :
    let hash : ContentHash := ⟨List.replicate 32 'A', rfl⟩
    let t := (new {} .empty).after
      [.setGrouping false, .add { fileName := "a.mp3", size := 1, hash := some hash },
        .add { fileName := "b.mp3", size := 1, hash := some hash }, .setGrouping true,
        .add { fileName := "c.mp3", size := 2 }, .add { fileName := "c.mp3", size := 2 },
        .markJunk ⟨2⟩ true, .removeResult ⟨2⟩, .markJunk ⟨2⟩ false, .select ⟨1⟩]
    let emptied := t.after ([⟨1⟩, ⟨2⟩, ⟨0⟩].map .removeGroup)
    t.rows = [⟨0⟩, ⟨1⟩, ⟨2⟩] ∧ t.totalSources = 3 ∧ emptied = t.clear.table ∧ emptied.Blank ∧
      emptied.index.nextGroup = 3 ∧ emptied.index.nextResult = 4 := by
  intro hash t emptied
  have listed : t.index.ids = [⟨0⟩, ⟨1⟩, ⟨2⟩] := by decide +kernel
  have perm : [⟨1⟩, ⟨2⟩, ⟨0⟩].Perm t.index.ids := by
    rw [listed]
    decide
  obtain ⟨same, blank, -⟩ := removing_groups_clears {} .empty _ _ perm
  exact ⟨by decide +kernel, by decide +kernel, same, blank, by decide +kernel, by decide +kernel⟩

end Table

end PeerSearch
