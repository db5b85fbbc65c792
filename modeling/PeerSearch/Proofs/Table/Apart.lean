import PeerSearch.Proofs.Facet.Apart
import PeerSearch.Proofs.GroupIndex.Apart
import PeerSearch.Proofs.Table.Sound

/-!
# PeerSearch.Proofs.Table.Apart -- a group is taken out result by result or at once

While results of a group are taken out, the group may get another canonical member and be found
under another hash, move, come and go between the rows and the hidden groups, and change what
choosers say of it. Whatever happens to it, the table stays the same apart from the group. Once the
group is gone that settles the table: it is the one that removing the whole group leaves.
-/

namespace PeerSearch

attribute [ext] Table

/-- The result that a command takes out, for a command that does so. -/
def TableCommand.removed? : TableCommand → Option ResultId
  | .removeResult id => some id
  | _ => none

namespace Table

variable {t t' : Table} {registry : Registry}

/-! ## One group left out -/

/-- What a table holds of all groups but one, and its settings but for the filter. -/
@[ext]
structure Apart where
  index : GroupIndex.Apart
  rows : List GroupId
  hidden : List GroupId
  selection : SortedSet GroupId
  facets : FacetModel.Apart
  junkPolicy : JunkPolicy
  junk : JunkFilter
  sort : Option SortOrder
  realTimeSort : Bool
  rejected : List Rejected

def apartFrom (t : Table) (id : GroupId) : Apart where
  index := t.index.apartFrom id
  rows := t.rows.filter (· != id)
  hidden := t.hidden.filter (· != id)
  selection := t.selection.erase id
  facets := t.facets.apartFrom id
  junkPolicy := t.junkPolicy
  junk := t.junk
  sort := t.sort
  realTimeSort := t.realTimeSort
  rejected := t.rejected

/-! ### Where the group stands -/

/-- The places of the other groups are the same in both tables, and so is what is selected of
them. -/
structure SameView (t t' : Table) (id : GroupId) : Prop where
  rows : t'.rows.filter (· != id) = t.rows.filter (· != id)
  hidden : t'.hidden.filter (· != id) = t.hidden.filter (· != id)
  selection : t'.selection.erase id = t.selection.erase id

theorem erase_erase (selection : SortedSet GroupId) (id : GroupId) :
    (selection.erase id).erase id = selection.erase id := by
  refine SortedMap.erase_of_unused ?_
  rw [SortedMap.find?_erase, if_pos rfl]

theorem filter_erase_self (ids : List GroupId) (id : GroupId) :
    (ids.erase id).filter (· != id) = ids.filter (· != id) := by
  rw [← List.erase_filter, List.erase_of_not_mem]
  intro own
  simpa using (List.mem_filter.mp own).2

theorem filter_concat_self (ids : List GroupId) (id : GroupId) :
    (ids ++ [id]).filter (· != id) = ids.filter (· != id) := by
  rw [List.filter_append, List.filter_singleton, bne_self_eq_false]
  exact List.append_nil _

/-- Deciding anew over a group moves that group only. -/
theorem settle_view (t : Table) (g : Group) : t.SameView (t.settle g).table g.id := by
  have skipped : (g.id != g.id) = false := bne_self_eq_false g.id
  have hs := t.settled g
  generalize t.settle g = change at hs ⊢
  cases hs with
  | relocated row facets atRow =>
      rw [relocate_table (t := { t with facets }) atRow]
      refine ⟨?_, rfl, rfl⟩
      exact (filter_insertIdx (p := (· != g.id)) skipped _).trans (filter_eraseIdx atRow skipped)
  | updated row facets => exact ⟨rfl, rfl, rfl⟩
  | hid row facets atRow =>
      exact ⟨filter_eraseIdx atRow skipped, filter_concat_self t.hidden g.id,
        erase_erase t.selection g.id⟩
  | unhid facets =>
      exact ⟨filter_insertIdx (p := (· != g.id)) skipped _, filter_erase_self t.hidden g.id, rfl⟩
  | staysHidden facets => exact ⟨rfl, rfl, rfl⟩

theorem dropFromView_view (t : Table) (id : GroupId) (count : Nat) :
    t.SameView (t.dropFromView id (t.slot? id) count).table id := by
  have skipped : (id != id) = false := bne_self_eq_false id
  have erased := erase_erase t.selection id
  rcases t.slot?_cases id with ⟨row, hslot, atRow⟩ | ⟨hslot, -, -⟩ | ⟨hslot, -, -⟩
  · rw [hslot]
    exact ⟨filter_eraseIdx atRow skipped, rfl, erased⟩
  · rw [hslot]
    exact ⟨rfl, filter_erase_self t.hidden id, erased⟩
  · rw [hslot]
    exact ⟨rfl, rfl, erased⟩

/-! ### Operations on the group -/

/-- A table with the same index and settings is the same apart from a group if the view is, and what
choosers are told. -/
theorem SameView.apartFrom {id : GroupId} (view : t.SameView t' id) (settings : t.SameSettings t')
    (index : t'.index = t.index) (facets : t'.facets.apartFrom id = t.facets.apartFrom id)
    (rejected : t'.rejected = t.rejected) : t'.apartFrom id = t.apartFrom id :=
  Apart.ext (congrArg (·.apartFrom id) index) view.rows view.hidden view.selection facets
    settings.junkPolicy settings.junk settings.sort settings.realTimeSort rejected

theorem apartFrom_settle (consistent : t.facets.Consistent) (g : Group) :
    (t.settle g).table.apartFrom g.id = t.apartFrom g.id := by
  obtain ⟨index, facets, rejected⟩ := t.settle_keeps g
  have refreshed : (t.refreshFacets g).apartFrom g.id = t.facets.apartFrom g.id := by
    unfold refreshFacets
    split
    · exact consistent.apartFrom_remove g.id
    · exact consistent.apartFrom_add g
  exact (t.settle_view g).apartFrom (t.settle_settings g) index
    ((congrArg (·.apartFrom g.id) facets).trans refreshed) rejected

theorem apartFrom_dropFromView (consistent : t.facets.Consistent) (id : GroupId) (count : Nat) :
    (t.dropFromView id (t.slot? id) count).table.apartFrom id = t.apartFrom id := by
  obtain ⟨index, facets, rejected⟩ := t.dropFromView_keeps id (t.slot? id) count
  exact (t.dropFromView_view id count).apartFrom (t.dropFromView_settings id (t.slot? id) count)
    index ((congrArg (·.apartFrom id) facets).trans (consistent.apartFrom_remove id)) rejected

/-- Over an index that is the same apart from the group, however the sources are counted. -/
theorem apartFrom_over {ix : GroupIndex} {id : GroupId}
    (same : ix.apartFrom id = t.index.apartFrom id) (filteredSources hiddenSources : Nat) :
    { t with index := ix, filteredSources, hiddenSources }.apartFrom id = t.apartFrom id :=
  Apart.ext same rfl rfl rfl rfl rfl rfl rfl rfl rfl

theorem Sound.apartFrom_removeResult (h : t.Sound registry) {r : ResultId} {id : GroupId}
    (hr : t.index.groupOf? r = some id) :
    (t.removeResult r).change.table.apartFrom id = t.apartFrom id := by
  have index := h.coherent.apartFrom_remove hr
  obtain ⟨g, result, rfl, hg, member, hresult⟩ := h.coherent.known_result hr
  cases hd : g.detach? r with
  | none =>
      rw [removeResult_of_last hr hg hresult hd (Group.sourceCount_of_last member hd)]
      have dropped := apartFrom_dropFromView (t := { t with index := (t.index.remove r).1 })
        h.consistent g.id g.sourceCount
      exact dropped.trans (apartFrom_over index _ _)
  | some g' =>
      have name : g'.id = g.id := (Group.detach?_spec hd).1
      have one := Group.sourceCount_of_detach member hd
      have settled := apartFrom_settle (t := t.recounted (t.index.remove r).1 g g')
        h.consistent g'
      rw [removeResult_of_shared h.toPlaced hr hg hresult hd one]
      rw [name] at settled
      exact settled.trans (apartFrom_over index _ _)

theorem Sound.apartFrom_removeGroup (h : t.Sound registry) (id : GroupId) :
    (t.removeGroup id).change.table.apartFrom id = t.apartFrom id := by
  have index := h.coherent.apartFrom_removeGroup id
  cases hg : t.index.group? id with
  | none =>
      rw [removeGroup_of_unknown h.toPlaced hg]
      rfl
  | some g =>
      rw [removeGroup_of_known h.toPlaced hg]
      have dropped := apartFrom_dropFromView (t := { t with index := (t.index.removeGroup id).1 })
        h.consistent id g.sourceCount
      exact dropped.trans (apartFrom_over index _ _)

/-! ## The table without the group -/

theorem Sound.facets_unrecorded (h : t.Sound registry) {id : GroupId}
    (gone : t.index.group? id = none) : t.facets.indexed.find? id = none := by
  have unknown : t.group? id = none := gone
  rw [h.current, unknown, Option.bind_none]

/-- What stands nowhere is not missed. -/
theorem Sound.apartFrom_view (h : t.Sound registry) {id : GroupId}
    (gone : t.index.group? id = none) :
    (t.apartFrom id).rows = t.rows ∧ (t.apartFrom id).hidden = t.hidden ∧
      (t.apartFrom id).selection = t.selection := by
  have nowhere := h.nowhere gone
  have others {ids : List GroupId} (absent : id ∉ ids) : ids.filter (· != id) = ids := by
    refine List.filter_eq_self.mpr fun k hk => bne_iff_ne.mpr ?_
    rintro rfl
    exact absent hk
  refine ⟨others nowhere.1, others nowhere.2, SortedMap.erase_of_unused ?_⟩
  cases selected : t.selection.find? id with
  | none => rfl
  | some _ =>
      have row := h.visible id (isSelected_iff.mpr ((SortedSet.mem_toList_iff _).mpr selected))
      exact absurd row nowhere.1

/-- Tables from which the group is gone are the same if they are so apart from it. -/
theorem Sound.eq_of_apartFrom (h : t.Sound registry) (h' : t'.Sound registry) {id : GroupId}
    (gone : t.index.group? id = none) (gone' : t'.index.group? id = none)
    (same : t.apartFrom id = t'.apartFrom id) (filter : t.filter = t'.filter) : t = t' := by
  obtain ⟨roster, filed⟩ := h.filed
  obtain ⟨roster', filed'⟩ := h'.filed
  have index : t.index = t'.index :=
    filed.eq_of_apartFrom filed' gone gone' (congrArg Apart.index same)
  obtain ⟨rows, hidden, selection⟩ := h.apartFrom_view gone
  obtain ⟨rows', hidden', selection'⟩ := h'.apartFrom_view gone'
  rw [same] at rows hidden selection
  have rows := rows.symm.trans rows'
  have hidden := hidden.symm.trans hidden'
  have facets : t.facets = t'.facets :=
    h.consistent.eq_of_apartFrom h'.consistent (h.facets_unrecorded gone)
      (h'.facets_unrecorded gone') (congrArg Apart.facets same)
  -- The counts are sums over the groups in their places.
  have filteredSources : t.filteredSources = t'.filteredSources := by
    rw [h.filteredSum, h'.filteredSum, index, rows]
  have hiddenSources : t.hiddenSources = t'.hiddenSources := by
    rw [h.hiddenSum, h'.hiddenSum, index, hidden]
  exact Table.ext index rows hidden filteredSources hiddenSources filter
    (congrArg Apart.junkPolicy same) (congrArg Apart.junk same) (congrArg Apart.sort same)
    (congrArg Apart.realTimeSort same) (selection.symm.trans selection') facets
    (congrArg Apart.rejected same)

/-! ## Taking out all results -/

/-- A run that takes out the results of a group, each once, leaves the table as it was apart from
the group, which is gone. The filter may drift on the way. -/
theorem Sound.after_removals {id : GroupId} {removals : List TableCommand}
    (h : t.Sound registry)
    (kinds : ∀ c ∈ removals, c.removed?.isSome = true ∨ ∃ filter, c = .driftFilter filter)
    (all : (removals.filterMap TableCommand.removed?).Perm (t.index.membersOf id)) :
    (t.after removals).Sound registry ∧ (t.after removals).apartFrom id = t.apartFrom id ∧
      (t.after removals).index.group? id = none := by
  induction removals generalizing t with
  | nil => exact ⟨h, rfl, GroupIndex.membersOf_eq_nil_iff.mp all.nil_eq.symm⟩
  | cons c rest ih =>
      have ⟨kind, later⟩ := List.forall_mem_cons.mp kinds
      have sound := h.perform c
      rcases kind with takes | ⟨filter, rfl⟩
      · obtain ⟨r, hr⟩ := Option.isSome_iff_exists.mp takes
        obtain rfl : c = .removeResult r := by
          cases c with
          | removeResult k => rw [Option.some.inj hr]
          | _ => cases hr
        rw [List.filterMap_cons_some hr, List.cons_perm_iff_perm_erase] at all
        have member := h.coherent.mem_membersOf_iff.mp all.1
        have left : (t.perform (.removeResult r)).table.index.membersOf id =
            (t.index.membersOf id).erase r := by
          rw [← h.coherent.membersOf_remove member]
          exact congrArg (·.membersOf id) (removeResult_index h.toPlaced r)
        obtain ⟨sound', same, gone⟩ := ih sound later (left ▸ all.2)
        exact ⟨sound', same.trans (h.apartFrom_removeResult member), gone⟩
      · exact ih sound later all

theorem Sound.removeGroup_spec (h : t.Sound registry) {g : Group}
    (live : t.index.group? g.id = some g) :
    (t.removeGroup g.id).change.table.Sound registry ∧
      (t.removeGroup g.id).change.table.index.group? g.id = none ∧
      (t.removeGroup g.id).change.table.filter = t.filter := by
  have groups : (t.removeGroup g.id).change.table.index.groups =
      (t.index.dropGroup g.id).groups := by
    rw [removeGroup_index h.toPlaced, GroupIndex.removeGroup_of_live live]
  exact ⟨h.perform (.removeGroup g.id), (GroupIndex.group?_of_drop groups g.id).trans (if_pos rfl),
    (removeGroup_local h.toPlaced g.id).settings.filter⟩

/-- After a run that takes out the results of a group, each once, the table is the one without the
group, but for what the filter has become. -/
theorem Sound.after_removals_eq (h : t.Sound registry) {g : Group}
    (live : t.index.group? g.id = some g) {removals : List TableCommand}
    (kinds : ∀ c ∈ removals, c.removed?.isSome = true ∨ ∃ filter, c = .driftFilter filter)
    (all : (removals.filterMap TableCommand.removed?).Perm g.memberIds) :
    { t.after removals with filter := t.filter } = (t.removeGroup g.id).change.table := by
  have members : t.index.membersOf g.id = g.memberIds := by
    rw [GroupIndex.membersOf, live, Option.elim_some]
  obtain ⟨sound, same, gone⟩ := h.after_removals kinds (members ▸ all)
  obtain ⟨sound', gone', filter⟩ := h.removeGroup_spec live
  have restored : { t.after removals with filter := t.filter }.Sound registry :=
    sound.perform (.driftFilter t.filter)
  exact restored.eq_of_apartFrom sound' gone gone'
    (same.trans (h.apartFrom_removeGroup g.id).symm) filter.symm

theorem Sound.after_removeResults_filter (h : t.Sound registry) (order : List ResultId) :
    (t.after (order.map .removeResult)).filter = t.filter := by
  refine (after_keeps (P := fun u => u.Sound registry ∧ u.filter = t.filter) ⟨h, rfl⟩ ?_).2
  rintro u ⟨sound, same⟩ c hc
  obtain ⟨r, -, rfl⟩ := List.mem_map.mp hc
  refine ⟨sound.perform (.removeResult r), ?_⟩
  exact (removeResult_local sound.toPlaced r).settings.filter.trans same

/-- In every state, taking the results of a group out one by one, in any order, leaves the table
that removing the group at once leaves, and the group is gone from it. Even if the filter answers
anew about each of them, the two tables differ in what the filter has become at most. -/
theorem removing_results_removes_group (options : Options) (registry : Registry)
    (commands : List TableCommand) :
    let t := (new options registry).after commands
    ∀ g ∈ t.index.groups, ∀ order : List ResultId, order.Perm g.memberIds →
      t.after (order.map .removeResult) = (t.removeGroup g.id).change.table ∧
        (t.removeGroup g.id).change.table.group? g.id = none ∧
        ∀ filters : ResultId → Group → Bool,
          { t.after (order.flatMap fun r => [.driftFilter (filters r), .removeResult r]) with
            filter := t.filter } = (t.removeGroup g.id).change.table := by
  intro t g hg order perm
  have h : t.Sound registry := after_sound options registry commands
  have live := h.coherent.group?_of_mem hg
  refine ⟨?_, (h.removeGroup_spec live).2.1, fun filters => ?_⟩
  · have removed : (order.map TableCommand.removeResult).filterMap TableCommand.removed? =
        order := by
      rw [List.filterMap_map]
      exact List.filterMap_some
    rw [← h.after_removals_eq live ?_ (removed.symm ▸ perm), ← h.after_removeResults_filter order]
    intro c hc
    obtain ⟨r, -, rfl⟩ := List.mem_map.mp hc
    exact .inl rfl
  · have removed : (order.flatMap fun r =>
        [TableCommand.driftFilter (filters r), .removeResult r]).filterMap
          TableCommand.removed? = order := by
      rw [List.filterMap_flatMap]
      exact List.flatMap_singleton' order
    refine h.after_removals_eq live ?_ (by rw [removed]; exact perm)
    intro c hc
    obtain ⟨r, -, hr⟩ := List.mem_flatMap.mp hc
    rcases List.mem_pair.mp hr with rfl | rfl
    · exact .inr ⟨_, rfl⟩
    · exact .inl rfl

/-- Of three results that make up one group, the one that it is named after leaves second. -/
theorem removing_results_removes_group_of_three :
    let t := (new {} .empty).after
      [.add { fileName := "a", size := 1 }, .add { fileName := "b", size := 2 },
        .add { fileName := "a", size := 1 }, .add { fileName := "a", size := 1 }]
    (t.index.groups.map fun g => (g.id, g.memberIds)) =
        [(⟨0⟩, [⟨0⟩, ⟨2⟩, ⟨3⟩]), (⟨1⟩, [⟨1⟩])] ∧
      t.after ([⟨2⟩, ⟨0⟩, ⟨3⟩].map .removeResult) = (t.removeGroup ⟨0⟩).change.table ∧
      (t.removeGroup ⟨0⟩).change.table.rows = [⟨1⟩] := by
  intro t
  have listed : (t.index.groups.map fun g => (g.id, g.memberIds)) =
      [(⟨0⟩, [⟨0⟩, ⟨2⟩, ⟨3⟩]), (⟨1⟩, [⟨1⟩])] := by decide +kernel
  obtain ⟨g, hg, heq⟩ : ∃ g ∈ t.index.groups, (g.id, g.memberIds) = (⟨0⟩, [⟨0⟩, ⟨2⟩, ⟨3⟩]) := by
    refine List.mem_map.mp ?_
    rw [listed]
    exact List.mem_cons_self
  obtain ⟨name, members⟩ := Prod.mk.inj heq
  have perm : [⟨2⟩, ⟨0⟩, ⟨3⟩].Perm g.memberIds := by
    rw [members]
    decide
  have same := (removing_results_removes_group {} .empty _ g hg _ perm).1
  rw [name] at same
  exact ⟨listed, same, by decide +kernel⟩

end Table

end PeerSearch
