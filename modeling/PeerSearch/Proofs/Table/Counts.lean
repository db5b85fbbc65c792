import PeerSearch.Proofs.Table.Change

/-!
# PeerSearch.Proofs.Table.Counts -- every group stands once, and its sources count where it stands

A table counts the sources of its rows and of its hidden groups as it goes. `Balanced` says that
the counts are the sums that they stand for. Between two steps of one operation a group may stand
nowhere; `Awaits` says that only this group is missing, from the places and from the counts.
-/

namespace PeerSearch

/-! ## Sums over groups -/

namespace GroupIndex

/-- The sources of the group of that name, none if there is no such group. -/
def sourcesAt (ix : GroupIndex) (id : GroupId) : Nat :=
  (ix.group? id).elim 0 Group.sourceCount

/-- The sources of the groups of those names together. -/
def sourcesIn (ix : GroupIndex) (ids : List GroupId) : Nat :=
  (ids.map ix.sourcesAt).sum

theorem sourcesAt_of_group? {ix : GroupIndex} {id : GroupId} {g : Group}
    (h : ix.group? id = some g) : ix.sourcesAt id = g.sourceCount := by
  rw [sourcesAt, h, Option.elim_some]

theorem sourcesIn_perm (ix : GroupIndex) {ids ids' : List GroupId} (h : ids.Perm ids') :
    ix.sourcesIn ids = ix.sourcesIn ids' :=
  (h.map _).sum_eq

@[simp] theorem sourcesIn_cons (ix : GroupIndex) (id : GroupId) (ids : List GroupId) :
    ix.sourcesIn (id :: ids) = ix.sourcesAt id + ix.sourcesIn ids := by
  simp [sourcesIn]

@[simp] theorem sourcesIn_append (ix : GroupIndex) (ids ids' : List GroupId) :
    ix.sourcesIn (ids ++ ids') = ix.sourcesIn ids + ix.sourcesIn ids' := by
  simp [sourcesIn]

theorem sourcesIn_congr {ix ix' : GroupIndex} {ids : List GroupId}
    (h : ∀ id ∈ ids, ix'.group? id = ix.group? id) : ix'.sourcesIn ids = ix.sourcesIn ids := by
  unfold sourcesIn
  congr 1
  refine List.map_congr_left fun id hid => ?_
  rw [sourcesAt, h id hid, sourcesAt]

theorem sourcesIn_ids {ix : GroupIndex} (h : ix.Coherent) :
    ix.sourcesIn ix.ids = (ix.groups.map Group.sourceCount).sum := by
  unfold sourcesIn ids
  rw [List.map_map]
  congr 1
  exact List.map_congr_left fun g hg => sourcesAt_of_group? (h.group?_of_mem hg)

/-- Names count what the groups found under them have. -/
theorem sourcesIn_eq (ix : GroupIndex) (ids : List GroupId) :
    ix.sourcesIn ids = Table.sourcesOf (ids.filterMap ix.group?) := by
  unfold Table.sourcesOf
  rw [← List.sum_eq_foldr]
  induction ids with
  | nil => rfl
  | cons id rest ih =>
      rw [sourcesIn_cons, ih]
      cases hg : ix.group? id with
      | none => simp [sourcesAt, hg]
      | some g => simp [sourcesAt, hg]

/-- Groups that are found under their names have the sources that their names have. -/
theorem sourcesIn_names {ix : GroupIndex} {gs : List Group}
    (h : ∀ g ∈ gs, ix.group? g.id = some g) :
    ix.sourcesIn (gs.map Group.id) = Table.sourcesOf gs := by
  rw [Table.sourcesOf, ← List.sum_eq_foldr, sourcesIn, List.map_map]
  congr 1
  exact List.map_congr_left fun g hg => sourcesAt_of_group? (h g hg)

end GroupIndex

namespace Table

variable {t : Table}

/-! ## The invariant -/

/-- Every group stands once, and its sources count where it stands. -/
structure Balanced (t : Table) : Prop extends t.Placed where
  filteredSum : t.filteredSources = t.index.sourcesIn t.rows
  hiddenSum : t.hiddenSources = t.index.sourcesIn t.hidden

/-- Every accepted result is a source that counts, among the rows or among the hidden groups. -/
theorem Balanced.totalSources_eq (h : t.Balanced) : t.totalSources = t.index.resultCount :=
  calc t.totalSources
    _ = t.index.sourcesIn t.rows + t.index.sourcesIn t.hidden := by
        rw [totalSources, h.filteredSum, h.hiddenSum]
    _ = t.index.sourcesIn t.index.ids := by
        rw [← GroupIndex.sourcesIn_append, GroupIndex.sourcesIn_perm _ h.placed]
    _ = t.index.resultCount := by
        rw [GroupIndex.sourcesIn_ids h.coherent, h.coherent.resultCount_eq]

/-- The same of every group but `g`, which stands nowhere yet. -/
structure Awaits (t : Table) (g : Group) : Prop where
  coherent : t.index.Coherent
  live : t.index.group? g.id = some g
  placed : (g.id :: (t.rows ++ t.hidden)).Perm t.index.ids
  filteredSum : t.filteredSources = t.index.sourcesIn t.rows
  hiddenSum : t.hiddenSources = t.index.sourcesIn t.hidden

/-! ### Rows and hidden groups -/

theorem insertionRow_le (t : Table) (g : Group) : t.insertionRow g ≤ t.rows.length :=
  partitionPoint_le _ _

theorem mem_insertionRow {g : Group} (k : GroupId) :
    k ∈ (t.showGroup g).table.rows ↔ k = g.id ∨ k ∈ t.rows :=
  List.mem_insertIdx (t.insertionRow_le g)

theorem Awaits.showGroup {g : Group} (h : t.Awaits g) : (t.showGroup g).table.Balanced := by
  have perm : (t.rows.insertIdx (t.insertionRow g) g.id).Perm (g.id :: t.rows) :=
    List.perm_insertIdx _ _ (t.insertionRow_le g)
  refine ⟨⟨h.coherent, ?_⟩, ?_, h.hiddenSum⟩
  · exact (perm.append_right t.hidden).trans h.placed
  · have hat := GroupIndex.sourcesAt_of_group? h.live
    simp only [Table.showGroup]
    rw [GroupIndex.sourcesIn_perm _ perm, GroupIndex.sourcesIn_cons, hat, h.filteredSum]
    exact Nat.add_comm _ _

theorem Awaits.hide {g : Group} (h : t.Awaits g) (facets : FacetModel)
    (selection : SortedSet GroupId) :
    { t with
      hidden := t.hidden ++ [g.id]
      hiddenSources := t.hiddenSources + g.sourceCount
      facets
      selection }.Balanced := by
  refine ⟨⟨h.coherent, ?_⟩, h.filteredSum, ?_⟩
  · refine List.Perm.trans ?_ h.placed
    rw [← List.append_assoc]
    exact List.perm_append_singleton _ _
  · have hat := GroupIndex.sourcesAt_of_group? h.live
    have hone : t.index.sourcesIn [g.id] = g.sourceCount := by
      rw [GroupIndex.sourcesIn_cons, hat]
      rfl
    show t.hiddenSources + g.sourceCount = t.index.sourcesIn (t.hidden ++ [g.id])
    rw [GroupIndex.sourcesIn_append, hone, h.hiddenSum]

/-- Taking a row out leaves its group waiting; the sources that it counted are there to take. -/
theorem Balanced.takeRow (h : t.Balanced) {g : Group} (hg : t.index.group? g.id = some g)
    {row : Nat} (hrow : t.rows[row]? = some g.id) :
    g.sourceCount ≤ t.filteredSources ∧
      { t with
        rows := t.rows.eraseIdx row
        filteredSources := t.filteredSources - g.sourceCount }.Awaits g := by
  have perm := perm_cons_eraseIdx hrow
  have hsum : t.filteredSources = g.sourceCount + t.index.sourcesIn (t.rows.eraseIdx row) := by
    rw [h.filteredSum, ← GroupIndex.sourcesIn_perm _ perm, GroupIndex.sourcesIn_cons,
      GroupIndex.sourcesAt_of_group? hg]
  refine ⟨by omega, h.coherent, hg, (perm.append_right t.hidden).trans h.placed, ?_, h.hiddenSum⟩
  show t.filteredSources - g.sourceCount = t.index.sourcesIn (t.rows.eraseIdx row)
  omega

theorem Balanced.takeHidden (h : t.Balanced) {g : Group} (hg : t.index.group? g.id = some g)
    (hid : g.id ∈ t.hidden) :
    g.sourceCount ≤ t.hiddenSources ∧
      { t with
        hidden := t.hidden.erase g.id
        hiddenSources := t.hiddenSources - g.sourceCount }.Awaits g := by
  have perm := (List.perm_cons_erase hid).symm
  have hsum : t.hiddenSources = g.sourceCount + t.index.sourcesIn (t.hidden.erase g.id) := by
    rw [h.hiddenSum, ← GroupIndex.sourcesIn_perm _ perm, GroupIndex.sourcesIn_cons,
      GroupIndex.sourcesAt_of_group? hg]
  refine ⟨by omega, h.coherent, hg, ?_, h.filteredSum, ?_⟩
  · exact (List.perm_middle.symm.trans (perm.append_left t.rows)).trans h.placed
  · show t.hiddenSources - g.sourceCount = t.index.sourcesIn (t.hidden.erase g.id)
    omega

/-- The place that a row is moved to is one of the list without it. -/
theorem destination_le {g : Group} {start : Nat} (h : start < t.rows.length) :
    t.destination g start ≤ (t.rows.eraseIdx start).length := by
  have below := (List.takeWhile_sublist (t.comparesTo g .gt)
    (l := t.rows.drop (start + 1))).length_le
  rw [List.length_drop] at below
  rw [List.length_eraseIdx_of_lt h]
  unfold destination
  split <;> omega

/-- Relocating a row keeps all rows. -/
theorem relocate_perm {g : Group} {row : Nat} (hrow : t.rows[row]? = some g.id) :
    ((t.rows.eraseIdx row).insertIdx (t.destination g row) g.id).Perm t.rows := by
  obtain ⟨hlt, -⟩ := List.getElem?_eq_some_iff.mp hrow
  exact (List.perm_insertIdx _ _ (destination_le hlt)).trans (perm_cons_eraseIdx hrow)

theorem Balanced.relocate (h : t.Balanced) {g : Group} {row : Nat}
    (hrow : t.rows[row]? = some g.id) : (t.relocate g row).table.Balanced := by
  have perm := relocate_perm hrow
  rw [relocate_table hrow]
  refine ⟨⟨h.coherent, (perm.append_right t.hidden).trans h.placed⟩, ?_, h.hiddenSum⟩
  exact h.filteredSum.trans (GroupIndex.sourcesIn_perm _ perm).symm

theorem Balanced.settle (h : t.Balanced) {g : Group} (hg : t.index.group? g.id = some g) :
    (t.settle g).table.Balanced := by
  have withFacets (facets : FacetModel) : { t with facets }.Balanced :=
    ⟨⟨h.coherent, h.placed⟩, h.filteredSum, h.hiddenSum⟩
  have hs := t.settled g
  generalize t.settle g = change at hs ⊢
  -- A group that changes sides is taken off one count, awaits its place, and is added to the other.
  cases hs with
  | relocated row facets atRow => exact (withFacets facets).relocate atRow
  | updated row facets => exact withFacets facets
  | hid row facets atRow =>
      exact ((withFacets facets).takeRow hg atRow).2.hide facets (t.selection.erase g.id)
  | unhid facets noRow wasHidden => exact ((withFacets facets).takeHidden hg wasHidden).2.showGroup
  | staysHidden facets => exact withFacets facets

theorem Awaits.placeNew {g : Group} (h : t.Awaits g) : (t.placeNew g).table.Balanced := by
  rcases t.placeNew_cases g with ⟨-, facets, heq⟩ | ⟨-, facets, heq⟩
  · rw [heq]
    exact Awaits.showGroup ⟨h.coherent, h.live, h.placed, h.filteredSum, h.hiddenSum⟩
  · rw [heq]
    exact h.hide facets t.selection

/-! ### A changed index -/

/-- Counting a changed group where it stands balances the table over the changed index. -/
theorem Balanced.recounted (h : t.Balanced) {ix : GroupIndex} {before g : Group}
    (coherent : ix.Coherent) (live : t.index.group? g.id = some before)
    (groups : ix.groups = (t.index.putGroup g).groups) : (t.recounted ix before g).Balanced := by
  have found := GroupIndex.group?_of_put live groups
  -- The sum over a list changes by what the group changes if it is listed, and else not at all.
  have listed {ids : List GroupId} (hid : g.id ∈ ids) (hn : ids.Nodup) :
      t.index.sourcesIn ids + g.sourceCount - before.sourceCount = ix.sourcesIn ids := by
    have perm := List.perm_cons_erase hid
    have rest : ix.sourcesIn (ids.erase g.id) = t.index.sourcesIn (ids.erase g.id) := by
      refine GroupIndex.sourcesIn_congr fun id hmem => ?_
      rw [found, if_neg]
      rintro rfl
      exact hn.not_mem_erase hmem
    rw [GroupIndex.sourcesIn_perm _ perm, GroupIndex.sourcesIn_perm _ perm,
      GroupIndex.sourcesIn_cons, GroupIndex.sourcesIn_cons, rest,
      GroupIndex.sourcesAt_of_group? live,
      GroupIndex.sourcesAt_of_group? ((found g.id).trans (if_pos rfl))]
    omega
  have unlisted {ids : List GroupId} (hid : g.id ∉ ids) :
      t.index.sourcesIn ids = ix.sourcesIn ids := by
    refine (GroupIndex.sourcesIn_congr fun id hmem => ?_).symm
    rw [found, if_neg]
    rintro rfl
    exact hid hmem
  refine ⟨h.toPlaced.recounted coherent groups, ?_, ?_⟩
  · show (if g.id ∈ t.rows then t.filteredSources + g.sourceCount - before.sourceCount
        else t.filteredSources) = ix.sourcesIn t.rows
    rw [h.filteredSum]
    split
    · next hmem => exact listed hmem h.rows_nodup
    · next hmem => exact unlisted hmem
  · show (if g.id ∈ t.rows then t.hiddenSources
        else t.hiddenSources + g.sourceCount - before.sourceCount) = ix.sourcesIn t.hidden
    rw [h.hiddenSum]
    split
    · next hmem => exact unlisted fun hhid => h.disjoint hmem hhid
    · next hmem => exact listed (h.hidden_of_live live hmem) h.hidden_nodup

/-- A group that stands nowhere can be dropped from the index. -/
theorem Awaits.drop {g : Group} (h : t.Awaits g) {ix : GroupIndex} (coherent : ix.Coherent)
    (groups : ix.groups = (t.index.dropGroup g.id).groups) (facets : FacetModel)
    (selection : SortedSet GroupId) : { t with index := ix, facets, selection }.Balanced := by
  have hn : (g.id :: (t.rows ++ t.hidden)).Nodup := h.placed.nodup_iff.mpr h.coherent.ids_nodup
  have found {id : GroupId} (hid : id ∈ t.rows ++ t.hidden) :
      ix.group? id = t.index.group? id := by
    rw [GroupIndex.group?_of_drop groups, if_neg]
    rintro rfl
    exact (List.nodup_cons.mp hn).1 hid
  have ids_eq : ix.ids = t.index.ids.erase g.id := by
    rw [h.coherent.ids_nodup.erase_eq_filter, GroupIndex.ids, groups, GroupIndex.dropGroup,
      GroupIndex.ids, List.filter_map]
    rfl
  refine ⟨⟨coherent, ?_⟩, ?_, ?_⟩
  · show (t.rows ++ t.hidden).Perm ix.ids
    rw [ids_eq]
    have herased := h.placed.erase g.id
    rwa [List.erase_cons_head] at herased
  · refine h.filteredSum.trans (GroupIndex.sourcesIn_congr fun id hid => ?_).symm
    exact found (List.mem_append_left _ hid)
  · refine h.hiddenSum.trans (GroupIndex.sourcesIn_congr fun id hid => ?_).symm
    exact found (List.mem_append_right _ hid)

theorem Balanced.dropFromView (h : t.Balanced) {ix : GroupIndex} {g : Group}
    (coherent : ix.Coherent) (live : t.index.group? g.id = some g)
    (groups : ix.groups = (t.index.dropGroup g.id).groups) :
    ({ t with index := ix }.dropFromView g.id (t.slot? g.id) g.sourceCount).table.Balanced := by
  rcases h.slot?_of_live live with ⟨row, hs, hrow⟩ | ⟨hs, -, hhid⟩
  · rw [hs]
    exact (h.takeRow live hrow).2.drop coherent groups _ _
  · rw [hs]
    exact (h.takeHidden live hhid).2.drop coherent groups _ _

/-- An operation on one group keeps the balance. -/
theorem Balanced.localChange (h : t.Balanced) {change : Change} (hc : t.LocalChange change) :
    change.table.Balanced := by
  cases hc with
  | kept rejected => exact ⟨⟨h.coherent, h.placed⟩, h.filteredSum, h.hiddenSum⟩
  | started ix g coherent unused alone groups =>
      have found := GroupIndex.group?_of_append unused groups
      have hother {id : GroupId} (hid : id ∈ t.index.ids) :
          ix.group? id = t.index.group? id := by
        rw [found, if_neg]
        rintro rfl
        exact (t.index.group?_eq_none_iff g.id).mp unused hid
      refine Awaits.placeNew ⟨coherent, (found g.id).trans (if_pos rfl), ?_, ?_, ?_⟩
      · show (g.id :: (t.rows ++ t.hidden)).Perm ix.ids
        have hids : ix.ids = t.index.ids ++ [g.id] := by
          rw [GroupIndex.ids, groups, List.map_append]
          rfl
        rw [hids]
        exact (h.placed.cons g.id).trans (List.perm_append_singleton _ _).symm
      · refine h.filteredSum.trans (GroupIndex.sourcesIn_congr fun id hid => ?_).symm
        exact hother (h.mem_ids_iff.mpr (.inl hid))
      · refine h.hiddenSum.trans (GroupIndex.sourcesIn_congr fun id hid => ?_).symm
        exact hother (h.mem_ids_iff.mpr (.inr hid))
  | changed ix before g coherent live groups =>
      exact (h.recounted coherent live groups).settle
        ((GroupIndex.group?_of_put live groups g.id).trans (if_pos rfl))
  | dropped ix g coherent live groups => exact h.dropFromView coherent live groups

/-! ### Operations on all groups -/

theorem rebuild_balanced (coherent : t.index.Coherent) : t.rebuild.table.Balanced := by
  have named {gs : List Group} (hsub : gs ⊆ t.index.groups) :
      ∀ g ∈ gs, t.index.group? g.id = some g :=
    fun g hg => coherent.group?_of_mem (hsub hg)
  have perm : (t.order.sorted (t.index.groups.filter t.shows)).Perm
      (t.index.groups.filter t.shows) := List.mergeSort_perm _ _
  simp only [rebuild, List.partition_eq_filter_filter]
  refine ⟨⟨coherent, ?_⟩, ?_, ?_⟩
  · show ((t.order.sorted _).map Group.id ++ List.map Group.id _).Perm t.index.ids
    rw [← List.map_append]
    exact ((perm.append_right _).trans (List.filter_append_perm _ _)).map Group.id
  · show sourcesOf (t.index.groups.filter t.shows) =
      t.index.sourcesIn ((t.order.sorted (t.index.groups.filter t.shows)).map Group.id)
    rw [GroupIndex.sourcesIn_perm _ (perm.map Group.id),
      GroupIndex.sourcesIn_names (named (List.filter_sublist.subset))]
  · exact (GroupIndex.sourcesIn_names (named (List.filter_sublist.subset))).symm

theorem Balanced.resort (h : t.Balanced) : t.resort.table.Balanced := by
  have perm := List.mergeSort_perm t.rows
  refine ⟨⟨h.coherent, ?_⟩, ?_, h.hiddenSum⟩
  · exact ((perm _).append_right _).trans h.placed
  · exact h.filteredSum.trans (GroupIndex.sourcesIn_perm _ (perm _)).symm

theorem clear_balanced (t : Table) : t.clear.table.Balanced :=
  ⟨⟨.clear, .refl _⟩, rfl, rfl⟩

theorem Balanced.globalChange (h : t.Balanced) {c : TableCommand} {change : Change}
    (hc : t.GlobalChange c change) : change.table.Balanced := by
  cases hc with
  | rebuilt filter junkPolicy junk => exact rebuild_balanced h.coherent
  | resorted sort rows same =>
      refine Balanced.resort ⟨⟨h.coherent, (same.append_right _).trans h.placed⟩, ?_, h.hiddenSum⟩
      exact h.filteredSum.trans (GroupIndex.sourcesIn_perm _ same).symm
  | cleared => exact t.clear_balanced
  | adjusted filter realTimeSort grouping selection rejected =>
      exact ⟨⟨h.coherent.congr rfl rfl rfl rfl, h.placed⟩, h.filteredSum, h.hiddenSum⟩

theorem new_balanced (options : Options) (registry : Registry) :
    (new options registry).Balanced :=
  ⟨⟨GroupIndex.coherent_empty _, .refl _⟩, rfl, rfl⟩

/-- Every command keeps the balance, whatever the filter answers. -/
theorem Balanced.perform (h : t.Balanced) (c : TableCommand) : (t.perform c).table.Balanced := by
  cases hc : c.isLocal with
  | true => exact h.localChange (perform_local h.toPlaced hc)
  | false => exact h.globalChange (perform_global h.toPlaced hc)

theorem after_balanced (options : Options) (registry : Registry) (commands : List TableCommand) :
    ((new options registry).after commands).Balanced :=
  after_keeps (new_balanced options registry) fun _ h c _ => h.perform c

end Table

end PeerSearch
