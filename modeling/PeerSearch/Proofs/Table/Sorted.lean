import PeerSearch.Proofs.RowOrder
import PeerSearch.Proofs.Table.Counts

/-!
# PeerSearch.Proofs.Table.Sorted -- rows that follow their groups

While rows follow their groups, they stand in the order of the table after every command. An
operation on one group leaves the other rows in order, and the one row is put where it stands in
order with its neighbours; every other operation sorts all rows anew or leaves them alone.
-/

namespace PeerSearch

variable {t : Table}

namespace Table

/-! ## Rows in order -/

/-- Both are groups of the table, and the first may stand above the second. -/
def MayPrecede (t : Table) (a b : GroupId) : Prop :=
  ∃ g h, t.group? a = some g ∧ t.group? b = some h ∧ t.order.allowsAbove g h = true

/-- No row stands below one that it may not stand below. -/
def Sorted (t : Table) : Prop :=
  t.rows.Pairwise t.MayPrecede

/-- The rows are in order but for the group of that name. -/
def SortedBut (t : Table) (id : GroupId) : Prop :=
  ∀ rows : List GroupId, rows.Sublist t.rows → id ∉ rows → rows.Pairwise t.MayPrecede

theorem MayPrecede.trans {a b c : GroupId} (above : t.MayPrecede a b) (below : t.MayPrecede b c) :
    t.MayPrecede a c := by
  obtain ⟨g, h, hg, hh, hgh⟩ := above
  obtain ⟨h', k, hh', hk, hhk⟩ := below
  obtain rfl := Option.some.inj (hh.symm.trans hh')
  exact ⟨g, k, hg, hk, RowOrder.allowsAbove_trans hgh hhk⟩

/-- The same groups under the same order are in order over any index. -/
theorem pairwise_carried {t' : Table} {rows : List GroupId} (order : t'.order = t.order)
    (same : ∀ id ∈ rows, t'.group? id = t.group? id) (sorted : rows.Pairwise t.MayPrecede) :
    rows.Pairwise t'.MayPrecede := by
  refine sorted.imp_of_mem fun {a b} ha hb hab => ?_
  obtain ⟨g, h, hg, hh, hgh⟩ := hab
  exact ⟨g, h, (same a ha).trans hg, (same b hb).trans hh, order ▸ hgh⟩

/-- When one group changes, the rows stay in order but for that one. -/
theorem Sorted.but {t' : Table} {id : GroupId} (h : t.Sorted) (rows : t'.rows = t.rows)
    (order : t'.order = t.order) (others : ∀ k, k ≠ id → t'.group? k = t.group? k) :
    t'.SortedBut id := by
  intro part hpart hid
  rw [rows] at hpart
  refine pairwise_carried order (fun k hk => others k ?_) (h.sublist hpart)
  rintro rfl
  exact hid hk

theorem SortedBut.eraseIdx {id : GroupId} {row : Nat} (h : t.SortedBut id) (nodup : t.rows.Nodup)
    (atRow : t.rows[row]? = some id) : (t.rows.eraseIdx row).Pairwise t.MayPrecede := by
  refine h _ (List.eraseIdx_sublist _ _) fun hmem => ?_
  exact ((mem_eraseIdx_iff nodup atRow id).mp hmem).1 rfl

/-! ## Putting a row where it fits -/

/-- The row that a new group is put in lies between those that may stand above it and those that may
not. -/
theorem insertionRow_fits {g : Group} (live : ∀ id ∈ t.rows, ∃ h, t.group? id = some h)
    (hg : t.group? g.id = some g) : Fits t.MayPrecede t.rows (t.insertionRow g) g.id := by
  refine partitionPoint_fits ?_ ?_
  · intro id hid allowed
    obtain ⟨row, hrow⟩ := live id hid
    simp only [rowAllowsBelow, hrow] at allowed
    exact ⟨row, g, hrow, hg, allowed⟩
  · intro id hid refused
    obtain ⟨row, hrow⟩ := live id hid
    simp only [rowAllowsBelow, hrow] at refused
    refine ⟨g, row, hg, hrow, (RowOrder.allowsAbove_total row g).resolve_left ?_⟩
    rw [refused]
    exact Bool.false_ne_true

theorem mayPrecede_iff {a b : GroupId} {g h : Group} (hg : t.group? a = some g)
    (hh : t.group? b = some h) : t.MayPrecede a b ↔ t.order.allowsAbove g h = true := by
  constructor
  · rintro ⟨g', h', hg', hh', above⟩
    obtain rfl := Option.some.inj (hg.symm.trans hg')
    obtain rfl := Option.some.inj (hh.symm.trans hh')
    exact above
  · exact fun above => ⟨g, h, hg, hh, above⟩

/-- Of two rows, one may stand above the other. -/
theorem mayPrecede_of_not {a b : GroupId} {g h : Group} (hg : t.group? a = some g)
    (hh : t.group? b = some h) (not : ¬ t.MayPrecede a b) : t.MayPrecede b a := by
  rw [mayPrecede_iff hg hh] at not
  exact (mayPrecede_iff hh hg).mpr ((RowOrder.allowsAbove_total g h).resolve_left not)

theorem comparesTo_lt_iff {g h : Group} {id : GroupId} (hg : t.group? g.id = some g)
    (hh : t.group? id = some h) : t.comparesTo g .lt id = true ↔ ¬ t.MayPrecede id g.id := by
  rw [mayPrecede_iff hh hg, RowOrder.allowsAbove_iff, not_not, Std.OrientedCmp.gt_iff_lt]
  simp only [comparesTo, hh, Option.any_some, beq_iff_eq]

theorem comparesTo_gt_iff {g h : Group} {id : GroupId} (hg : t.group? g.id = some g)
    (hh : t.group? id = some h) : t.comparesTo g .gt id = true ↔ ¬ t.MayPrecede g.id id := by
  rw [mayPrecede_iff hg hh, RowOrder.allowsAbove_iff, not_not]
  simp only [comparesTo, hh, Option.any_some, beq_iff_eq]

/-! ### Scanning outward -/

/-- How many rows above the start the group has to stand above, up to the first that it need not. -/
def passedUp (t : Table) (g : Group) (start : Nat) : Nat :=
  ((t.rows.take start).reverse.takeWhile (t.comparesTo g .lt)).length

/-- How many rows below the start have to stand above the group, up to the first that need not. -/
def passedDown (t : Table) (g : Group) (start : Nat) : Nat :=
  ((t.rows.drop (start + 1)).takeWhile (t.comparesTo g .gt)).length

theorem destination_eq (t : Table) (g : Group) (start : Nat) :
    t.destination g start =
      if t.passedUp g start = 0 then start + t.passedDown g start
      else start - t.passedUp g start := by
  unfold destination
  split
  · next hup => exact (if_pos hup).symm
  · next hup => exact (if_neg hup).symm

theorem passedUp_le (t : Table) (g : Group) (start : Nat) : t.passedUp g start ≤ start := by
  refine (List.takeWhile_sublist _).length_le.trans ?_
  rw [List.length_reverse]
  exact List.length_take_le start t.rows

/-- A row above the start is passed on the way up, or it is where the scan stops, or beyond. -/
theorem passedUp_boundary {g : Group} {start i : Nat} {a : GroupId}
    (hstart : start ≤ t.rows.length) (hi : i < start) (ha : t.rows[i]? = some a) :
    (start - 1 - i < t.passedUp g start → t.comparesTo g .lt a = true) ∧
      (start - 1 - i = t.passedUp g start → t.comparesTo g .lt a = false) := by
  refine takeWhile_boundary (t.comparesTo g .lt) ?_
  have hlen : (t.rows.take start).length = start := List.length_take_of_le hstart
  have hback : start - 1 - (start - 1 - i) = i := by omega
  rw [List.getElem?_reverse (by omega), hlen, hback, List.getElem?_take_of_lt hi, ha]

theorem passedDown_boundary {g : Group} {start i : Nat} {b : GroupId} (hi : start < i)
    (hb : t.rows[i]? = some b) :
    (i - (start + 1) < t.passedDown g start → t.comparesTo g .gt b = true) ∧
      (i - (start + 1) = t.passedDown g start → t.comparesTo g .gt b = false) := by
  refine takeWhile_boundary (t.comparesTo g .gt) ?_
  rw [List.getElem?_drop, Nat.add_sub_cancel' hi, hb]

/-- Scanning outward ends where the group stands in a relation to both neighbours, if it does so to
every row, on the side of it that the scan leaves the row on. The scan compares the group with every
row that it passes and with the one it stops at, so the rows need not be in order. -/
theorem destination_fits_of {R : GroupId → GroupId → Prop} {g : Group} {start : Nat}
    (live : ∀ id ∈ t.rows, ∃ h, t.group? id = some h) (hg : t.group? g.id = some g)
    (hstart : start < t.rows.length)
    (up : ∀ i a, i < start → t.rows[i]? = some a →
      (t.MayPrecede a g.id → R a g.id) ∧ (¬ t.MayPrecede a g.id → R g.id a))
    (down : ∀ i b, start < i → t.rows[i]? = some b →
      (t.MayPrecede g.id b → R g.id b) ∧ (¬ t.MayPrecede g.id b → R b g.id)) :
    Fits R (t.rows.eraseIdx start) (t.destination g start) g.id where
  within := destination_le hstart
  above j a hj ha := by
    -- The scan upward stopped at this row, or it is the last that was passed on the way down.
    have hup := t.passedUp_le g start
    rw [destination_eq] at hj
    rcases Nat.lt_or_ge j start with hlt | hge
    · rw [List.getElem?_eraseIdx_of_lt hlt] at ha
      obtain ⟨h, hh⟩ := live a (List.mem_of_getElem? ha)
      refine (up j a hlt ha).1 (not_not.mp fun passed => ?_)
      rw [← comparesTo_lt_iff hg hh, (passedUp_boundary hstart.le hlt ha).2] at passed
      · cases passed
      · split at hj <;> omega
    · rw [List.getElem?_eraseIdx_of_ge hge] at ha
      obtain ⟨h, hh⟩ := live a (List.mem_of_getElem? ha)
      have hlt := Nat.lt_succ_of_le hge
      refine (down (j + 1) a hlt ha).2 ((comparesTo_gt_iff hg hh).mp ?_)
      refine (passedDown_boundary hlt ha).1 ?_
      split at hj <;> omega
  below b hb := by
    -- The scan downward stopped at this row, or it is the last that was passed on the way up.
    have hup := t.passedUp_le g start
    rw [destination_eq] at hb
    split at hb
    · have hge := Nat.le_add_right start (t.passedDown g start)
      rw [List.getElem?_eraseIdx_of_ge hge] at hb
      obtain ⟨h, hh⟩ := live b (List.mem_of_getElem? hb)
      have hlt := Nat.lt_succ_of_le hge
      refine (down _ b hlt hb).1 (not_not.mp fun passed => ?_)
      rw [← comparesTo_gt_iff hg hh, (passedDown_boundary hlt hb).2 (by omega)] at passed
      cases passed
    · have hlt : start - t.passedUp g start < start := by omega
      rw [List.getElem?_eraseIdx_of_lt hlt] at hb
      obtain ⟨h, hh⟩ := live b (List.mem_of_getElem? hb)
      refine (up _ b hlt hb).2 ((comparesTo_lt_iff hg hh).mp ?_)
      exact (passedUp_boundary hstart.le hlt hb).1 (by omega)

/-- Scanning outward ends where the group stands in order with both neighbours. -/
theorem destination_fits {g : Group} {start : Nat}
    (live : ∀ id ∈ t.rows, ∃ h, t.group? id = some h) (hg : t.group? g.id = some g)
    (hstart : start < t.rows.length) :
    Fits t.MayPrecede (t.rows.eraseIdx start) (t.destination g start) g.id := by
  refine destination_fits_of live hg hstart (fun i a _ ha => ⟨id, ?_⟩) fun i b _ hb => ⟨id, ?_⟩
  · obtain ⟨h, hh⟩ := live a (List.mem_of_getElem? ha)
    exact mayPrecede_of_not hh hg
  · obtain ⟨h, hh⟩ := live b (List.mem_of_getElem? hb)
    exact mayPrecede_of_not hg hh

/-! ## Operations on one group -/

theorem Sorted.showGroup {g : Group} (h : t.Sorted)
    (live : ∀ id ∈ t.rows, ∃ h, t.group? id = some h) (hg : t.group? g.id = some g) :
    (t.showGroup g).table.Sorted :=
  (insertionRow_fits live hg).pairwise h fun _ _ _ => MayPrecede.trans

theorem SortedBut.settle {g : Group} (h : t.SortedBut g.id) (placed : t.Placed)
    (hg : t.group? g.id = some g) (follows : t.realTimeSort = true) :
    (t.settle g).table.Sorted := by
  have live : ∀ id ∈ t.rows, ∃ h, t.group? id = some h := fun id hid => placed.live_of_row hid
  have hs := t.settled g
  generalize t.settle g = change at hs ⊢
  cases hs with
  | relocated row facets atRow =>
      obtain ⟨hlt, -⟩ := List.getElem?_eq_some_iff.mp atRow
      rw [relocate_table (t := { t with facets }) atRow]
      have fits := destination_fits (t := { t with facets }) live hg hlt
      exact fits.pairwise (h.eraseIdx placed.rows_nodup atRow) fun _ _ _ => MayPrecede.trans
  | updated row facets atRow shown stays =>
      -- Rows that follow their groups are always looked for anew.
      simp [follows] at stays
  | hid row facets atRow => exact h.eraseIdx placed.rows_nodup atRow
  | unhid facets noRow => exact Sorted.showGroup (h _ (.refl _) noRow) live hg
  | staysHidden facets noRow => exact h _ (.refl _) noRow

theorem Sorted.localChange (h : t.Sorted) (placed : t.Placed) (follows : t.realTimeSort = true)
    {change : Change} (hc : t.LocalChange change) : change.table.Sorted := by
  cases hc with
  | kept rejected => exact h
  | started ix g coherent unused alone groups =>
      -- The new group is in no row, so the groups in the rows are the same as before.
      have noRow := placed.not_row unused
      have found := GroupIndex.group?_of_append unused groups
      have others {id : GroupId} (hid : id ∈ t.rows) : ix.group? id = t.group? id := by
        refine (found id).trans (if_neg ?_)
        rintro rfl
        exact noRow hid
      have sorted : t.rows.Pairwise { t with index := ix }.MayPrecede :=
        pairwise_carried (t := t) rfl (fun id hid => others hid) h
      rcases { t with index := ix }.placeNew_cases g with ⟨-, facets, heq⟩ | ⟨-, facets, heq⟩
      · rw [heq]
        refine Sorted.showGroup sorted (fun id hid => ?_) ?_
        · exact (placed.live_of_row hid).imp fun k hk => (others hid).trans hk
        · exact (found g.id).trans (if_pos rfl)
      · rw [heq]
        exact sorted
  | changed ix before g coherent live groups =>
      have found := GroupIndex.group?_of_put live groups
      have but : (t.recounted ix before g).SortedBut g.id :=
        h.but rfl rfl fun k hk => (found k).trans (if_neg (Ne.symm hk))
      exact but.settle (placed.recounted coherent groups) ((found g.id).trans (if_pos rfl)) follows
  | dropped ix g coherent live groups =>
      have found := GroupIndex.group?_of_drop groups
      have but : { t with index := ix }.SortedBut g.id :=
        h.but rfl rfl fun k hk => (found k).trans (if_neg (Ne.symm hk))
      rcases placed.slot?_of_live live with ⟨row, hs, hrow⟩ | ⟨hs, hrow, -⟩
      · rw [hs]
        exact but.eraseIdx placed.rows_nodup hrow
      · rw [hs]
        exact but _ (.refl _) hrow

/-! ## Operations on all groups -/

/-- The rows are named after the groups in them. -/
theorem Placed.visibleGroups_ids (h : t.Placed) : t.visibleGroups.map Group.id = t.rows := by
  have live : ∀ id ∈ t.rows, ∃ g, t.group? id = some g := fun id hid => h.live_of_row hid
  unfold visibleGroups
  generalize t.rows = rows at live ⊢
  induction rows with
  | nil => rfl
  | cons id rest ih =>
      obtain ⟨g, hg⟩ := live id List.mem_cons_self
      rw [List.filterMap_cons, hg]
      dsimp only
      rw [List.map_cons, GroupIndex.id_of_group? hg]
      exact congrArg (id :: ·) (ih fun k hk => live k (List.mem_cons_of_mem _ hk))

/-- Groups of the table that stand in order give rows in order. -/
theorem pairwise_ids {groups : List Group} (live : ∀ g ∈ groups, t.group? g.id = some g)
    (sorted : groups.Pairwise fun g h => t.order.allowsAbove g h = true) :
    (groups.map Group.id).Pairwise t.MayPrecede := by
  refine List.pairwise_map.mpr (sorted.imp_of_mem fun {g h} hg hh hgh => ?_)
  exact ⟨g, h, live g hg, live h hh, hgh⟩

theorem rebuild_sorted (coherent : t.index.Coherent) : t.rebuild.table.Sorted := by
  simp only [rebuild, List.partition_eq_filter_filter]
  refine pairwise_ids (fun g hg => ?_) (t.order.sorted_pairwise _)
  have hmem := (t.order.sorted_perm _).mem_iff.mp hg
  exact coherent.group?_of_mem (List.mem_of_mem_filter hmem)

theorem live_of_visible {g : Group} (hg : g ∈ t.visibleGroups) : t.group? g.id = some g := by
  obtain ⟨id, -, hid⟩ := List.mem_filterMap.mp hg
  rwa [GroupIndex.id_of_group? hid]

/-- Sorting the rows sorts the groups in them. -/
theorem Placed.resort_rows (h : t.Placed) :
    t.resort.table.rows = (t.order.sorted t.visibleGroups).map Group.id := by
  have rows : t.resort.table.rows = t.rows.mergeSort _ := rfl
  rw [rows, ← h.visibleGroups_ids]
  refine (List.map_mergeSort fun g hg k hk => ?_).symm
  rw [live_of_visible hg, live_of_visible hk]

theorem Placed.resort_sorted (h : t.Placed) : t.resort.table.Sorted := by
  show t.resort.table.rows.Pairwise t.MayPrecede
  rw [h.resort_rows]
  refine pairwise_ids (fun g hg => ?_) (t.order.sorted_pairwise t.visibleGroups)
  exact live_of_visible ((t.order.sorted_perm _).mem_iff.mp hg)

/-! ## Runs -/

/-- The rows follow their groups and are in order. -/
structure Ordered (t : Table) : Prop extends t.Balanced where
  follows : t.realTimeSort = true
  sorted : t.Sorted

theorem Ordered.globalChange (h : t.Ordered) {c : TableCommand} {change : Change}
    (hc : t.GlobalChange c change) (on : c ≠ .setRealTimeSort false) :
    change.table.realTimeSort = true ∧ change.table.Sorted := by
  cases hc with
  | rebuilt filter junkPolicy junk => exact ⟨h.follows, rebuild_sorted h.coherent⟩
  | resorted sort rows same =>
      refine ⟨h.follows, Placed.resort_sorted ⟨h.coherent, ?_⟩⟩
      exact (same.append_right _).trans h.placed
  | cleared => exact ⟨h.follows, .nil⟩
  | adjusted filter realTimeSort grouping selection rejected told switched =>
      refine ⟨?_, h.sorted⟩
      rcases switched with same | rfl
      · exact same.trans h.follows
      · cases realTimeSort with
        | true => rfl
        | false => exact absurd rfl on

theorem Ordered.perform (h : t.Ordered) (c : TableCommand) (on : c ≠ .setRealTimeSort false) :
    (t.perform c).table.Ordered := by
  cases hc : c.isLocal with
  | true =>
      have change := perform_local h.toPlaced hc
      refine ⟨h.toBalanced.perform c, change.settings.realTimeSort.trans h.follows, ?_⟩
      exact h.sorted.localChange h.toPlaced h.follows change
  | false =>
      obtain ⟨follows, sorted⟩ := h.globalChange (perform_global h.toPlaced hc) on
      exact ⟨h.toBalanced.perform c, follows, sorted⟩

theorem after_ordered {options : Options} (registry : Registry) {commands : List TableCommand}
    (on : options.realTimeSort = true) (staysOn : .setRealTimeSort false ∉ commands) :
    ((new options registry).after commands).Ordered := by
  refine after_keeps ⟨new_balanced options registry, on, .nil⟩ fun t h c hc => h.perform c ?_
  rintro rfl
  exact staysOn hc

/-- While rows follow their groups, every row shows a group, and none stands below a row that it has
to stand above: whatever is done, and whatever the filter answers. -/
theorem rows_stay_sorted (options : Options) (registry : Registry) (commands : List TableCommand)
    (on : options.realTimeSort = true) (staysOn : .setRealTimeSort false ∉ commands) :
    let t := (new options registry).after commands
    ∀ i j, i < j → j < t.rows.length →
      ∃ g h, t.row? i = some g ∧ t.row? j = some h ∧ t.order.compareGroups g h ≠ .gt := by
  intro t i j hij hj
  have sorted := List.pairwise_iff_getElem.mp (after_ordered registry on staysOn).sorted
  obtain ⟨g, h, hg, hh, hgh⟩ := sorted i j (hij.trans hj) hj hij
  refine ⟨g, h, ?_, ?_, RowOrder.allowsAbove_iff.mp hgh⟩
  · rw [row?, List.getElem?_eq_getElem (hij.trans hj)]
    exact hg
  · rw [row?, List.getElem?_eq_getElem hj]
    exact hh

/-- The merge puts the second group, with two sources now, above the first. -/
theorem rows_stay_sorted_after_merge :
    let t := (new { sort := some ⟨.count, .descending⟩ } .empty).after
      [.add { fileName := "a", size := 1 }, .add { fileName := "b", size := 1 },
        .add { fileName := "b", size := 1 }]
    t.rows = [⟨1⟩, ⟨0⟩] ∧
      ∃ g h, t.row? 0 = some g ∧ t.row? 1 = some h ∧ t.order.compareGroups g h ≠ .gt :=
  ⟨by decide +kernel,
    rows_stay_sorted _ .empty _ rfl (by simp) 0 1 (by decide) (by decide +kernel)⟩

end Table

end PeerSearch
