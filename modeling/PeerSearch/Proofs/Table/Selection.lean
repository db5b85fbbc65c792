import PeerSearch.Proofs.Table.Counts

/-!
# PeerSearch.Proofs.Table.Selection -- what is selected stays so while it is visible

The selection is a set of its own beside the rows, and each operation edits it where it takes a row
away. In every state all that is selected is visible. Whatever is done to the table, and whatever
the filter answers, what was selected and still has a row stays selected, and nothing else becomes
so unless the user selects it.
-/

namespace PeerSearch

/-- Whether a command is about the selection itself. -/
def TableCommand.isSelection : TableCommand → Bool
  | .select _ | .deselect _ | .clearSelection => true
  | _ => false

namespace Table

variable {t : Table}

/-! ## The selection and the rows -/

/-- All that is selected is visible. -/
def SelectsRows (t : Table) : Prop :=
  ∀ id, t.isSelected id = true → id ∈ t.rows

/-- From the one table to the other, what was selected stays selected as far as it is visible, and
nothing else is. -/
def KeepsSelected (t t' : Table) : Prop :=
  ∀ id, t'.isSelected id = true ↔ t.isSelected id = true ∧ id ∈ t'.rows

theorem isSelected_iff {id : GroupId} : t.isSelected id = true ↔ id ∈ t.selection.toList := by
  rw [isSelected, ← SortedSet.contains_toList, List.contains_iff_mem]

theorem KeepsSelected.selectsRows {t' : Table} (h : t.KeepsSelected t') : t'.SelectsRows :=
  fun id selected => ((h id).mp selected).2

/-- A table that has lost no row may keep its selection. -/
theorem SelectsRows.kept {t' : Table} (h : t.SelectsRows) (selection : t'.selection = t.selection)
    (rows : ∀ id ∈ t.rows, id ∈ t'.rows) : t.KeepsSelected t' := by
  intro id
  rw [isSelected, selection, ← isSelected]
  exact ⟨fun selected => ⟨selected, rows id (h id selected)⟩, And.left⟩

/-- A table that has lost one row has to take that one out of its selection. -/
theorem SelectsRows.lost {t' : Table} {gone : GroupId} (h : t.SelectsRows)
    (selection : t'.selection = t.selection.erase gone)
    (rows : ∀ id, id ∈ t'.rows ↔ id ≠ gone ∧ id ∈ t.rows) : t.KeepsSelected t' := by
  intro id
  rw [isSelected_iff, isSelected_iff, selection, SortedSet.mem_erase, rows]
  constructor
  · rintro ⟨other, selected⟩
    exact ⟨selected, other, h id (isSelected_iff.mpr selected)⟩
  · rintro ⟨selected, other, -⟩
    exact ⟨other, selected⟩

/-! ## Operations on one group -/

theorem SelectsRows.settle (h : t.SelectsRows) (nodup : t.rows.Nodup) (g : Group) :
    t.KeepsSelected (t.settle g).table := by
  have hs := t.settled g
  generalize t.settle g = change at hs ⊢
  cases hs with
  | relocated row facets atRow =>
      have perm := relocate_perm (t := { t with facets }) atRow
      rw [relocate_table (t := { t with facets }) atRow]
      exact h.kept rfl fun id hid => perm.mem_iff.mpr hid
  | updated row facets => exact h.kept rfl fun id hid => hid
  | hid row facets atRow => exact h.lost rfl (mem_eraseIdx_iff nodup atRow)
  | unhid facets => exact h.kept rfl fun id hid => (mem_insertionRow id).mpr (.inr hid)
  | staysHidden facets => exact h.kept rfl fun id hid => hid

theorem SelectsRows.placeNew (h : t.SelectsRows) (g : Group) :
    t.KeepsSelected (t.placeNew g).table := by
  rcases t.placeNew_cases g with ⟨-, facets, heq⟩ | ⟨-, facets, heq⟩
  · rw [heq]
    exact h.kept rfl fun id hid => (mem_insertionRow id).mpr (.inr hid)
  · rw [heq]
    exact h.kept rfl fun id hid => hid

theorem SelectsRows.localChange (h : t.SelectsRows) (placed : t.Placed) {change : Change}
    (hc : t.LocalChange change) : t.KeepsSelected change.table := by
  cases hc with
  | kept rejected => exact h.kept rfl fun id hid => hid
  | started ix g => exact SelectsRows.placeNew (t := { t with index := ix }) h g
  | changed ix before g =>
      exact SelectsRows.settle (t := t.recounted ix before g) h placed.rows_nodup g
  | dropped ix g coherent live =>
      rcases placed.slot?_of_live live with ⟨row, hs, hrow⟩ | ⟨hs, noRow, -⟩
      · rw [hs]
        exact h.lost rfl (mem_eraseIdx_iff placed.rows_nodup hrow)
      · rw [hs]
        refine h.lost rfl fun id => (and_iff_right_of_imp ?_).symm
        rintro hid rfl
        exact noRow hid

/-! ## Operations on all groups -/

/-- What is not hidden after a rebuild is visible, since it was there before. -/
theorem SelectsRows.rebuild (h : t.SelectsRows) (placed : t.Placed) {u : Table}
    (index : u.index = t.index) (selection : u.selection = t.selection) :
    t.KeepsSelected u.rebuild.table := by
  have rebuilt : u.rebuild.table.Placed :=
    (rebuild_balanced (t := u) (index ▸ placed.coherent)).toPlaced
  have ids : u.rebuild.table.index.ids = t.index.ids := congrArg GroupIndex.ids index
  have pruned : u.rebuild.table.selection =
      t.selection.keep fun id => !u.rebuild.table.hidden.contains id := by
    rw [← selection]
    rfl
  intro id
  rw [isSelected_iff, isSelected_iff, pruned, SortedSet.mem_keep, Bool.not_eq_true',
    List.contains_eq_mem, decide_eq_false_iff_not]
  refine and_congr_right fun selected => ⟨fun shown => ?_, fun row hidden => ?_⟩
  · have live : id ∈ u.rebuild.table.index.ids :=
      ids ▸ placed.mem_ids_iff.mpr (.inl (h id (isSelected_iff.mpr selected)))
    exact (rebuilt.mem_ids_iff.mp live).resolve_right shown
  · exact rebuilt.disjoint row hidden

theorem SelectsRows.resort (h : t.SelectsRows) {u : Table} (rows : u.rows.Perm t.rows)
    (selection : u.selection = t.selection) : t.KeepsSelected u.resort.table :=
  h.kept selection fun _ hid => ((List.mergeSort_perm u.rows _).trans rows).mem_iff.mpr hid

/-- Every command that is not about the selection keeps what is selected and visible. -/
theorem SelectsRows.perform (h : t.SelectsRows) (placed : t.Placed) {c : TableCommand}
    (hc : c.isSelection = false) : t.KeepsSelected (t.perform c).table := by
  cases c with
  | add | removeResult | removeGroup | removeRow | markJunk =>
      exact h.localChange placed (perform_local placed rfl)
  | setFilter filter => exact h.rebuild placed (u := { t with filter }) rfl rfl
  | filtersChanged => exact h.rebuild placed rfl rfl
  | setJunkPolicy junkPolicy =>
      simp only [Table.perform, setJunkPolicy]
      split
      · exact h.kept rfl fun id hid => hid
      · exact h.rebuild placed (u := { t with junkPolicy }) rfl rfl
  | setSpamThreshold threshold =>
      simp only [Table.perform, setSpamThreshold]
      split
      · exact h.kept rfl fun id hid => hid
      · exact h.rebuild placed (u := { t with junk := .ofThreshold threshold }) rfl rfl
  | setSort key direction => exact h.resort (.refl _) rfl
  | clearSort => exact h.resort placed.arrival_perm rfl
  | clear => exact fun id => iff_of_false Bool.false_ne_true fun hid => List.not_mem_nil hid.2
  | driftFilter | setRealTimeSort | setGrouping | takeRejected =>
      exact h.kept rfl fun id hid => hid
  | select | deselect | clearSelection => cases hc

/-! ## The user's choice -/

/-- Selecting adds the group if it is visible. -/
theorem isSelected_select (t : Table) (id k : GroupId) :
    (t.select id).1.isSelected k = true ↔ t.isSelected k = true ∨ (k = id ∧ id ∈ t.rows) := by
  have visible : t.rowOf? id = none ↔ id ∉ t.rows := by
    simp only [rowOf?, List.findIdx?_eq_none_iff, beq_eq_false_iff_ne]
    exact ⟨fun none hid => none id hid rfl, fun none k hk heq => none (heq ▸ hk)⟩
  unfold select
  cases hrow : t.rowOf? id with
  | none =>
      have noRow := visible.mp hrow
      exact (or_iff_left fun hk => noRow hk.2).symm
  | some row =>
      have hasRow : id ∈ t.rows := by
        by_contra noRow
        rw [visible.mpr noRow] at hrow
        cases hrow
      rw [isSelected_iff, isSelected_iff, and_iff_left hasRow]
      exact SortedSet.mem_add.trans or_comm

theorem isSelected_deselect (t : Table) (id k : GroupId) :
    (t.deselect id).1.isSelected k = true ↔ k ≠ id ∧ t.isSelected k = true := by
  rw [isSelected_iff, isSelected_iff]
  exact SortedSet.mem_erase

theorem SelectsRows.choice (h : t.SelectsRows) {c : TableCommand} (hc : c.isSelection = true) :
    (t.perform c).table.SelectsRows := by
  cases c with
  | select id =>
      intro k selected
      have rows : (t.select id).1.rows = t.rows := by
        unfold Table.select
        split <;> rfl
      show k ∈ (t.select id).1.rows
      rw [rows]
      rcases (t.isSelected_select id k).mp selected with before | ⟨rfl, hasRow⟩
      · exact h k before
      · exact hasRow
  | deselect id => exact fun k selected => h k ((t.isSelected_deselect id k).mp selected).2
  | clearSelection => exact fun k selected => absurd selected Bool.false_ne_true
  | _ => cases hc

/-! ## Runs -/

/-- The invariant of a run. -/
structure Selecting (t : Table) : Prop extends t.Balanced where
  visible : t.SelectsRows

theorem Selecting.perform (h : t.Selecting) (c : TableCommand) :
    (t.perform c).table.Selecting := by
  refine ⟨h.toBalanced.perform c, ?_⟩
  cases hc : c.isSelection with
  | true => exact h.visible.choice hc
  | false => exact (h.visible.perform h.toPlaced hc).selectsRows

theorem new_selecting (options : Options) (registry : Registry) :
    (new options registry).Selecting :=
  ⟨new_balanced options registry, fun _ selected => absurd selected Bool.false_ne_true⟩

theorem after_selecting (options : Options) (registry : Registry) (commands : List TableCommand) :
    ((new options registry).after commands).Selecting :=
  after_keeps (new_selecting options registry) fun _ h c _ => h.perform c

/-- A group without a row is not selected, and only the user can select it. -/
theorem Selecting.not_selected {id : GroupId} (h : t.Selecting)
    (unselected : ¬ t.isSelected id = true) {c : TableCommand} (other : c ≠ .select id) :
    ¬ (t.perform c).table.isSelected id = true := by
  intro selected
  cases hc : c.isSelection with
  | false => exact unselected ((h.visible.perform h.toPlaced hc id).mp selected).1
  | true =>
      cases c with
      | select k =>
          rcases (t.isSelected_select k id).mp selected with before | ⟨rfl, -⟩
          · exact unselected before
          · exact other rfl
      | deselect k => exact unselected ((t.isSelected_deselect k id).mp selected).2
      | clearSelection => exact Bool.false_ne_true selected
      | _ => cases hc

theorem Selecting.not_selected_after {id : GroupId} (h : t.Selecting)
    (unselected : ¬ t.isSelected id = true) {later : List TableCommand}
    (others : .select id ∉ later) : ¬ (t.after later).isSelected id = true := by
  induction later generalizing t with
  | nil => exact unselected
  | cons c rest ih =>
      rw [List.mem_cons, not_or] at others
      exact ih (h.perform c) (h.not_selected unselected (Ne.symm others.1)) others.2

/-- In every state all that is selected is visible, and it is listed once each in the order of the
rows. Whatever is done other than by the user's choice, with any filter, exactly those stay selected
that were so and are visible afterwards; a group that has lost its row is not selected when it
returns, unless the user selects it again. -/
theorem selection_follows_visibility (options : Options) (registry : Registry)
    (commands : List TableCommand) :
    let t := (new options registry).after commands
    (∀ id, t.isSelected id = true → id ∈ t.rows) ∧
      (∀ c, c.isSelection = false → ∀ id, (t.perform c).table.isSelected id = true ↔
        t.isSelected id = true ∧ id ∈ (t.perform c).table.rows) ∧
      (∀ id later, id ∉ t.rows → .select id ∉ later → ¬ (t.after later).isSelected id = true) ∧
      (∀ id k, (t.select id).1.isSelected k = true ↔
        t.isSelected k = true ∨ (k = id ∧ id ∈ t.rows)) ∧
      t.selected.Sublist t.rows ∧ t.selected.Nodup ∧
      ∀ id, id ∈ t.selected ↔ t.isSelected id = true := by
  intro t
  have h : t.Selecting := after_selecting options registry commands
  have listed : t.selected.Sublist t.rows := List.filter_sublist
  refine ⟨h.visible, ?_, ?_, t.isSelected_select, listed, h.rows_nodup.sublist listed, ?_⟩
  · intro c hc
    exact h.visible.perform h.toPlaced hc
  · intro id later noRow others
    exact h.not_selected_after (fun selected => noRow (h.visible id selected)) others
  · intro id
    rw [selected, List.mem_filter]
    exact and_iff_right_of_imp (h.visible id)

/-- Of two selected groups, the one that a verdict hides is no longer selected when another verdict
shows it again. -/
theorem selection_follows_visibility_of_two :
    let t := (new {} .empty).after
      [.add { fileName := "a", size := 1 }, .add { fileName := "b", size := 2 },
        .select ⟨0⟩, .select ⟨1⟩]
    let later : List TableCommand := [.markJunk ⟨0⟩ true, .markJunk ⟨0⟩ false]
    t.selected = [⟨0⟩, ⟨1⟩] ∧ (t.after later).rows = [⟨1⟩, ⟨0⟩] ∧
      (∀ id, (t.perform (.markJunk ⟨0⟩ true)).table.isSelected id = true ↔
        t.isSelected id = true ∧ id ∈ (t.perform (.markJunk ⟨0⟩ true)).table.rows) ∧
      ¬ ((t.perform (.markJunk ⟨0⟩ true)).table.after
        [.markJunk ⟨0⟩ false]).isSelected ⟨0⟩ = true := by
  intro t later
  have first := selection_follows_visibility {} .empty
    [.add { fileName := "a", size := 1 }, .add { fileName := "b", size := 2 },
      .select ⟨0⟩, .select ⟨1⟩]
  have second := selection_follows_visibility {} .empty
    [.add { fileName := "a", size := 1 }, .add { fileName := "b", size := 2 },
      .select ⟨0⟩, .select ⟨1⟩, .markJunk ⟨0⟩ true]
  refine ⟨by decide +kernel, by decide +kernel, first.2.1 (.markJunk ⟨0⟩ true) rfl, ?_⟩
  exact second.2.2.1 ⟨0⟩ [.markJunk ⟨0⟩ false] (by decide +kernel) (by simp)

end Table

end PeerSearch
