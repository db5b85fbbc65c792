import PeerSearch.Proofs.Table.Change

/-!
# PeerSearch.Proofs.Table.RowChange -- what an operation on one group does to the rows

Seen from the rows, an operation on one group shows it, moves it, takes it out or leaves all rows as
they stand. `RowChange` compares the tables before and after by their rows and by the groups in
them, so that what holds of the order of the rows is shown once for each of these.
-/

namespace PeerSearch

namespace Table

variable {t : Table}

/-- The table with other rows. -/
def onRows (t : Table) (rows : List GroupId) : Table :=
  { t with rows }

/-- All that an operation on one group can do to the rows, where `t'` is what it leaves. -/
inductive RowChange (t t' : Table) : Prop
  /-- The rows are the same, and so are the groups in them. -/
  | kept (rows : t'.rows = t.rows) (same : ∀ k ∈ t.rows, t'.group? k = t.group? k)
  | removed (id : GroupId) (row : Nat) (atRow : t.rows[row]? = some id)
      (rows : t'.rows = t.rows.eraseIdx row) (same : ∀ k ≠ id, t'.group? k = t.group? k)
  /-- A group that was in no row has a row now. -/
  | shown (g : Group) (noRow : g.id ∉ t.rows) (live : t'.group? g.id = some g)
      (same : ∀ k ≠ g.id, t'.group? k = t.group? k)
      (rows : t'.rows = t.rows.insertIdx ((t'.onRows t.rows).insertionRow g) g.id)
  /-- A group has changed, and its row has been looked for anew. -/
  | moved (g : Group) (row : Nat) (atRow : t.rows[row]? = some g.id)
      (live : t'.group? g.id = some g) (same : ∀ k ≠ g.id, t'.group? k = t.group? k)
      (moves : (t.realTimeSort || t.sinks g) = true)
      (rows : t'.rows =
        (t.rows.eraseIdx row).insertIdx ((t'.onRows t.rows).destination g row) g.id)
  /-- A group has changed, and its row stays where it is. -/
  | left (g : Group) (row : Nat) (atRow : t.rows[row]? = some g.id)
      (live : t'.group? g.id = some g) (same : ∀ k ≠ g.id, t'.group? k = t.group? k)
      (stays : (t.realTimeSort || t.sinks g) = false) (rows : t'.rows = t.rows)

/-- When one group has changed, the rows still show groups. -/
theorem Placed.live_of_same {t' : Table} (placed : t.Placed) {g : Group}
    (live : t'.group? g.id = some g) (same : ∀ k ≠ g.id, t'.group? k = t.group? k) :
    ∀ id ∈ t.rows, ∃ h, t'.group? id = some h := by
  intro id hid
  by_cases own : id = g.id
  · exact ⟨g, own ▸ live⟩
  · exact (placed.live_of_row hid).imp fun h hh => (same id own).trans hh

theorem rowChange_settle {u : Table} {g : Group} (rows : u.rows = t.rows)
    (settings : t.SameSettings u) (live : u.group? g.id = some g)
    (same : ∀ k ≠ g.id, u.group? k = t.group? k) : t.RowChange (u.settle g).table := by
  have sinks : (u.realTimeSort || u.sinks g) = (t.realTimeSort || t.sinks g) := by
    rw [Table.sinks, Table.sinks, settings.realTimeSort, settings.junkPolicy, settings.junk]
  have hs := u.settled g
  generalize u.settle g = change at hs ⊢
  cases hs with
  | relocated row facets atRow shown moves =>
      rw [relocate_table (t := { u with facets }) atRow]
      rw [rows] at atRow
      refine .moved g row atRow live same (sinks ▸ moves) ?_
      rw [← rows]
      rfl
  | updated row facets atRow shown stays =>
      exact .left g row (rows ▸ atRow) live same (sinks ▸ stays) rows
  | hid row facets atRow =>
      exact .removed g.id row (rows ▸ atRow) (congrArg (List.eraseIdx · row) rows) same
  | unhid facets noRow =>
      refine .shown g (rows ▸ noRow) live same ?_
      rw [← rows]
      rfl
  | staysHidden facets noRow =>
      refine .kept rows fun k hk => same k ?_
      rintro rfl
      exact noRow (rows ▸ hk)

/-- Every operation on one group is one of these changes to the rows. -/
theorem LocalChange.rowChange {change : Change} (hc : t.LocalChange change) (placed : t.Placed) :
    t.RowChange change.table := by
  cases hc with
  | kept rejected => exact .kept rfl fun _ _ => rfl
  | started ix g coherent unused alone groups =>
      have found := GroupIndex.group?_of_append unused groups
      have noRow := placed.not_row unused
      have same (k : GroupId) (hk : k ≠ g.id) : ix.group? k = t.group? k :=
        (found k).trans (if_neg hk.symm)
      rcases { t with index := ix }.placeNew_cases g with ⟨-, facets, heq⟩ | ⟨-, facets, heq⟩
      · rw [heq]
        exact .shown g noRow ((found g.id).trans (if_pos rfl)) same rfl
      · rw [heq]
        refine .kept rfl fun k hk => same k ?_
        rintro rfl
        exact noRow hk
  | changed ix before g coherent live groups =>
      have found := GroupIndex.group?_of_put live groups
      exact rowChange_settle (u := t.recounted ix before g) rfl ⟨rfl, rfl, rfl, rfl, rfl⟩
        ((found g.id).trans (if_pos rfl)) fun k hk => (found k).trans (if_neg hk.symm)
  | dropped ix g coherent live groups =>
      have found := GroupIndex.group?_of_drop groups
      have same (k : GroupId) (hk : k ≠ g.id) : ix.group? k = t.group? k :=
        (found k).trans (if_neg hk.symm)
      rcases placed.slot?_of_live live with ⟨row, hs, hrow⟩ | ⟨hs, hrow, -⟩
      · rw [hs]
        exact .removed g.id row hrow rfl same
      · rw [hs]
        refine .kept rfl fun k hk => same k ?_
        rintro rfl
        exact hrow hk

end Table

end PeerSearch
