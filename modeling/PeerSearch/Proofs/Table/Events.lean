import PeerSearch.Proofs.Table.Counts
import PeerSearch.Table.Live

/-!
# PeerSearch.Proofs.Table.Events -- what the events tell

Whoever starts from the rows of a table and redraws them event by event always has the rows of the
table. So no change of the rows goes untold, and every event names the row that it is about. Events
reach each subscriber that stays in the order in which they were sent, whoever else comes and goes.
-/

namespace PeerSearch

/-! ## Redrawing -/

namespace TableEvent

/-- What becomes of a mirror of the rows by an event. Only after a reset the mirror looks at the rows
that the table shows; there is no outcome where a row number is out of range. -/
def redraw? (shown mirror : List GroupId) : TableEvent → Option (List GroupId)
  | inserted row id => insertAt? mirror row id
  | removed row _ => removeAt? mirror row
  | updated _ _ => some mirror
  | moved source target _ => do insertAt? (← removeAt? mirror source) target (← mirror[source]?)
  | reset => some shown

/-- An event about one row says truly where its group stands in the rows. A reset is not about one
row. -/
def FitsRows (rows : List GroupId) : TableEvent → Prop
  | inserted row id | updated row id => rows[row]? = some id
  | moved _ target id => rows[target]? = some id
  | removed _ id => id ∉ rows
  | reset => False

/-- The event says that the row of that group is to be drawn anew, in its place or another. -/
def Redraws (id : GroupId) : TableEvent → Prop
  | updated _ g | moved _ _ g => g = id
  | _ => False

end TableEvent

variable {t : Table}

namespace Table

/-- Redrawing by the events of a change gives the rows after it. -/
def Mirrors (rows : List GroupId) (change : Change) : Prop :=
  change.events.foldlM (TableEvent.redraw? change.table.rows) rows = some change.table.rows

/-- A change tells of one row at most, and truly. -/
structure TellsOfRow (rows : List GroupId) (change : Change) : Prop where
  mirrored : Mirrors rows change
  once : change.events.length ≤ 1
  fits : ∀ e ∈ change.events, e.FitsRows change.table.rows

theorem tells_nothing {rows : List GroupId} (same : t.rows = rows) : TellsOfRow rows t.quietly := by
  subst same
  exact ⟨rfl, Nat.zero_le 1, fun _ he => by cases he⟩

theorem tells_one {rows : List GroupId} {after : Table} {e : TableEvent}
    (mirrored : e.redraw? after.rows rows = some after.rows) (fits : e.FitsRows after.rows) :
    TellsOfRow rows ⟨after, [e]⟩ := by
  refine ⟨?_, Nat.le_refl 1, fun e' he => ?_⟩
  · rw [Mirrors, List.foldlM_cons, mirrored]
    rfl
  · rwa [List.mem_singleton.mp he]

/-! ### Operations on one row -/

theorem showGroup_tells {rows : List GroupId} (same : t.rows = rows) (g : Group) :
    TellsOfRow rows (t.showGroup g) := by
  subst same
  have hrow := t.insertionRow_le g
  refine tells_one (insertAt?_eq hrow g.id) ?_
  show (t.rows.insertIdx (t.insertionRow g) g.id)[t.insertionRow g]? = some g.id
  rw [List.getElem?_insertIdx_self, if_pos hrow]

theorem relocate_tells {g : Group} {row : Nat} (atRow : t.rows[row]? = some g.id) :
    TellsOfRow t.rows (t.relocate g row) := by
  obtain ⟨hlt, -⟩ := List.getElem?_eq_some_iff.mp atRow
  have htarget := destination_le (g := g) hlt
  unfold relocate
  dsimp only
  split
  · exact tells_one rfl atRow
  · refine tells_one ?_ ?_
    · simp [TableEvent.redraw?, atRow, removeAt?_eq hlt, insertAt?_eq htarget]
    · show ((t.rows.eraseIdx row).insertIdx (t.destination g row) g.id)[t.destination g row]? = _
      rw [List.getElem?_insertIdx_self, if_pos htarget]

/-- Taking a row out, whatever else changes. -/
theorem removed_tells {after : Table} {id : GroupId} {row : Nat} (nodup : t.rows.Nodup)
    (atRow : t.rows[row]? = some id) (rows : after.rows = t.rows.eraseIdx row) :
    TellsOfRow t.rows ⟨after, [.removed row id]⟩ := by
  obtain ⟨hlt, -⟩ := List.getElem?_eq_some_iff.mp atRow
  refine tells_one ?_ ?_
  · rw [rows]
    exact removeAt?_eq hlt
  · show id ∉ after.rows
    rw [rows]
    exact fun hmem => ((mem_eraseIdx_iff nodup atRow id).mp hmem).1 rfl

theorem settle_tells {g : Group} (nodup : t.rows.Nodup) : TellsOfRow t.rows (t.settle g) := by
  have hs := t.settled g
  generalize t.settle g = change at hs ⊢
  cases hs with
  | relocated row facets atRow => exact relocate_tells (t := { t with facets }) atRow
  | updated row facets atRow => exact tells_one rfl atRow
  | hid row facets atRow => exact removed_tells nodup atRow rfl
  | unhid facets =>
      refine showGroup_tells ?_ g
      rfl
  | staysHidden facets => exact tells_nothing rfl

/-- An operation on one group tells of that group's row, if it is in one. -/
theorem LocalChange.tells (placed : t.Placed) {change : Change} (hc : t.LocalChange change) :
    TellsOfRow t.rows change := by
  cases hc with
  | kept rejected => exact tells_nothing rfl
  | started ix g =>
      rcases { t with index := ix }.placeNew_cases g with ⟨-, facets, heq⟩ | ⟨-, facets, heq⟩
      · rw [heq]
        refine showGroup_tells ?_ g
        rfl
      · rw [heq]
        exact tells_nothing rfl
  | changed ix before g => exact settle_tells (t := t.recounted ix before g) placed.rows_nodup
  | dropped ix g coherent live =>
      rcases placed.slot?_of_live live with ⟨row, hs, hrow⟩ | ⟨hs, -⟩
      · rw [hs]
        exact removed_tells placed.rows_nodup hrow rfl
      · rw [hs]
        exact tells_nothing rfl

/-! ### Every command -/

theorem GlobalChange.mirrors {c : TableCommand} {change : Change} (hc : t.GlobalChange c change) :
    Mirrors t.rows change := by
  -- Either nothing is told and no row has changed, or a reset shows all rows.
  cases hc <;> rfl

theorem Placed.mirrors (placed : t.Placed) (c : TableCommand) : Mirrors t.rows (t.perform c) := by
  cases hc : c.isLocal with
  | true => exact ((perform_local placed hc).tells placed).mirrored
  | false => exact (perform_global placed hc).mirrors

/-! ### Groups that stay visible -/

/-- Deciding over a group that stays visible tells of its row. -/
theorem settle_redraws {g : Group} (nodup : t.rows.Nodup) (before : g.id ∈ t.rows)
    (after : g.id ∈ (t.settle g).table.rows) :
    ∃ e, (t.settle g).events = [e] ∧ e.Redraws g.id := by
  have hs := t.settled g
  generalize t.settle g = change at hs after ⊢
  cases hs with
  | relocated row facets =>
      unfold relocate
      dsimp only
      split <;> exact ⟨_, rfl, rfl⟩
  | updated row facets => exact ⟨_, rfl, rfl⟩
  | hid row facets atRow =>
      exact absurd rfl ((mem_eraseIdx_iff nodup atRow g.id).mp after).1
  | unhid facets noRow | staysHidden facets noRow => exact absurd before noRow

/-- A result that is merged into a group that stays visible. -/
theorem Placed.add_redraws (placed : t.Placed) {r : SearchResult} {p : Placement}
    (merged : (t.add r).answer = some p) (joined : p.created = false) (before : p.group ∈ t.rows)
    (after : p.group ∈ (t.add r).change.table.rows) :
    ∃ e, (t.add r).change.events = [e] ∧ e.Redraws p.group := by
  cases hr : r.refusal? with
  | some refusal =>
      rw [add_of_refused hr] at merged
      cases merged
  | none =>
      cases hh : t.index.home? (.ofResult r) with
      | none =>
          rw [add_of_homeless placed hr hh] at merged
          cases merged
          cases joined
      | some g =>
          rw [add_of_home placed hr hh] at merged after ⊢
          cases merged
          exact settle_redraws (t := t.recounted _ g _) placed.rows_nodup before after

/-- A result that is detached from a group that stays visible. -/
theorem Placed.removeResult_redraws (placed : t.Placed) {id : ResultId} {gid : GroupId}
    (member : t.index.groupOf? id = some gid) (before : gid ∈ t.rows)
    (after : gid ∈ (t.removeResult id).change.table.rows) :
    ∃ e, (t.removeResult id).change.events = [e] ∧ e.Redraws gid := by
  obtain ⟨g, r, rfl, hg, hmem, hr⟩ := placed.coherent.known_result member
  cases hd : g.detach? id with
  | none =>
      rw [removeResult_of_last member hg hr hd (Group.sourceCount_of_last hmem hd)] at after
      -- The last result takes the group with it, so it does not stay visible.
      rcases placed.slot?_of_live hg with ⟨row, hs, hrow⟩ | ⟨-, noRow, -⟩
      · rw [hs] at after
        exact absurd rfl ((mem_eraseIdx_iff placed.rows_nodup hrow g.id).mp after).1
      · exact absurd before noRow
  | some g' =>
      have one := Group.sourceCount_of_detach hmem hd
      have name : g'.id = g.id := (Group.detach?_spec hd).1
      rw [removeResult_of_shared placed member hg hr hd one] at after ⊢
      rw [← name] at before after ⊢
      exact settle_redraws (t := t.recounted _ g _) placed.rows_nodup before after

/-- A verdict on a group that stays visible. -/
theorem Placed.markJunk_redraws (placed : t.Placed) {id : GroupId} {junk : Bool}
    (before : id ∈ t.rows) (after : id ∈ (t.markJunk id junk).change.table.rows) :
    ∃ e, (t.markJunk id junk).change.events = [e] ∧ e.Redraws id := by
  obtain ⟨g, hg⟩ := placed.live_of_row before
  obtain rfl := GroupIndex.id_of_group? hg
  rw [markJunk_of_known hg] at after ⊢
  exact settle_redraws (t := t.recounted _ g _) placed.rows_nodup before after

end Table

end PeerSearch
