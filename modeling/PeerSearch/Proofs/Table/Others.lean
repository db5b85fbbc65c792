import PeerSearch.Proofs.Table.Apart

/-!
# PeerSearch.Proofs.Table.Others -- an operation on one group leaves the others alone

Adding a result, taking one or a group out and recording a verdict touch one group at most, which
may come, go, grow, shrink, hide, show up, move and be found under other keys. Apart from that group
the table stays as it was, whatever the filter, the order of the rows and the state before: the
others keep their members, their places in relation to each other, their selection and what choosers
are told of them.
-/

namespace PeerSearch

namespace Table

variable {t t' : Table} {registry : Registry} {c : TableCommand} {id k : GroupId}

/-! ## The group that is touched -/

/-- The group that a command places a result in, takes one out of, takes out or judges. -/
def touched? (t : Table) : TableCommand → Option GroupId
  | .add r => (t.add r).answer.map Placement.group
  | .removeResult r => t.index.groupOf? r
  | .removeGroup id => (t.group? id).map Group.id
  | .removeRow row => t.rows[row]?
  | .markJunk id _ => (t.group? id).map Group.id
  | _ => none

/-- What is held apart from a group, with the names to hand out next that an index has. -/
def Apart.naming (a : Apart) (ix : GroupIndex) : Apart :=
  { a with index := { a.index with nextGroup := ix.nextGroup, nextResult := ix.nextResult } }

theorem apartFrom_naming_self (t : Table) (id : GroupId) :
    (t.apartFrom id).naming t.index = t.apartFrom id := rfl

/-- A table that is the same apart from a group has the same names to hand out. -/
theorem apartFrom_naming_of_eq (same : t'.apartFrom id = t.apartFrom id) :
    t'.apartFrom id = (t.apartFrom id).naming t'.index := by
  rw [← same, apartFrom_naming_self]

/-! ## Apart from the group -/

/-- Showing or hiding a new group puts it between the others. -/
theorem placeNew_view (t : Table) (g : Group) : t.SameView (t.placeNew g).table g.id := by
  have skipped : (g.id != g.id) = false := bne_self_eq_false g.id
  rcases t.placeNew_cases g with ⟨-, facets, heq⟩ | ⟨-, facets, heq⟩
  · rw [heq]
    exact ⟨filter_insertIdx (p := (· != g.id)) skipped _, rfl, rfl⟩
  · rw [heq]
    exact ⟨rfl, filter_concat_self t.hidden g.id, rfl⟩

theorem apartFrom_placeNew (consistent : t.facets.Consistent) (g : Group) :
    (t.placeNew g).table.apartFrom g.id = t.apartFrom g.id := by
  obtain ⟨index, facets, rejected⟩ := t.placeNew_keeps g
  have recorded : (if t.hidesAsJunk g then t.facets else t.facets.add g).apartFrom g.id =
      t.facets.apartFrom g.id := by
    split
    · rfl
    · exact consistent.apartFrom_add g
  exact (t.placeNew_view g).apartFrom (t.placeNew_settings g) index
    ((congrArg (·.apartFrom g.id) facets).trans recorded) rejected

/-- Over the index in which a result has been placed, before its group is decided over. -/
theorem Sound.apartFrom_over_place (h : t.Sound registry) (r : SearchResult) :
    { t with index := (t.index.place r).1 }.apartFrom (t.index.place r).2.group =
      (t.apartFrom (t.index.place r).2.group).naming (t.index.place r).1 :=
  Apart.ext (h.coherent.apartFrom_place r) rfl rfl rfl rfl rfl rfl rfl rfl rfl

theorem Sound.apartFrom_add (h : t.Sound registry) {r : SearchResult} {p : Placement}
    (placed : (t.add r).answer = some p) :
    (t.add r).change.table.apartFrom p.group =
      (t.apartFrom p.group).naming (t.add r).change.table.index := by
  cases hr : r.refusal? with
  | some refusal =>
      rw [add_of_refused hr] at placed
      cases placed
  | none =>
      have base := h.apartFrom_over_place r
      rw [add_index h.toPlaced hr]
      cases hh : t.index.home? (.ofResult r) with
      | some g =>
          have group : (t.index.place r).2.group = g.id := by rw [GroupIndex.place_of_home hh]
          rw [add_of_home h.toPlaced hr hh] at placed ⊢
          obtain rfl := Option.some.inj placed
          set g' := g.push (t.index.nextMember r)
          rw [group] at base
          have settled := apartFrom_settle (t := t.recounted (t.index.place r).1 g g')
            h.consistent g'
          exact settled.trans base
      | none =>
          have group : (t.index.place r).2.group = ⟨t.index.nextGroup⟩ := by
            rw [GroupIndex.place_of_homeless hh]
          rw [add_of_homeless h.toPlaced hr hh] at placed ⊢
          obtain rfl := Option.some.inj placed
          rw [group] at base
          have started := apartFrom_placeNew (t := { t with index := (t.index.place r).1 })
            h.consistent (.single ⟨t.index.nextGroup⟩ (t.index.nextMember r))
          exact started.trans base

theorem Sound.apartFrom_markJunk (h : t.Sound registry) (id : GroupId) (junk : Bool) :
    (t.markJunk id junk).change.table.apartFrom id = t.apartFrom id := by
  cases hg : t.index.group? id with
  | none =>
      rw [markJunk_of_unknown hg]
      rfl
  | some g =>
      obtain rfl := GroupIndex.id_of_group? hg
      rw [markJunk_of_known hg]
      have index : (t.index.putGroup (g.mark junk)).apartFrom g.id = t.index.apartFrom g.id :=
        GroupIndex.apartFrom_with (t.index.filter_putGroup (g.mark junk)) fun _ => rfl
      have settled := apartFrom_settle
        (t := t.recounted (t.index.putGroup (g.mark junk)) g (g.mark junk)) h.consistent
        (g.mark junk)
      exact settled.trans (apartFrom_over index _ _)

theorem eq_of_group?_id {k : GroupId} (h : (t.group? id).map Group.id = some k) : k = id := by
  obtain ⟨g, hg, rfl⟩ := Option.map_eq_some_iff.mp h
  exact GroupIndex.id_of_group? hg

/-- Apart from the group that a command touches, and from the names to hand out next, the table
stays as it was. -/
theorem Sound.apartFrom_perform (h : t.Sound registry) (touched : t.touched? c = some id) :
    (t.perform c).table.apartFrom id = (t.apartFrom id).naming (t.perform c).table.index := by
  cases c with
  | add r =>
      obtain ⟨p, placed, rfl⟩ := Option.map_eq_some_iff.mp touched
      exact h.apartFrom_add placed
  | removeResult r => exact apartFrom_naming_of_eq (h.apartFrom_removeResult touched)
  | removeGroup k =>
      obtain rfl := eq_of_group?_id touched
      exact apartFrom_naming_of_eq (h.apartFrom_removeGroup id)
  | removeRow row =>
      have shown : t.rows[row]? = some id := touched
      simp only [Table.perform, removeRow, shown]
      exact apartFrom_naming_of_eq (h.apartFrom_removeGroup id)
  | markJunk k junk =>
      obtain rfl := eq_of_group?_id touched
      exact apartFrom_naming_of_eq (h.apartFrom_markJunk id junk)
  | _ => cases touched

/-- A command on a group or a result that touches no group puts aside a refused result, or does
nothing. -/
theorem Placed.perform_of_untouched (h : t.Placed) (hc : c.isLocal = true)
    (untouched : t.touched? c = none) :
    ∃ rejected, (t.perform c).table = { t with rejected } := by
  cases c with
  | add r =>
      cases hr : r.refusal? with
      | some refusal =>
          refine ⟨t.rejected ++ [⟨r, refusal⟩], ?_⟩
          rw [Table.perform, add_of_refused hr]
          rfl
      | none =>
          rw [touched?, Option.map_eq_none_iff, add_answer,
            GroupIndex.insert_of_valid (GroupIndex.refusal?_eq_none_iff.mp hr)] at untouched
          cases untouched
  | removeResult r =>
      refine ⟨t.rejected, ?_⟩
      rw [Table.perform, removeResult_of_unknown untouched]
      rfl
  | removeGroup k =>
      refine ⟨t.rejected, ?_⟩
      rw [Table.perform, removeGroup_of_unknown h (Option.map_eq_none_iff.mp untouched)]
      rfl
  | removeRow row =>
      refine ⟨t.rejected, ?_⟩
      have beyond : t.rows[row]? = none := untouched
      simp only [Table.perform, removeRow, beyond]
      rfl
  | markJunk k junk =>
      refine ⟨t.rejected, ?_⟩
      rw [Table.perform, markJunk_of_unknown (Option.map_eq_none_iff.mp untouched)]
      rfl
  | _ => cases hc

/-! ## Seen from another group -/

/-- A group is held, shown, selected and recorded in one table as in the other. -/
structure Undisturbed (t t' : Table) (k : GroupId) : Prop where
  /-- Its members, what they have in common and the verdict on it. -/
  group : t'.group? k = t.group? k
  members : ∀ r, t'.index.groupOf? r = some k ↔ t.index.groupOf? r = some k
  row : k ∈ t'.rows ↔ k ∈ t.rows
  hidden : k ∈ t'.hidden ↔ k ∈ t.hidden
  selected : t'.isSelected k = t.isSelected k
  recorded : t'.facets.indexed.find? k = t.facets.indexed.find? k
  /-- The values that list it. -/
  listed : ∀ axis value,
    (∃ groups, t'.facets.groupsFor? axis value = some groups ∧ k ∈ groups.toList) ↔
      ∃ groups, t.facets.groupsFor? axis value = some groups ∧ k ∈ groups.toList

theorem group?_of_filter (same : t'.index.groups.filter (·.id != id) =
    t.index.groups.filter (·.id != id)) (other : k ≠ id) : t'.group? k = t.group? k := by
  have found (ix : GroupIndex) : (ix.dropGroup id).group? k = ix.group? k :=
    (GroupIndex.group?_of_drop rfl k).trans (if_neg (Ne.symm other))
  rw [group?, group?, ← found t.index, ← found t'.index]
  exact GroupIndex.group?_congr same k

theorem mem_of_filter {ids ids' : List GroupId}
    (same : ids'.filter (· != id) = ids.filter (· != id)) (other : k ≠ id) :
    k ∈ ids' ↔ k ∈ ids := by
  have kept (ids : List GroupId) : k ∈ ids.filter (· != id) ↔ k ∈ ids := by
    rw [List.mem_filter, bne_iff_ne]
    exact and_iff_left other
  rw [← kept, same, kept]

theorem eq_some_of_filter {found found' : Option GroupId}
    (same : found'.filter (· != id) = found.filter (· != id)) (other : k ≠ id) :
    found' = some k ↔ found = some k := by
  have kept (found : Option GroupId) : found.filter (· != id) = some k ↔ found = some k := by
    rw [Option.filter_eq_some_iff, bne_iff_ne]
    exact and_iff_left other
  rw [← kept, same, kept]

theorem isSelected_of_erase (same : t'.selection.erase id = t.selection.erase id)
    (other : k ≠ id) : t'.isSelected k = t.isSelected k := by
  have kept (t : Table) : k ∈ SortedSet.toList (t.selection.erase id) ↔ t.isSelected k = true := by
    rw [SortedSet.mem_erase, isSelected_iff]
    exact and_iff_right other
  rw [Bool.eq_iff_iff, ← kept, same, kept]

theorem recorded_of_erase
    (same : t'.facets.indexed.erase id = t.facets.indexed.erase id) (other : k ≠ id) :
    t'.facets.indexed.find? k = t.facets.indexed.find? k := by
  have kept (indexed : SortedMap GroupId (List FacetEntry)) :
      (indexed.erase id).find? k = indexed.find? k :=
    (SortedMap.find?_erase indexed id k).trans (if_neg other)
  rw [← kept, same, kept]

theorem listed_of_recorded (h : t.facets.Consistent) (h' : t'.facets.Consistent)
    (same : t'.facets.indexed.find? k = t.facets.indexed.find? k) (axis : Axis)
    (value : FacetValue) :
    (∃ groups, t'.facets.groupsFor? axis value = some groups ∧ k ∈ groups.toList) ↔
      ∃ groups, t.facets.groupsFor? axis value = some groups ∧ k ∈ groups.toList := by
  rw [h.mem_groupsFor?_iff, h'.mem_groupsFor?_iff, FacetModel.recorded, same, FacetModel.recorded]

/-- Tables that are the same apart from a group do not differ for another one. -/
theorem undisturbed_of_apartFrom (h : t.facets.Consistent) (h' : t'.facets.Consistent)
    (same : t'.apartFrom id = (t.apartFrom id).naming t'.index) (other : k ≠ id) :
    t.Undisturbed t' k := by
  have recorded := recorded_of_erase
    (congrArg (fun a : Apart => a.facets.indexed) same) other
  exact {
    group := group?_of_filter (congrArg (fun a : Apart => a.index.groups) same) other
    members := fun r =>
      eq_some_of_filter (congrFun (congrArg (fun a : Apart => a.index.membership) same) r) other
    row := mem_of_filter (congrArg Apart.rows same) other
    hidden := mem_of_filter (congrArg Apart.hidden same) other
    selected := isSelected_of_erase (congrArg Apart.selection same) other
    recorded
    listed := listed_of_recorded h h' recorded }

/-- A list without repetitions in which something stands is what is left without it, and that. -/
theorem eq_insertIdx_of_filter {ids ids' : List GroupId} (nodup : ids.Nodup) (nodup' : ids'.Nodup)
    (same : ids'.filter (· != id) = ids.filter (· != id)) {row row' : Nat}
    (atRow : ids[row]? = some id) (atRow' : ids'[row']? = some id) :
    ids' = (ids.eraseIdx row).insertIdx row' id := by
  have left {ids : List GroupId} {row : Nat} (nodup : ids.Nodup) (atRow : ids[row]? = some id) :
      ids.eraseIdx row = ids.filter (· != id) := by
    rw [← filter_eraseIdx (p := (· != id)) atRow (bne_self_eq_false id)]
    refine (List.filter_eq_self.mpr fun k hk => ?_).symm
    exact bne_iff_ne.mpr ((mem_eraseIdx_iff nodup atRow k).mp hk).1
  rw [left nodup atRow, ← same, ← left nodup' atRow', insertIdx_eraseIdx_self atRow']

/-- In every state, whatever the filter and however the rows stand, a command on a group or a result
leaves all groups but the one that it touches as they are: with their members, shown or hidden,
selected or not, and recorded as they were. They stay in their order, among the rows, among the
hidden groups and in that of their arrival. A group that is touched and stays visible has its row
taken out and put in again at most, with the other rows left as they stand. -/
theorem others_undisturbed (options : Options) (registry : Registry)
    (commands : List TableCommand) (c : TableCommand) (hc : c.isLocal = true) :
    let t := (new options registry).after commands
    let t' := (t.perform c).table
    (∀ k, t.touched? c ≠ some k → t.Undisturbed t' k) ∧
    t'.rows.filter (t.touched? c != some ·) = t.rows.filter (t.touched? c != some ·) ∧
    t'.hidden.filter (t.touched? c != some ·) = t.hidden.filter (t.touched? c != some ·) ∧
    t'.index.groups.filter (fun g => t.touched? c != some g.id) =
      t.index.groups.filter (fun g => t.touched? c != some g.id) ∧
    ∀ id row row', t.touched? c = some id → t.rows[row]? = some id → t'.rows[row']? = some id →
      t'.rows = (t.rows.eraseIdx row).insertIdx row' id := by
  intro t t'
  have h : t.Sound registry := after_sound options registry commands
  have h' : t'.Sound registry := h.perform c
  cases touched : t.touched? c with
  | none =>
      obtain ⟨rejected, same⟩ := h.toPlaced.perform_of_untouched hc touched
      have same : t' = { t with rejected } := same
      rw [same]
      refine ⟨fun k _ => ?_, rfl, rfl, rfl, ?_⟩
      · exact ⟨rfl, fun _ => .rfl, .rfl, .rfl, rfl, rfl, fun _ _ => .rfl⟩
      · rintro id row row' ⟨⟩
  | some id =>
      have same := h.apartFrom_perform touched
      have others (k : GroupId) : (some id != some k) = (k != id) := by
        rw [Bool.eq_iff_iff, bne_iff_ne, bne_iff_ne, ne_eq, Option.some_inj, eq_comm]
      simp only [others]
      refine ⟨fun k other => ?_, congrArg Apart.rows same, congrArg Apart.hidden same,
        congrArg (fun a : Apart => a.index.groups) same, ?_⟩
      · exact undisturbed_of_apartFrom h.consistent h'.consistent same
          fun own => other (congrArg some own.symm)
      · rintro id' row row' ⟨⟩ atRow atRow'
        exact eq_insertIdx_of_filter h.rows_nodup h'.rows_nodup (congrArg Apart.rows same) atRow
          atRow'

/-- The last row has come to have more sources than those above it while rows were not moved. A
result for the second one moves that one to the top. -/
theorem others_undisturbed_by_merge :
    let a : SearchResult := { fileName := "a", size := 1 }
    let b : SearchResult := { fileName := "b", size := 2 }
    let c : SearchResult := { fileName := "c", size := 3 }
    let t := (new { sort := some ⟨.count, .descending⟩ } .empty).after
      [.add a, .add b, .add c, .setRealTimeSort false, .add c, .setRealTimeSort true, .select ⟨0⟩]
    let t' := (t.perform (.add b)).table
    t.touched? (.add b) = some ⟨1⟩ ∧ t.rows = [⟨0⟩, ⟨1⟩, ⟨2⟩] ∧ t'.rows = [⟨1⟩, ⟨0⟩, ⟨2⟩] ∧
      t.Undisturbed t' ⟨0⟩ ∧ t'.isSelected ⟨0⟩ = true := by
  intro a b c t t'
  have touched : t.touched? (.add b) = some ⟨1⟩ := by decide +kernel
  have others := (others_undisturbed { sort := some ⟨.count, .descending⟩ } .empty
    [.add a, .add b, .add c, .setRealTimeSort false, .add c, .setRealTimeSort true, .select ⟨0⟩]
    (.add b) rfl).1 ⟨0⟩
  refine ⟨touched, by decide +kernel, by decide +kernel, others ?_, by decide +kernel⟩
  exact touched ▸ by decide

end Table

end PeerSearch
