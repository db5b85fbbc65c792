import PeerSearch.Proofs.GroupIndex
import PeerSearch.Proofs.Insertion
import PeerSearch.Table.Command

/-!
# PeerSearch.Proofs.Table.Change -- what an operation on one group can do

Adding a result, taking one or a group out and recording a verdict touch one group each. After the
index has changed, the table does one of a few things: it places a group that is new, decides anew
over a group that has changed, drops a group that is gone, or nothing. `LocalChange` lists them with
all that is known about the index; what an invariant keeps is proved once for each.
-/

namespace PeerSearch

variable {t : Table}

namespace Table

/-! ## Where groups stand -/

/-- The rows and the hidden groups together are the groups of the index, each once. -/
structure Placed (t : Table) : Prop where
  coherent : t.index.Coherent
  placed : (t.rows ++ t.hidden).Perm t.index.ids

theorem Placed.nodup (h : t.Placed) : (t.rows ++ t.hidden).Nodup :=
  h.placed.nodup_iff.mpr h.coherent.ids_nodup

theorem Placed.rows_nodup (h : t.Placed) : t.rows.Nodup :=
  (List.nodup_append.mp h.nodup).1

theorem Placed.hidden_nodup (h : t.Placed) : t.hidden.Nodup :=
  (List.nodup_append.mp h.nodup).2.1

theorem Placed.disjoint (h : t.Placed) : t.rows.Disjoint t.hidden :=
  List.disjoint_of_nodup_append h.nodup

theorem Placed.mem_ids_iff (h : t.Placed) {id : GroupId} :
    id ∈ t.index.ids ↔ id ∈ t.rows ∨ id ∈ t.hidden := by
  rw [← h.placed.mem_iff, List.mem_append]

theorem Placed.live_of_row (h : t.Placed) {id : GroupId} (hid : id ∈ t.rows) :
    ∃ g, t.group? id = some g :=
  Option.isSome_iff_exists.mp
    ((t.index.group?_isSome_iff id).mpr (h.mem_ids_iff.mpr (.inl hid)))

theorem Placed.hidden_of_live (h : t.Placed) {id : GroupId} {g : Group}
    (hg : t.index.group? id = some g) (hid : id ∉ t.rows) : id ∈ t.hidden :=
  (h.mem_ids_iff.mp (GroupIndex.mem_ids_of_group? hg)).resolve_left hid

/-- A name that no group has stands nowhere. -/
theorem Placed.nowhere (h : t.Placed) {id : GroupId} (unused : t.index.group? id = none) :
    id ∉ t.rows ∧ id ∉ t.hidden := by
  rw [← not_or, ← h.mem_ids_iff]
  exact (t.index.group?_eq_none_iff id).mp unused

theorem Placed.not_row (h : t.Placed) {id : GroupId} (unused : t.index.group? id = none) :
    id ∉ t.rows :=
  (h.nowhere unused).1

/-- A slot says truly where a group stands. -/
theorem slot?_cases (t : Table) (id : GroupId) :
    (∃ row, t.slot? id = some (.visible row) ∧ t.rows[row]? = some id) ∨
      (t.slot? id = some .hidden ∧ id ∉ t.rows ∧ id ∈ t.hidden) ∨
      (t.slot? id = none ∧ id ∉ t.rows ∧ id ∉ t.hidden) := by
  unfold slot? rowOf? isHidden
  cases hrow : t.rows.findIdx? (· == id) with
  | some row =>
      obtain ⟨hlt, hid, -⟩ := List.findIdx?_eq_some_iff_getElem.mp hrow
      refine .inl ⟨row, rfl, ?_⟩
      rw [List.getElem?_eq_getElem hlt]
      exact congrArg some (by simpa using hid)
  | none =>
      have hnot : id ∉ t.rows := by
        intro hmem
        have := List.findIdx?_eq_none_iff.mp hrow id hmem
        simp at this
      by_cases hmem : id ∈ t.hidden <;> simp [hmem, hnot]

/-- The slot of a group that is placed. -/
theorem Placed.slot?_of_live (h : t.Placed) {id : GroupId} {g : Group}
    (hg : t.index.group? id = some g) :
    (∃ row, t.slot? id = some (.visible row) ∧ t.rows[row]? = some id) ∨
      (t.slot? id = some .hidden ∧ id ∉ t.rows ∧ id ∈ t.hidden) := by
  rcases t.slot?_cases id with hrow | hhidden | ⟨-, hr, hh⟩
  · exact .inl hrow
  · exact .inr hhidden
  · exact absurd (h.hidden_of_live hg hr) hh

/-! ## Deciding over a group -/

/-- Relocating a row takes it out and puts it in again, if only where it was. -/
theorem relocate_table {g : Group} {row : Nat} (atRow : t.rows[row]? = some g.id) :
    (t.relocate g row).table =
      { t with rows := (t.rows.eraseIdx row).insertIdx (t.destination g row) g.id } := by
  simp only [relocate]
  split
  · next hsame => rw [hsame, insertIdx_eraseIdx_self atRow]
  · rfl

/-- All that deciding anew over a group can do. -/
inductive Settled (t : Table) (g : Group) : Change → Prop
  /-- The row is looked for anew. -/
  | relocated (row : Nat) (facets : FacetModel) (atRow : t.rows[row]? = some g.id)
      (shown : t.shows g = true) (moves : (t.realTimeSort || t.sinks g) = true) :
      Settled t g ({ t with facets }.relocate g row)
  /-- The row stays where it is. -/
  | updated (row : Nat) (facets : FacetModel) (atRow : t.rows[row]? = some g.id)
      (shown : t.shows g = true) (stays : (t.realTimeSort || t.sinks g) = false) :
      Settled t g ⟨{ t with facets }, [.updated row g.id]⟩
  | hid (row : Nat) (facets : FacetModel) (atRow : t.rows[row]? = some g.id)
      (keptOut : t.shows g = false) : Settled t g ({ t with facets }.hideRow g row)
  | unhid (facets : FacetModel) (noRow : g.id ∉ t.rows) (wasHidden : g.id ∈ t.hidden)
      (shown : t.shows g = true) : Settled t g ({ t with facets }.unhide g)
  | staysHidden (facets : FacetModel) (noRow : g.id ∉ t.rows)
      (keptOut : g.id ∈ t.hidden → t.shows g = false) :
      Settled t g { t with facets }.quietly

theorem settled (t : Table) (g : Group) : t.Settled g (t.settle g) := by
  -- Where the group stands and whether it is shown decide between them what becomes of it.
  rcases t.slot?_cases g.id with ⟨row, hslot, hrow⟩ | ⟨hslot, hrow, hhid⟩ | ⟨hslot, hrow, hhid⟩
  · cases hshows : t.shows g with
    | true =>
        cases hmoves : t.realTimeSort || t.sinks g with
        | true =>
            simp only [settle, hslot, hshows, hmoves, if_true]
            exact .relocated row _ hrow hshows hmoves
        | false =>
            simp only [settle, hslot, hshows, hmoves]
            exact .updated row _ hrow hshows hmoves
    | false =>
        simp only [settle, hslot, hshows]
        exact .hid row _ hrow hshows
  · cases hshows : t.shows g with
    | true =>
        simp only [settle, hslot, hshows]
        exact .unhid _ hrow hhid hshows
    | false =>
        simp only [settle, hslot, hshows]
        exact .staysHidden _ hrow fun _ => hshows
  · -- A group that the table does not have is treated like one that stays hidden.
    simp only [settle, hslot]
    exact .staysHidden _ hrow fun hmem => absurd hmem hhid

/-- A new group is shown or hidden, as the table decides over it. -/
theorem placeNew_cases (t : Table) (g : Group) :
    (t.shows g = true ∧ ∃ facets, t.placeNew g = { t with facets }.showGroup g) ∨
      (t.shows g = false ∧ ∃ facets, t.placeNew g =
        { t with
          facets
          hidden := t.hidden ++ [g.id]
          hiddenSources := t.hiddenSources + g.sourceCount }.quietly) := by
  unfold placeNew shows
  cases hjunk : t.hidesAsJunk g with
  | true => exact .inr ⟨rfl, t.facets, rfl⟩
  | false =>
      cases hfilter : t.filter g with
      | true => exact .inl ⟨rfl, _, rfl⟩
      | false => exact .inr ⟨rfl, _, rfl⟩

/-! ## Operations on one group -/

/-- The table over a changed index in which one group is another size: the sources of the group
count where it stands. -/
def recounted (t : Table) (ix : GroupIndex) (before after : Group) : Table :=
  { t with
    index := ix
    filteredSources :=
      if after.id ∈ t.rows then t.filteredSources + after.sourceCount - before.sourceCount
      else t.filteredSources
    hiddenSources :=
      if after.id ∈ t.rows then t.hiddenSources
      else t.hiddenSources + after.sourceCount - before.sourceCount }

/-- All that an operation on one group can do. -/
inductive LocalChange (t : Table) : Change → Prop
  /-- At most a refused result is put aside or handed out. -/
  | kept (rejected : List Rejected) : LocalChange t { t with rejected }.quietly
  /-- A group has been started. -/
  | started (ix : GroupIndex) (g : Group) (coherent : ix.Coherent)
      (unused : t.index.group? g.id = none) (alone : g.sourceCount = 1)
      (groups : ix.groups = t.index.groups ++ [g]) :
      LocalChange t ({ t with index := ix }.placeNew g)
  /-- A group has changed, and `before` is what it was. -/
  | changed (ix : GroupIndex) (before g : Group) (coherent : ix.Coherent)
      (live : t.index.group? g.id = some before)
      (groups : ix.groups = (t.index.putGroup g).groups) :
      LocalChange t ((t.recounted ix before g).settle g)
  /-- A group is gone. -/
  | dropped (ix : GroupIndex) (g : Group) (coherent : ix.Coherent)
      (live : t.index.group? g.id = some g)
      (groups : ix.groups = (t.index.dropGroup g.id).groups) :
      LocalChange t ({ t with index := ix }.dropFromView g.id (t.slot? g.id) g.sourceCount)

/-! ### Counts over a changed index -/

/-- Changing a group leaves every group where it stands. -/
theorem Placed.recounted (h : t.Placed) {ix : GroupIndex} {before g : Group}
    (coherent : ix.Coherent) (groups : ix.groups = (t.index.putGroup g).groups) :
    (t.recounted ix before g).Placed := by
  have ids_eq : ix.ids = t.index.ids := by
    rw [GroupIndex.ids, groups, ← GroupIndex.ids, GroupIndex.ids_putGroup]
  exact ⟨coherent, ids_eq ▸ h.placed⟩

theorem countSource_eq (h : t.Placed) {ix : GroupIndex} {before g : Group}
    (live : t.index.group? g.id = some before) (one : g.sourceCount = before.sourceCount + 1) :
    { t with index := ix }.countSource g.id = t.recounted ix before g := by
  -- The slot is read off the rows and the hidden groups, which the index has no say in.
  have hslot : { t with index := ix }.slot? g.id = t.slot? g.id := rfl
  have added (n : Nat) : n + g.sourceCount - before.sourceCount = n + 1 := by omega
  rcases h.slot?_of_live live with ⟨row, hs, hrow⟩ | ⟨hs, hrow, -⟩
  · have hmem : g.id ∈ t.rows := List.mem_of_getElem? hrow
    simp only [countSource, recounted, hslot, hs, if_pos hmem, added]
  · simp only [countSource, recounted, hslot, hs, if_neg hrow, added]

theorem discountSource_eq (h : t.Placed) {ix : GroupIndex} {before g : Group}
    (live : t.index.group? g.id = some before) (one : before.sourceCount = g.sourceCount + 1) :
    { t with index := ix }.discountSource (t.slot? g.id) = t.recounted ix before g := by
  have taken (n : Nat) : n + g.sourceCount - before.sourceCount = n - 1 := by omega
  rcases h.slot?_of_live live with ⟨row, hs, hrow⟩ | ⟨hs, hrow, -⟩
  · have hmem : g.id ∈ t.rows := List.mem_of_getElem? hrow
    simp only [discountSource, recounted, hs, if_pos hmem, taken]
  · simp only [discountSource, recounted, hs, if_neg hrow, taken]

theorem recounted_same (ix : GroupIndex) {before g : Group}
    (same : g.sourceCount = before.sourceCount) :
    t.recounted ix before g = { t with index := ix } := by
  unfold recounted
  split <;> (congr 1; omega)

/-! ### The operations, case by case -/

theorem add_of_refused {r : SearchResult} {refusal : SearchResult.Refusal}
    (h : r.refusal? = some refusal) :
    t.add r = ⟨(t.reject ⟨r, refusal⟩).quietly, none⟩ := by
  simp only [add, h]

theorem counted_of_home (ht : t.Placed) {r : SearchResult} {g : Group}
    (hh : t.index.home? (.ofResult r) = some g) :
    { t with index := (t.index.place r).1 }.countSource g.id =
      t.recounted (t.index.place r).1 g (g.push (t.index.nextMember r)) :=
  countSource_eq (g := g.push (t.index.nextMember r)) ht (GroupIndex.home?_spec hh)
    (Group.sourceCount_push _ _)

/-- A result that has a home: its group is counted and decided over anew. -/
theorem add_of_home (ht : t.Placed) {r : SearchResult} {g : Group} (hr : r.refusal? = none)
    (hh : t.index.home? (.ofResult r) = some g) :
    t.add r =
      ⟨(t.recounted (t.index.place r).1 g (g.push (t.index.nextMember r))).settle
          (g.push (t.index.nextMember r)),
        some ⟨⟨t.index.nextResult⟩, g.id, false⟩⟩ := by
  have hg := GroupIndex.home?_spec hh
  have hcount := counted_of_home ht hh
  -- The table finds the group over the changed index, where it has the new member.
  set g' := g.push (t.index.nextMember r) with hg'
  have hplace : t.index.place r = ((t.index.place r).1, ⟨⟨t.index.nextResult⟩, g.id, false⟩) := by
    rw [GroupIndex.place_of_home hh]
  have hfound : (t.recounted (t.index.place r).1 g g').group? g.id = some g' := by
    have groups : (t.index.place r).1.groups = (t.index.putGroup g').groups := by
      rw [GroupIndex.place_of_home hh, hg']
    exact (GroupIndex.group?_of_put (g := g') hg groups g.id).trans (if_pos rfl)
  simp only [add, GroupIndex.insert, hr]
  rw [hplace]
  simp only [Bool.false_eq_true, if_false, hcount, settleId, hfound]

/-- A result without a home: the group that it starts is placed. -/
theorem add_of_homeless (ht : t.Placed) {r : SearchResult} (hr : r.refusal? = none)
    (hh : t.index.home? (.ofResult r) = none) :
    t.add r =
      ⟨{ t with index := (t.index.place r).1 }.placeNew
          (.single ⟨t.index.nextGroup⟩ (t.index.nextMember r)),
        some ⟨⟨t.index.nextResult⟩, ⟨t.index.nextGroup⟩, true⟩⟩ := by
  have hplace : t.index.place r =
      ((t.index.place r).1, ⟨⟨t.index.nextResult⟩, ⟨t.index.nextGroup⟩, true⟩) := by
    rw [GroupIndex.place_of_homeless hh]
  have hfound : { t with index := (t.index.place r).1 }.group? ⟨t.index.nextGroup⟩ =
      some (.single ⟨t.index.nextGroup⟩ (t.index.nextMember r)) := by
    have groups : (t.index.place r).1.groups =
        t.index.groups ++ [.single ⟨t.index.nextGroup⟩ (t.index.nextMember r)] := by
      rw [GroupIndex.place_of_homeless hh]
    rw [group?, GroupIndex.group?_append groups, ht.coherent.unused_group, Option.none_or]
    exact if_pos rfl
  simp only [add, GroupIndex.insert, hr]
  rw [hplace]
  simp only [if_true, hfound]

theorem removeResult_of_unknown {id : ResultId} (h : t.index.groupOf? id = none) :
    t.removeResult id = t.ignored := by
  simp only [removeResult, h]

/-- The last result of a group: the group is gone. -/
theorem removeResult_of_last {id : ResultId} {g : Group} {r : SearchResult}
    (hid : t.index.groupOf? id = some g.id) (hg : t.index.group? g.id = some g)
    (hr : g.result? id = some r) (hd : g.detach? id = none) (alone : g.sourceCount = 1) :
    t.removeResult id =
      ⟨{ t with index := (t.index.remove id).1 }.dropFromView g.id (t.slot? g.id) g.sourceCount,
        true⟩ := by
  have hrem : t.index.remove id = ((t.index.remove id).1, some ⟨r, g.id, true⟩) := by
    rw [GroupIndex.remove_of_last hid hg hr hd]
  simp only [removeResult, hid]
  rw [hrem]
  simp only [if_true, alone]

theorem discounted_of_shared (ht : t.Placed) {id : ResultId} {g g' : Group}
    (hg : t.index.group? g.id = some g) (hd : g.detach? id = some g')
    (one : g.sourceCount = g'.sourceCount + 1) (ix : GroupIndex) :
    { t with index := ix }.discountSource (t.slot? g.id) = t.recounted ix g g' := by
  have hname : g'.id = g.id := (Group.detach?_spec hd).1
  rw [← hname] at hg ⊢
  exact discountSource_eq ht hg one

/-- A result among others: its group is counted and decided over anew. -/
theorem removeResult_of_shared (ht : t.Placed) {id : ResultId} {g g' : Group} {r : SearchResult}
    (hid : t.index.groupOf? id = some g.id) (hg : t.index.group? g.id = some g)
    (hr : g.result? id = some r) (hd : g.detach? id = some g')
    (one : g.sourceCount = g'.sourceCount + 1) :
    t.removeResult id = ⟨(t.recounted (t.index.remove id).1 g g').settle g', true⟩ := by
  obtain ⟨ix', hrem, groups, -⟩ := GroupIndex.remove_of_shared hid hg hr hd
  have hname : g'.id = g.id := (Group.detach?_spec hd).1
  have hcount := discounted_of_shared ht hg hd one ix'
  have hfound : (t.recounted ix' g g').group? g.id = some g' := by
    rw [← hname] at hg ⊢
    exact (GroupIndex.group?_of_put hg groups g'.id).trans (if_pos rfl)
  simp only [removeResult, hid, hrem, Bool.false_eq_true, if_false, hcount, settleId, hfound]

theorem removeGroup_of_unknown (ht : t.Placed) {id : GroupId} (h : t.index.group? id = none) :
    t.removeGroup id = t.ignored := by
  -- The table looks for the group in its rows and hidden groups before it asks the index.
  have nowhere := ht.nowhere h
  rcases t.slot?_cases id with ⟨row, -, hrow⟩ | ⟨-, -, hhid⟩ | ⟨hs, -, -⟩
  · exact absurd (List.mem_of_getElem? hrow) nowhere.1
  · exact absurd hhid nowhere.2
  · simp only [removeGroup, hs]

theorem removeGroup_of_known (ht : t.Placed) {id : GroupId} {g : Group}
    (h : t.index.group? id = some g) :
    t.removeGroup id =
      ⟨{ t with index := (t.index.removeGroup id).1 }.dropFromView id (t.slot? id) g.sourceCount,
        true⟩ := by
  have hrem : t.index.removeGroup id = ((t.index.removeGroup id).1, some g) := by
    rw [GroupIndex.removeGroup_of_known h]
  rcases ht.slot?_of_live h with ⟨row, hs, -⟩ | ⟨hs, -⟩
  all_goals
    simp only [removeGroup, hs]
    rw [hrem]

theorem markJunk_of_known {id : GroupId} {g : Group} (h : t.index.group? id = some g)
    (junk : Bool) :
    t.markJunk id junk =
      ⟨(t.recounted (t.index.putGroup (g.mark junk)) g (g.mark junk)).settle (g.mark junk),
        true⟩ := by
  have hg : t.group? id = some g := h
  rw [recounted_same _ (Group.sourceCount_mark g junk)]
  simp only [markJunk, hg]

theorem markJunk_of_unknown {id : GroupId} (h : t.index.group? id = none) (junk : Bool) :
    t.markJunk id junk = t.ignored := by
  have hg : t.group? id = none := h
  simp only [markJunk, hg]

/-! ### Every operation on one group is a local change -/

theorem add_local (ht : t.Placed) (r : SearchResult) : t.LocalChange (t.add r).change := by
  cases hr : r.refusal? with
  | some refusal =>
      rw [add_of_refused hr]
      exact .kept _
  | none =>
      have coherent := ht.coherent.place r
      cases hh : t.index.home? (.ofResult r) with
      | some g =>
          rw [add_of_home ht hr hh]
          refine .changed _ _ _ coherent (GroupIndex.home?_spec hh) ?_
          rw [GroupIndex.place_of_home hh]
      | none =>
          rw [add_of_homeless ht hr hh]
          refine .started _ _ coherent ht.coherent.unused_group rfl ?_
          rw [GroupIndex.place_of_homeless hh]

theorem ignored_local (t : Table) : t.LocalChange t.ignored.change :=
  .kept t.rejected

theorem removeResult_local (ht : t.Placed) (id : ResultId) :
    t.LocalChange (t.removeResult id).change := by
  cases hid : t.index.groupOf? id with
  | none =>
      rw [removeResult_of_unknown hid]
      exact t.ignored_local
  | some gid =>
      obtain ⟨g, r, rfl, hg, hmem, hr⟩ := ht.coherent.known_result hid
      have coherent := ht.coherent.remove id
      cases hd : g.detach? id with
      | none =>
          have alone := Group.sourceCount_of_last hmem hd
          rw [removeResult_of_last hid hg hr hd alone]
          refine .dropped _ _ coherent hg ?_
          simp [GroupIndex.remove_of_last hid hg hr hd, GroupIndex.dropGroup]
      | some g' =>
          -- What is left keeps the name of the group, even where another member is canonical now.
          have one := Group.sourceCount_of_detach hmem hd
          obtain ⟨ix', hrem, groups, -⟩ := GroupIndex.remove_of_shared hid hg hr hd
          rw [removeResult_of_shared ht hid hg hr hd one]
          refine .changed _ _ _ coherent ((Group.detach?_spec hd).1 ▸ hg) ?_
          rw [hrem]
          exact groups

theorem removeGroup_local (ht : t.Placed) (id : GroupId) :
    t.LocalChange (t.removeGroup id).change := by
  cases hg : t.index.group? id with
  | none =>
      rw [removeGroup_of_unknown ht hg]
      exact t.ignored_local
  | some g =>
      obtain rfl := GroupIndex.id_of_group? hg
      rw [removeGroup_of_known ht hg]
      refine .dropped _ _ (ht.coherent.removeGroup g.id) hg ?_
      simp [GroupIndex.removeGroup_of_known hg, GroupIndex.dropGroup]

theorem removeRow_local (ht : t.Placed) (row : Nat) : t.LocalChange (t.removeRow row).change := by
  unfold removeRow
  split
  · exact removeGroup_local ht _
  · exact t.ignored_local

theorem markJunk_local (ht : t.Placed) (id : GroupId) (junk : Bool) :
    t.LocalChange (t.markJunk id junk).change := by
  cases hg : t.index.group? id with
  | none =>
      rw [markJunk_of_unknown hg]
      exact t.ignored_local
  | some g =>
      obtain rfl := GroupIndex.id_of_group? hg
      rw [markJunk_of_known hg]
      exact .changed _ _ _ (ht.coherent.mark hg junk) hg rfl

end Table

/-- Whether a command is about one result or one group. -/
def TableCommand.isLocal : TableCommand → Bool
  | .add _ | .removeResult _ | .removeGroup _ | .removeRow _ | .markJunk _ _ => true
  | _ => false

theorem Table.perform_local (ht : t.Placed) {c : TableCommand} (hc : c.isLocal = true) :
    t.LocalChange (t.perform c) := by
  cases c with
  | add r => exact add_local ht r
  | removeResult id => exact removeResult_local ht id
  | removeGroup id => exact removeGroup_local ht id
  | removeRow row => exact removeRow_local ht row
  | markJunk id junk => exact markJunk_local ht id junk
  | _ => cases hc

/-! ### What an operation on one group leaves alone -/

namespace Table

/-- What decides over the rows of one table decides over those of the other. -/
structure SameSettings (t t' : Table) : Prop where
  filter : t'.filter = t.filter
  junkPolicy : t'.junkPolicy = t.junkPolicy
  junk : t'.junk = t.junk
  sort : t'.sort = t.sort
  realTimeSort : t'.realTimeSort = t.realTimeSort

theorem SameSettings.order {t' : Table} (h : t.SameSettings t') : t'.order = t.order := by
  simp only [Table.order, h.sort, h.junkPolicy, h.junk]

theorem SameSettings.shows {t' : Table} (h : t.SameSettings t') : t'.shows = t.shows := by
  funext g
  simp only [Table.shows, hidesAsJunk, h.filter, h.junkPolicy, h.junk]

theorem relocate_keeps (t : Table) (g : Group) (row : Nat) :
    (t.relocate g row).table.index = t.index ∧ (t.relocate g row).table.facets = t.facets ∧
      (t.relocate g row).table.rejected = t.rejected := by
  unfold relocate
  dsimp only
  split <;> exact ⟨rfl, rfl, rfl⟩

/-- Wherever a group stands, deciding over it reads its facets anew. -/
theorem settle_keeps (t : Table) (g : Group) :
    (t.settle g).table.index = t.index ∧ (t.settle g).table.facets = t.refreshFacets g ∧
      (t.settle g).table.rejected = t.rejected := by
  unfold settle
  dsimp only
  split
  · split
    · exact relocate_keeps _ g _
    · exact ⟨rfl, rfl, rfl⟩
  · exact ⟨rfl, rfl, rfl⟩
  · exact ⟨rfl, rfl, rfl⟩
  · exact ⟨rfl, rfl, rfl⟩

theorem placeNew_keeps (t : Table) (g : Group) :
    (t.placeNew g).table.index = t.index ∧
      (t.placeNew g).table.facets = (if t.hidesAsJunk g then t.facets else t.facets.add g) ∧
      (t.placeNew g).table.rejected = t.rejected := by
  unfold placeNew
  split
  · exact ⟨rfl, rfl, rfl⟩
  · dsimp only
    split <;> exact ⟨rfl, rfl, rfl⟩

theorem dropFromView_keeps (t : Table) (id : GroupId) (slot : Option Slot) (count : Nat) :
    (t.dropFromView id slot count).table.index = t.index ∧
      (t.dropFromView id slot count).table.facets = t.facets.remove id ∧
      (t.dropFromView id slot count).table.rejected = t.rejected := by
  cases slot with
  | none => exact ⟨rfl, rfl, rfl⟩
  | some slot => cases slot <;> exact ⟨rfl, rfl, rfl⟩

theorem settle_settings (t : Table) (g : Group) : t.SameSettings (t.settle g).table := by
  have hs := t.settled g
  generalize t.settle g = change at hs ⊢
  cases hs with
  | relocated row facets atRow =>
      rw [relocate_table (t := { t with facets }) atRow]
      exact ⟨rfl, rfl, rfl, rfl, rfl⟩
  | updated | hid | unhid | staysHidden => exact ⟨rfl, rfl, rfl, rfl, rfl⟩

theorem placeNew_settings (t : Table) (g : Group) : t.SameSettings (t.placeNew g).table := by
  rcases t.placeNew_cases g with ⟨-, facets, heq⟩ | ⟨-, facets, heq⟩
  all_goals
    rw [heq]
    exact ⟨rfl, rfl, rfl, rfl, rfl⟩

theorem dropFromView_settings (t : Table) (id : GroupId) (slot : Option Slot) (count : Nat) :
    t.SameSettings (t.dropFromView id slot count).table := by
  cases slot with
  | none => exact ⟨rfl, rfl, rfl, rfl, rfl⟩
  | some slot => cases slot <;> exact ⟨rfl, rfl, rfl, rfl, rfl⟩

theorem LocalChange.settings {change : Change} (hc : t.LocalChange change) :
    t.SameSettings change.table := by
  cases hc with
  | kept => exact ⟨rfl, rfl, rfl, rfl, rfl⟩
  | started ix g =>
      have same := { t with index := ix }.placeNew_settings g
      exact ⟨same.filter, same.junkPolicy, same.junk, same.sort, same.realTimeSort⟩
  | changed ix before g =>
      have same := (t.recounted ix before g).settle_settings g
      exact ⟨same.filter, same.junkPolicy, same.junk, same.sort, same.realTimeSort⟩
  | dropped ix g =>
      have same := { t with index := ix }.dropFromView_settings g.id (t.slot? g.id) g.sourceCount
      exact ⟨same.filter, same.junkPolicy, same.junk, same.sort, same.realTimeSort⟩

end Table

/-! ## Operations on all groups -/

namespace Table

/-- All that the other commands can do. What groups there are changes for a clearing only. -/
inductive GlobalChange (t : Table) (c : TableCommand) : Change → Prop
  | rebuilt (filter : Group → Bool) (junkPolicy : JunkPolicy) (junk : JunkFilter) :
      GlobalChange t c { t with filter, junkPolicy, junk }.rebuild
  | resorted (sort : Option SortOrder) (rows : List GroupId) (same : rows.Perm t.rows) :
      GlobalChange t c { t with sort, rows }.resort
  | cleared : GlobalChange t c t.clear
  /-- A setting, the selection or the refused results. -/
  | adjusted (filter : Group → Bool) (realTimeSort grouping : Bool) (selection : SortedSet GroupId)
      (rejected : List Rejected)
      (told : filter = t.filter ∨ c = .driftFilter filter)
      (switched : realTimeSort = t.realTimeSort ∨ c = .setRealTimeSort realTimeSort) :
      GlobalChange t c
        { t with
          filter
          realTimeSort
          index := t.index.setGrouping grouping
          selection
          rejected }.quietly

theorem unchanged (t : Table) (c : TableCommand) : t.GlobalChange c t.quietly :=
  .adjusted t.filter t.realTimeSort t.index.grouping t.selection t.rejected (.inl rfl) (.inl rfl)

/-- The rows in the order of arrival are the same rows. -/
theorem Placed.arrival_perm (h : t.Placed) :
    ((t.index.groups.map Group.id).filter t.rows.contains).Perm t.rows := by
  refine (List.perm_ext_iff_of_nodup (h.coherent.ids_nodup.filter _) h.rows_nodup).mpr fun id => ?_
  rw [List.mem_filter, List.contains_iff_mem]
  exact ⟨fun hid => hid.2, fun hid => ⟨h.mem_ids_iff.mpr (.inl hid), hid⟩⟩

theorem perform_global (ht : t.Placed) {c : TableCommand} (hc : c.isLocal = false) :
    t.GlobalChange c (t.perform c) := by
  cases c with
  | setFilter filter => exact .rebuilt filter t.junkPolicy t.junk
  | filtersChanged => exact .rebuilt t.filter t.junkPolicy t.junk
  | driftFilter filter =>
      exact .adjusted filter t.realTimeSort t.index.grouping t.selection t.rejected
        (.inr rfl) (.inl rfl)
  | setJunkPolicy policy =>
      -- Nothing is rebuilt for a policy that is set already; the threshold is treated alike.
      simp only [perform, setJunkPolicy]
      split
      · exact t.unchanged _
      · exact .rebuilt t.filter policy t.junk
  | setSpamThreshold threshold =>
      simp only [perform, setSpamThreshold]
      split
      · exact t.unchanged _
      · exact .rebuilt t.filter t.junkPolicy (.ofThreshold threshold)
  | setSort key direction => exact .resorted (some ⟨key, direction⟩) t.rows (.refl _)
  | clearSort => exact .resorted none _ ht.arrival_perm
  | setRealTimeSort enabled =>
      exact .adjusted t.filter enabled t.index.grouping t.selection t.rejected
        (.inl rfl) (.inr rfl)
  | setGrouping grouping =>
      exact .adjusted t.filter t.realTimeSort grouping t.selection t.rejected (.inl rfl) (.inl rfl)
  | select id =>
      simp only [perform, select]
      split
      · exact .adjusted t.filter t.realTimeSort t.index.grouping _ t.rejected (.inl rfl) (.inl rfl)
      · exact t.unchanged _
  | deselect id | clearSelection =>
      exact .adjusted t.filter t.realTimeSort t.index.grouping _ t.rejected (.inl rfl) (.inl rfl)
  | takeRejected =>
      exact .adjusted t.filter t.realTimeSort t.index.grouping t.selection _ (.inl rfl) (.inl rfl)
  | clear => exact .cleared
  | _ => cases hc

/-- What every command of a run keeps, the run keeps. -/
theorem after_keeps {P : Table → Prop} {commands : List TableCommand} {t : Table} (start : P t)
    (step : ∀ t, P t → ∀ c ∈ commands, P (t.perform c).table) : P (t.after commands) := by
  -- By induction on the commands, for every table to start from.
  induction commands generalizing t with
  | nil => exact start
  | cons c rest ih =>
      refine ih (step t start c List.mem_cons_self) ?_
      exact fun t ht c hc => step t ht c (List.mem_cons_of_mem _ hc)

end Table

end PeerSearch
