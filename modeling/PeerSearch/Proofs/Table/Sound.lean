import PeerSearch.Proofs.GroupIndex.Register
import PeerSearch.Proofs.Table.Adding
import PeerSearch.Proofs.Table.Facets
import PeerSearch.Proofs.Table.Selection

/-!
# PeerSearch.Proofs.Table.Sound -- the invariants of a table together

A table uses its index as anyone else may: whatever is done to the table, the index is left as it
was or as by one of its own commands, and which one it is depends on the rows only where a group is
removed by its row. So what holds of every index holds of that of a table. With that, `Sound` puts
together all that is known of a table in every state.
-/

namespace PeerSearch

namespace Table

variable {t : Table} {registry : Registry}

/-! ## What becomes of the index and of the refused results -/

theorem removeResult_leaves (placed : t.Placed) (id : ResultId) :
    (t.removeResult id).change.table.index = (t.index.remove id).1 ∧
      (t.removeResult id).change.table.rejected = t.rejected := by
  cases hid : t.index.groupOf? id with
  | none =>
      rw [removeResult_of_unknown hid, GroupIndex.remove_of_unknown hid]
      exact ⟨rfl, rfl⟩
  | some gid =>
      obtain ⟨g, r, rfl, hg, member, hr⟩ := placed.coherent.known_result hid
      cases hd : g.detach? id with
      | none =>
          rw [removeResult_of_last hid hg hr hd (Group.sourceCount_of_last member hd)]
          obtain ⟨index, -, rejected⟩ := dropFromView_keeps _ _ _ _
          exact ⟨index, rejected⟩
      | some g' =>
          have one := Group.sourceCount_of_detach member hd
          rw [removeResult_of_shared placed hid hg hr hd one]
          obtain ⟨index, -, rejected⟩ := settle_keeps _ _
          exact ⟨index, rejected⟩

theorem removeGroup_leaves (placed : t.Placed) (id : GroupId) :
    (t.removeGroup id).change.table.index = (t.index.removeGroup id).1 ∧
      (t.removeGroup id).change.table.rejected = t.rejected := by
  cases hg : t.index.group? id with
  | none =>
      rw [removeGroup_of_unknown placed hg, GroupIndex.removeGroup_of_unknown hg]
      exact ⟨rfl, rfl⟩
  | some g =>
      rw [removeGroup_of_known placed hg]
      obtain ⟨index, -, rejected⟩ := dropFromView_keeps _ _ _ _
      exact ⟨index, rejected⟩

theorem markJunk_leaves (t : Table) (id : GroupId) (junk : Bool) :
    (t.markJunk id junk).change.table.index = t.index.perform (.mark id junk) ∧
      (t.markJunk id junk).change.table.rejected = t.rejected := by
  rw [GroupIndex.perform]
  cases hg : t.index.group? id with
  | none =>
      rw [markJunk_of_unknown hg]
      exact ⟨rfl, rfl⟩
  | some g =>
      rw [markJunk_of_known hg]
      obtain ⟨index, -, rejected⟩ := settle_keeps _ _
      exact ⟨index, rejected⟩

theorem removeResult_index (placed : t.Placed) (id : ResultId) :
    (t.removeResult id).change.table.index = (t.index.remove id).1 :=
  (removeResult_leaves placed id).1

theorem removeGroup_index (placed : t.Placed) (id : GroupId) :
    (t.removeGroup id).change.table.index = (t.index.removeGroup id).1 :=
  (removeGroup_leaves placed id).1

theorem add_index_perform (placed : t.Placed) (r : SearchResult) :
    (t.add r).change.table.index = t.index.perform (.insert r) := by
  rw [GroupIndex.perform]
  cases hr : r.refusal? with
  | none =>
      rw [GroupIndex.insert_of_valid (GroupIndex.refusal?_eq_none_iff.mp hr)]
      exact add_index placed hr
  | some refusal =>
      rw [add_of_refused hr, GroupIndex.insert, hr]
      rfl

/-- What a command does to the index, if it does anything to it. -/
def indexCommand? (t : Table) : TableCommand → Option IndexCommand
  | .add r => some (.insert r)
  | .removeResult id => some (.remove id)
  | .removeGroup id => some (.removeGroup id)
  | .removeRow row => (t.rows[row]?).map .removeGroup
  | .markJunk id junk => some (.mark id junk)
  | .setGrouping grouping => some (.setGrouping grouping)
  | .clear => some .clear
  | _ => none

/-- Whatever is done to a table, its index is left as it was or as by a command of its own. -/
theorem perform_index (placed : t.Placed) (c : TableCommand) :
    (t.perform c).table.index = (t.indexCommand? c).elim t.index t.index.perform := by
  cases c with
  | add r => exact add_index_perform placed r
  | removeResult id => exact removeResult_index placed id
  | removeGroup id => exact removeGroup_index placed id
  | removeRow row =>
      simp only [Table.perform, removeRow, indexCommand?]
      cases t.rows[row]? with
      | none => rfl
      | some id => exact removeGroup_index placed id
  | markJunk id junk => exact (t.markJunk_leaves id junk).1
  | setJunkPolicy policy =>
      simp only [Table.perform, setJunkPolicy]
      split <;> rfl
  | setSpamThreshold threshold =>
      simp only [Table.perform, setSpamThreshold]
      split <;> rfl
  | select id =>
      simp only [Table.perform, select]
      split <;> rfl
  | _ => rfl

/-- The refused results that nobody has asked for after a command. -/
def rejectedAfter (rejected : List Rejected) : TableCommand → List Rejected
  | .add r => rejected ++ r.refused?.toList
  | .takeRejected => []
  | _ => rejected

theorem perform_rejected (placed : t.Placed) (c : TableCommand) :
    (t.perform c).table.rejected = rejectedAfter t.rejected c := by
  cases c with
  | add r => exact add_rejected placed r
  | removeResult id => exact (removeResult_leaves placed id).2
  | removeGroup id => exact (removeGroup_leaves placed id).2
  | removeRow row =>
      simp only [Table.perform, removeRow]
      split
      · next id _ => exact (removeGroup_leaves placed id).2
      · rfl
  | markJunk id junk => exact (t.markJunk_leaves id junk).2
  | setJunkPolicy policy =>
      simp only [Table.perform, setJunkPolicy]
      split <;> rfl
  | setSpamThreshold threshold =>
      simp only [Table.perform, setSpamThreshold]
      split <;> rfl
  | select id =>
      simp only [Table.perform, select]
      split <;> rfl
  | _ => rfl

/-! ## The invariants together -/

/-- What holds of a table in every state. -/
structure Sound (t : Table) (registry : Registry) : Prop
    extends t.Selecting, t.Faceted registry where
  filed : ∃ roster, t.index.Filed roster

theorem Sound.perform (h : t.Sound registry) (c : TableCommand) :
    (t.perform c).table.Sound registry := by
  refine ⟨h.toSelecting.perform c, h.toFaceted.perform h.toPlaced c, ?_⟩
  obtain ⟨roster, filed⟩ := h.filed
  rw [perform_index h.toPlaced c]
  cases t.indexCommand? c with
  | none => exact ⟨roster, filed⟩
  | some command => exact ⟨_, filed.perform command⟩

theorem after_sound (options : Options) (registry : Registry) (commands : List TableCommand) :
    ((new options registry).after commands).Sound registry :=
  after_keeps (P := fun t => t.Sound registry)
    ⟨new_selecting options registry, new_faceted options registry, [], GroupIndex.empty_filed _⟩
    fun _ h c _ => h.perform c

end Table

end PeerSearch
