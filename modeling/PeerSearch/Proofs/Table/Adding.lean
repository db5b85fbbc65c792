import PeerSearch.Proofs.Table.Counts

/-!
# PeerSearch.Proofs.Table.Adding -- what becomes of results that are added one after the other

A result that there is a reason to refuse goes to the end of the refused ones and changes nothing
else; any other counts as one source more. So no result that is added is lost.
-/

namespace PeerSearch

/-- The result as a refused one, if there is a reason to refuse it. -/
def SearchResult.refused? (r : SearchResult) : Option Rejected :=
  r.refusal?.map fun refusal => ⟨r, refusal⟩

namespace Table

variable {t : Table}

/-! ## One result -/

theorem add_rejected (ht : t.Placed) (r : SearchResult) :
    (t.add r).change.table.rejected = t.rejected ++ r.refused?.toList := by
  unfold SearchResult.refused?
  cases hr : r.refusal? with
  | some refusal =>
      rw [add_of_refused hr]
      rfl
  | none =>
      refine Eq.trans ?_ (List.append_nil _).symm
      cases hh : t.index.home? (.ofResult r) with
      | some g =>
          rw [add_of_home ht hr hh]
          exact (settle_keeps _ _).2.2
      | none =>
          rw [add_of_homeless ht hr hh]
          exact (placeNew_keeps _ _).2.2

end Table

/-- A result that is placed is one more. -/
theorem GroupIndex.Coherent.resultCount_place {ix : GroupIndex} (h : ix.Coherent)
    (r : SearchResult) : (ix.place r).1.resultCount = ix.resultCount + 1 := by
  have unused : ix.membership.find? ⟨ix.nextResult⟩ = none := by
    refine Option.eq_none_iff_forall_not_mem.mpr fun gid hgid => ?_
    obtain ⟨g, hg, hmem⟩ := (h.membership ⟨ix.nextResult⟩ gid).mp hgid
    exact h.unused_result hg hmem
  rw [resultCount, membership_place]
  exact SortedMap.size_insert unused _

namespace Table

variable {t : Table}

/-- The index of a table decides alone what becomes of a result in it. -/
theorem add_index (ht : t.Placed) {r : SearchResult} (hr : r.refusal? = none) :
    (t.add r).change.table.index = (t.index.place r).1 := by
  cases hh : t.index.home? (.ofResult r) with
  | some g =>
      rw [add_of_home ht hr hh]
      exact (settle_keeps _ _).1
  | none =>
      rw [add_of_homeless ht hr hh]
      exact (placeNew_keeps _ _).1

/-- What is answered to an added result is up to the index. -/
theorem add_answer (t : Table) (r : SearchResult) :
    (t.add r).answer = (t.index.insert r).toOption.map Prod.snd := by
  cases hr : r.refusal? with
  | some refusal =>
      rw [add_of_refused hr, GroupIndex.insert, hr]
      rfl
  | none =>
      unfold add
      rw [hr]
      dsimp only
      cases t.index.insert r with
      | error refusal => rfl
      | ok placed => rfl

/-- A result counts as a source or is refused. -/
theorem Balanced.add_total (h : t.Balanced) (r : SearchResult) :
    (t.add r).change.table.totalSources + r.refused?.toList.length = t.totalSources + 1 := by
  unfold SearchResult.refused?
  cases hr : r.refusal? with
  | some refusal =>
      rw [add_of_refused hr]
      rfl
  | none =>
      have after : (t.add r).change.table.Balanced := h.perform (.add r)
      rw [after.totalSources_eq, h.totalSources_eq, add_index h.toPlaced hr,
        h.coherent.resultCount_place]
      rfl

/-! ## Many results -/

/-- Refused results are kept in the order in which they came, and all others are sources. -/
theorem Balanced.after_adds (h : t.Balanced) (results : List SearchResult) :
    let t' := t.after (results.map .add)
    t'.rejected = t.rejected ++ results.filterMap SearchResult.refused? ∧
      t'.totalSources + (results.filterMap SearchResult.refused?).length =
        t.totalSources + results.length := by
  induction results generalizing t with
  | nil => exact ⟨(List.append_nil _).symm, rfl⟩
  | cons r rest ih =>
      have one := h.add_total r
      have here := add_rejected h.toPlaced r
      obtain ⟨later, total⟩ := ih (h.perform (.add r))
      have split : (r :: rest).filterMap SearchResult.refused? =
          r.refused?.toList ++ rest.filterMap SearchResult.refused? := by
        rw [List.filterMap_cons]
        cases r.refused? <;> rfl
      rw [split, List.length_append, List.length_cons]
      constructor
      · refine later.trans ?_
        rw [← List.append_assoc]
        exact congrArg (· ++ _) here
      · show ((t.add r).change.table.after (rest.map .add)).totalSources + _ = _
        have total' : ((t.add r).change.table.after (rest.map .add)).totalSources +
            (rest.filterMap SearchResult.refused?).length =
              (t.add r).change.table.totalSources + rest.length := total
        omega

end Table

end PeerSearch
