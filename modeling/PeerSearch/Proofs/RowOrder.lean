import Mathlib
import PeerSearch.RowOrder

/-!
# PeerSearch.Proofs.RowOrder -- every two rows compare

Each sort key compares the values of a key of the groups, and the order of the rows stacks three
such comparisons. So rows compare one way or the other, and the comparison is transitive, whatever
is pinned to the top or sunk to the bottom.
-/

namespace PeerSearch

/-! ## Comparisons that stay transitive -/

/-- A comparison through a key is transitive when that of the keys is. -/
theorem transCmp_through {α β : Type} (cmp : β → β → Ordering) [Std.TransCmp cmp] (key : α → β) :
    Std.TransCmp fun a b => cmp (key a) (key b) where
  eq_swap {a b} := (Std.OrientedCmp.eq_swap : cmp (key a) (key b) = _)
  isLE_trans {_ b _} := (Std.TransCmp.isLE_trans : _ → (cmp (key b) _).isLE → _)

theorem transCmp_constant {α : Type} : Std.TransCmp fun _ _ : α => Ordering.eq where
  eq_swap := rfl
  isLE_trans := fun _ _ => rfl

/-! ## Sorting -/

/-- Items that tie stay in the order that they came in. -/
theorem mergeSort_stable {α : Type} {le : α → α → Bool} {l : List α} {R : α → α → Prop}
    (trans : ∀ a b c, le a b = true → le b c = true → le a c = true)
    (total : ∀ a b, (le a b || le b a) = true) (inOrder : l.Pairwise R) :
    (l.mergeSort le).Pairwise fun a b => le b a = true → R a b := by
  refine List.pairwise_iff_forall_sublist.mpr fun {a b} sub above => ?_
  have below : le a b = true :=
    List.pairwise_iff_forall_sublist.mp (List.pairwise_mergeSort trans total l) sub
  -- Those that tie with the upper one are in order already, so sorting leaves them as they are.
  let ties (c : α) : Bool := le a c && le c a
  have sorted : (l.filter ties).Pairwise fun c d => le c d = true := by
    refine List.pairwise_of_forall_mem_list fun c hc d hd => ?_
    obtain ⟨-, hc⟩ := Bool.and_eq_true_iff.mp (List.mem_filter.mp hc).2
    obtain ⟨hd, -⟩ := Bool.and_eq_true_iff.mp (List.mem_filter.mp hd).2
    exact trans c a d hc hd
  have kept : l.filter ties = (l.mergeSort le).filter ties := by
    have stays := (List.sublist_mergeSort trans total sorted List.filter_sublist).filter ties
    simp only [List.filter_filter, Bool.and_self] at stays
    exact stays.eq_of_length ((List.mergeSort_perm l le).filter ties).length_eq.symm
  have self : ties a = true := by simpa [ties] using total a a
  have other : ties b = true := Bool.and_eq_true_iff.mpr ⟨below, above⟩
  have pair : [a, b].Sublist (l.filter ties) := by
    rw [kept]
    simpa [self, other] using sub.filter ties
  exact List.pairwise_iff_forall_sublist.mp inOrder (pair.trans List.filter_sublist)

/-! ## Keys -/

/-- A sort key is a total preorder of the groups. -/
theorem SortKey.compareGroups_trans (k : SortKey) : Std.TransCmp k.compareGroups := by
  have byRank := transCmp_through compare fun g : Group => g.summary.quality.rank
  have byTier := transCmp_through comparePairs countRank
  unfold compareGroups
  cases k with
  | quality => exact byRank
  | count => exact inferInstanceAs (Std.TransCmp (compareLex _ _))
  | name => exact transCmp_through compare fun g : Group => Text.lower g.fileName
  | size => exact transCmp_through compare Group.size
  | speed => exact transCmp_through compare fun g : Group => g.summary.speed
  | date => exact transCmp_through compare fun g : Group => g.summary.createdAt
  | vendor => exact transCmp_through compare Group.vendor
  | spam => exact transCmp_through compare fun g : Group => g.spamScore.totalKey

theorem SortDirection.apply_trans (d : SortDirection) {α : Type} (cmp : α → α → Ordering)
    [Std.TransCmp cmp] : Std.TransCmp fun a b => d.apply (cmp a b) := by
  cases d with
  | ascending => exact inferInstanceAs (Std.TransCmp cmp)
  | descending =>
      have swapped : (fun a b => (cmp a b).swap) = fun a b => cmp b a := by
        funext a b
        rw [← Std.OrientedCmp.eq_swap]
      show Std.TransCmp fun a b => (cmp a b).swap
      rw [swapped]
      exact Std.TransCmp.opposite

namespace RowOrder

variable {o : RowOrder}

/-! ## The order of the rows -/

/-- Promoted rows, junk that sinks and the sort order together make a total preorder. -/
instance compareGroups_trans (o : RowOrder) : Std.TransCmp o.compareGroups := by
  have promoted : Std.TransCmp fun g h : Group =>
      compare h.isPromoted.toNat g.isPromoted.toNat :=
    have := transCmp_through compare fun g : Group => g.isPromoted.toNat
    Std.TransCmp.opposite
  have sunk : Std.TransCmp fun g h : Group =>
      match o.sink with
      | some junk => compare (junk.isJunk g).toNat (junk.isJunk h).toNat
      | none => Ordering.eq := by
    cases o.sink with
    | some junk => exact transCmp_through compare fun g => (junk.isJunk g).toNat
    | none => exact transCmp_constant
  have sorted : Std.TransCmp fun g h : Group =>
      match o.sort with
      | some order => order.direction.apply (order.key.compareGroups g h)
      | none => Ordering.eq := by
    cases o.sort with
    | some order =>
        have := order.key.compareGroups_trans
        exact order.direction.apply_trans order.key.compareGroups
    | none => exact transCmp_constant
  exact inferInstanceAs (Std.TransCmp (compareLex _ (compareLex _ _)))

theorem allowsAbove_iff {g h : Group} : o.allowsAbove g h = true ↔ o.compareGroups g h ≠ .gt := by
  simp [allowsAbove]

theorem allowsAbove_trans {g h k : Group} (above : o.allowsAbove g h = true)
    (below : o.allowsAbove h k = true) : o.allowsAbove g k = true := by
  simp only [allowsAbove_iff, ne_eq, ← Ordering.isLE_iff_ne_gt] at *
  exact Std.TransCmp.isLE_trans above below

/-- Of two groups, one may stand above the other. -/
theorem allowsAbove_of_not {g h : Group} (not : o.compareGroups g h ≠ .lt) :
    o.allowsAbove h g = true := by
  rw [allowsAbove_iff]
  intro hgt
  exact not (Std.OrientedCmp.gt_iff_lt.mp hgt)

theorem allowsAbove_total (g h : Group) :
    o.allowsAbove g h = true ∨ o.allowsAbove h g = true := by
  by_cases hlt : o.compareGroups g h = .lt
  · left
    rw [allowsAbove_iff, hlt]
    decide
  · exact .inr (allowsAbove_of_not hlt)

/-- What sorting asks of an order. -/
theorem allowsAbove_sorts (o : RowOrder) :
    (∀ g h k, o.allowsAbove g h = true → o.allowsAbove h k = true → o.allowsAbove g k = true) ∧
      ∀ g h, (o.allowsAbove g h || o.allowsAbove h g) = true :=
  ⟨fun _ _ _ => allowsAbove_trans, fun g h => Bool.or_eq_true_iff.mpr (allowsAbove_total g h)⟩

/-- Sorting leaves no group below one that it may not stand below. -/
theorem sorted_pairwise (o : RowOrder) (groups : List Group) :
    (o.sorted groups).Pairwise fun g h => o.allowsAbove g h = true :=
  List.pairwise_mergeSort o.allowsAbove_sorts.1 o.allowsAbove_sorts.2 groups

theorem sorted_perm (o : RowOrder) (groups : List Group) : (o.sorted groups).Perm groups :=
  List.mergeSort_perm groups _

/-- Groups that tie stay in the order that they came in. -/
theorem sorted_stable (o : RowOrder) {groups : List Group} {R : Group → Group → Prop}
    (inOrder : groups.Pairwise R) :
    (o.sorted groups).Pairwise fun g h => o.allowsAbove h g = true → R g h :=
  mergeSort_stable o.allowsAbove_sorts.1 o.allowsAbove_sorts.2 inOrder

end RowOrder

end PeerSearch
