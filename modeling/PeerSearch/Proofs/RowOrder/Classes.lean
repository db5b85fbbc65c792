import PeerSearch.Proofs.RowOrder

/-!
# PeerSearch.Proofs.RowOrder.Classes -- pinned classes, and the sort order within them

The order of the rows looks at classes first: promoted groups are pinned to the top and, where junk
sinks, junk to the bottom of what is promoted and of what is not. The sort order has a say only
between two groups of one class. So its direction turns round the comparison of such groups and no
other, and a key that puts tiers first cannot lift a group out of its class.
-/

namespace PeerSearch

/-! ## Truth values and directions -/

theorem compare_toNat_eq_iff {a b : Bool} : compare a.toNat b.toNat = .eq ↔ a = b := by
  revert a b
  decide

theorem compare_toNat_lt_iff {a b : Bool} :
    compare a.toNat b.toNat = .lt ↔ a = false ∧ b = true := by
  revert a b
  decide

namespace SortDirection

/-- The other direction. -/
def opposite : SortDirection → SortDirection
  | ascending => descending
  | descending => ascending

theorem apply_opposite (d : SortDirection) (c : Ordering) :
    d.opposite.apply c = (d.apply c).swap := by
  cases d with
  | ascending => rfl
  | descending => exact Ordering.swap_swap.symm

end SortDirection

/-! ## Tiers -/

namespace SortKey

theorem countRank_fst (g : Group) : (countRank g).1 = g.tier.rank := by
  unfold countRank
  split
  · next tier => rw [tier]
  · rfl

/-- By the number of sources, a group of a higher tier outranks one of a lower tier, whatever the
numbers are. -/
theorem count_of_higher_tier {g h : Group} (higher : h.tier.rank < g.tier.rank) :
    count.compareGroups g h = .gt := by
  have ranks : compare (countRank g).1 (countRank h).1 = .gt := by
    rw [countRank_fst, countRank_fst]
    exact Nat.compare_eq_gt.mpr higher
  have pairs : comparePairs (countRank g) (countRank h) = .gt := by
    show (compare (countRank g).1 (countRank h).1).then _ = .gt
    rw [ranks]
    rfl
  rw [compareGroups, pairs]
  rfl

end SortKey

namespace RowOrder

variable {o : RowOrder} {g h : Group}

/-! ## Classes -/

/-- Both groups are promoted or neither is and, where junk sinks, both are junk or neither is. -/
def SameClass (o : RowOrder) (g h : Group) : Prop :=
  g.isPromoted = h.isPromoted ∧ ∀ junk, o.sink = some junk → junk.isJunk g = junk.isJunk h

/-- The order of the classes alone. -/
def byClass (o : RowOrder) : RowOrder :=
  { o with sort := none }

/-- Compares two groups by the sort order alone. -/
def compareSorted (o : RowOrder) (g h : Group) : Ordering :=
  match o.sort with
  | some order => order.direction.apply (order.key.compareGroups g h)
  | none => .eq

/-- The order with its sort direction turned round. -/
def reversed (o : RowOrder) : RowOrder :=
  { o with sort := o.sort.map fun order => { order with direction := order.direction.opposite } }

theorem compareGroups_eq_then (o : RowOrder) (g h : Group) :
    o.compareGroups g h = (o.byClass.compareGroups g h).then (o.compareSorted g h) := by
  have regroup (a b c : Ordering) : a.then (b.then c) = (a.then (b.then .eq)).then c := by
    rw [Ordering.then_eq, Ordering.then_assoc]
  exact regroup _ _ _

theorem byClass_eq_iff : o.byClass.compareGroups g h = .eq ↔ o.SameClass g h := by
  simp only [byClass, compareGroups, SameClass, Ordering.then_eq, Ordering.then_eq_eq,
    compare_toNat_eq_iff, eq_comm (a := h.isPromoted)]
  cases o.sink with
  | none => simp
  | some junk => simp only [compare_toNat_eq_iff, Option.some.injEq, forall_eq']

/-- Between groups of one class the sort order decides. -/
theorem compareGroups_of_sameClass (same : o.SameClass g h) :
    o.compareGroups g h = o.compareSorted g h := by
  rw [compareGroups_eq_then, byClass_eq_iff.mpr same]
  rfl

/-- Between groups of two classes the classes decide. -/
theorem compareGroups_of_not_sameClass (apart : ¬ o.SameClass g h) :
    o.compareGroups g h = o.byClass.compareGroups g h := by
  rw [compareGroups_eq_then]
  cases classes : o.byClass.compareGroups g h with
  | eq => exact absurd (byClass_eq_iff.mp classes) apart
  | lt => rfl
  | gt => rfl

/-- What is promoted stands above what is not. -/
theorem compareGroups_of_promoted (hg : g.isPromoted = true) (hh : h.isPromoted = false) :
    o.compareGroups g h = .lt := by
  have above : compare h.isPromoted.toNat g.isPromoted.toNat = .lt :=
    compare_toNat_lt_iff.mpr ⟨hh, hg⟩
  rw [compareGroups, above]
  rfl

/-- Junk that sinks stands below what is not junk. -/
theorem compareGroups_of_junk {junk : JunkFilter} (sink : o.sink = some junk)
    (alike : g.isPromoted = h.isPromoted) (hg : junk.isJunk g = true)
    (hh : junk.isJunk h = false) : o.compareGroups g h = .gt := by
  have promoted : compare h.isPromoted.toNat g.isPromoted.toNat = .eq :=
    compare_toNat_eq_iff.mpr alike.symm
  have below : compare (junk.isJunk g).toNat (junk.isJunk h).toNat = .gt := by
    rw [hg, hh]
    rfl
  rw [compareGroups, promoted, sink]
  show (compare (junk.isJunk g).toNat (junk.isJunk h).toNat).then _ = .gt
  rw [below]
  rfl

/-! ## The other direction -/

theorem reversed_compareSorted (o : RowOrder) (g h : Group) :
    o.reversed.compareSorted g h = (o.compareSorted g h).swap := by
  unfold reversed compareSorted
  cases o.sort with
  | none => rfl
  | some order => exact order.direction.apply_opposite _

/-- Turning the direction round leaves the classes where they are. -/
theorem reversed_of_not_sameClass (apart : ¬ o.SameClass g h) :
    o.reversed.compareGroups g h = o.compareGroups g h :=
  (compareGroups_of_not_sameClass (o := o.reversed) apart).trans
    (compareGroups_of_not_sameClass apart).symm

/-- Turning the direction round turns round the comparison of groups of one class, and of no
others. -/
theorem reversed_eq_swap_iff :
    o.reversed.compareGroups g h = (o.compareGroups g h).swap ↔ o.SameClass g h := by
  constructor
  · intro turned
    by_contra apart
    rw [reversed_of_not_sameClass apart, compareGroups_of_not_sameClass apart] at turned
    cases classes : o.byClass.compareGroups g h with
    | eq => exact apart (byClass_eq_iff.mp classes)
    | lt => rw [classes] at turned; cases turned
    | gt => rw [classes] at turned; cases turned
  · intro same
    have turned := compareGroups_of_sameClass (o := o.reversed) same
    rw [turned, reversed_compareSorted, compareGroups_of_sameClass same]

/-! ## The order as a whole -/

/-- Rows compare by a total preorder, so sorting them puts them in order. A promoted group stands above
one that is not; of two that are alike in that, junk that sinks stands below what is no junk. Turning
the sort direction round turns round the comparison within a class and leaves that between classes as
it is. By the number of sources, a higher tier outranks a lower one. -/
theorem rows_compare_by_class_first (o : RowOrder) (g h k : Group) :
    o.compareGroups g g = .eq ∧
    o.compareGroups h g = (o.compareGroups g h).swap ∧
    (o.compareGroups g h ≠ .gt → o.compareGroups h k ≠ .gt → o.compareGroups g k ≠ .gt) ∧
    (∀ groups, (o.sorted groups).Perm groups ∧
      (o.sorted groups).Pairwise fun a b => o.compareGroups a b ≠ .gt) ∧
    (g.isPromoted = true → h.isPromoted = false → o.compareGroups g h = .lt) ∧
    (∀ junk, o.sink = some junk → g.isPromoted = h.isPromoted → junk.isJunk g = true →
      junk.isJunk h = false → o.compareGroups g h = .gt) ∧
    (o.reversed.compareGroups g h = (o.compareGroups g h).swap ↔ o.SameClass g h) ∧
    (¬ o.SameClass g h → o.reversed.compareGroups g h = o.compareGroups g h) ∧
    (h.tier.rank < g.tier.rank → SortKey.count.compareGroups g h = .gt ∧
      ∀ d, o.sort = some ⟨.count, d⟩ → o.SameClass g h → o.compareGroups g h = d.apply .gt) := by
  refine ⟨Std.ReflCmp.compare_self, Std.OrientedCmp.eq_swap, fun above below => ?_,
    fun groups => ⟨o.sorted_perm groups, ?_⟩, compareGroups_of_promoted,
    fun _ => compareGroups_of_junk, reversed_eq_swap_iff, reversed_of_not_sameClass,
    fun higher => ⟨SortKey.count_of_higher_tier higher, fun d sort same => ?_⟩⟩
  · rw [← allowsAbove_iff] at above below ⊢
    exact allowsAbove_trans above below
  · exact (o.sorted_pairwise groups).imp allowsAbove_iff.mp
  · rw [compareGroups_of_sameClass same, compareSorted, sort]
    show d.apply (SortKey.count.compareGroups g h) = _
    rw [SortKey.count_of_higher_tier higher]

/-- A sponsored group above a secure one, that one above a group of more sources, and junk below. -/
theorem rows_compare_by_class_first_of_four :
    let single (n : Nat) (r : SearchResult) : Group := .single ⟨n⟩ ⟨⟨n⟩, r⟩
    let ad := single 0 { fileName := "ad.mp3", size := 1, kind := .promoted }
    let secure := single 1 { fileName := "secure.mp3", size := 2, secure := true }
    let busy := (single 2 { fileName := "busy.mp3", size := 3 }).push
      ⟨⟨3⟩, { fileName := "busy.mp3", size := 3, quality := .excellent }⟩
    let spam := single 4 { fileName := "spam.mp3", size := 4, spamScore := .one }
    let junk := JunkFilter.ofThreshold .one
    let o : RowOrder := ⟨some ⟨.count, .descending⟩, some junk⟩
    (ad.isPromoted = true ∧ secure.isPromoted = false ∧ o.compareGroups ad secure = .lt) ∧
    (busy.tier.rank < secure.tier.rank ∧ o.SameClass secure busy ∧
      o.compareGroups secure busy = .lt) ∧
    (spam.isPromoted = busy.isPromoted ∧ junk.isJunk spam = true ∧ junk.isJunk busy = false ∧
      o.compareGroups spam busy = .gt) ∧
    (¬ o.SameClass ad busy ∧ o.reversed.compareGroups ad busy = o.compareGroups ad busy) ∧
    o.compareGroups ad busy ≠ .gt := by
  intro single ad secure busy spam junk o
  have lower : busy.tier.rank < secure.tier.rank := by decide +kernel
  have alike : o.SameClass secure busy := ⟨by decide +kernel, by rintro _ ⟨⟩; decide +kernel⟩
  have apart : ¬ o.SameClass ad busy := fun same => absurd same.1 (by decide +kernel)
  have isSpam : junk.isJunk spam = true := by decide +kernel
  have noSpam : junk.isJunk busy = false := by decide +kernel
  obtain ⟨-, -, trans, -, pinned, -⟩ := rows_compare_by_class_first o ad secure busy
  obtain ⟨-, -, -, -, -, -, -, -, tiers⟩ := rows_compare_by_class_first o secure busy ad
  obtain ⟨-, -, -, -, -, sunk, -⟩ := rows_compare_by_class_first o spam busy ad
  obtain ⟨-, -, -, -, -, -, -, fixed, -⟩ := rows_compare_by_class_first o ad busy secure
  have first : o.compareGroups ad secure = .lt := pinned rfl rfl
  have second : o.compareGroups secure busy = .lt := (tiers lower).2 .descending rfl alike
  refine ⟨⟨rfl, rfl, first⟩, ⟨lower, alike, second⟩,
    ⟨rfl, isSpam, noSpam, sunk junk rfl rfl isSpam noSpam⟩, ⟨apart, fixed apart⟩, ?_⟩
  exact trans (by rw [first]; decide) (by rw [second]; decide)

end RowOrder

end PeerSearch
