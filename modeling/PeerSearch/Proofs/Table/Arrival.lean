import PeerSearch.Proofs.Table.Pinned
import PeerSearch.Proofs.Table.Visibility

/-!
# PeerSearch.Proofs.Table.Arrival -- rows in the order in which their groups arrived

Groups are named in the order in which they arrive. Without a sort order, deciding over all groups
leaves the rows of each class in that order. An operation on one group puts its row past all rows of
the same class: below them when the group was in no row or comes from a class further down, above
them when it comes from a class further up. So the rows stay in the order of arrival until that is
the wrong end.
-/

namespace PeerSearch

theorem GroupId.le_iff {a b : GroupId} : a.val ≤ b.val ↔ (a ≠ b → a.val < b.val) := by
  constructor
  · exact fun le other => lt_of_le_of_ne le fun same => other (GroupId.eq_of_val same)
  · intro lt
    by_cases same : a = b
    · exact same ▸ le_rfl
    · exact (lt same).le

namespace Table

variable {t t' : Table}

/-! ## The order of arrival -/

/-- Nothing but the sort order can tell which of two groups stands above the other. -/
def SameClass (t : Table) (g h : Group) : Prop :=
  g.isPromoted = h.isPromoted ∧ (t.junkPolicy = .sink → t.junk.isJunk g = t.junk.isJunk h)

/-- Without a sort order, rows of one class stand in the order in which their groups arrived. -/
def FollowsArrival (t : Table) : Prop :=
  t.sort = none → ∀ i j g h, i < j → t.row? i = some g → t.row? j = some h → t.SameClass g h →
    g.id.val < h.id.val

/-- The first group may stand above the second and, where it need not, arrived earlier. -/
def Arrives (t : Table) (a b : GroupId) : Prop :=
  t.MayPrecede a b ∧ (t.MayPrecede b a → a.val < b.val)

theorem Arrives.trans {a b c : GroupId} (above : t.Arrives a b) (below : t.Arrives b c) :
    t.Arrives a c := by
  refine ⟨above.1.trans below.1, fun back => ?_⟩
  exact (above.2 (below.1.trans back)).trans (below.2 (back.trans above.1))

theorem sameClass_iff {g h : Group} :
    t.SameClass g h ↔ ¬ t.BelongsAbove g h ∧ ¬ t.BelongsAbove h g := by
  unfold SameClass BelongsAbove
  by_cases sink : t.junkPolicy = .sink
  · simp only [sink, true_and, forall_const]
    cases g.isPromoted <;> cases h.isPromoted <;> cases t.junk.isJunk g <;>
      cases t.junk.isJunk h <;> decide
  · simp only [sink, false_and, and_false, or_false, false_implies, and_true]
    cases g.isPromoted <;> cases h.isPromoted <;> decide

theorem byClass_eq (unsorted : t.sort = none) : t.byClass = t := by
  cases t
  cases unsorted
  rfl

theorem mayPrecede_iff_class (unsorted : t.sort = none) {a b : GroupId} {g h : Group}
    (hg : t.group? a = some g) (hh : t.group? b = some h) :
    t.MayPrecede a b ↔ ¬ t.BelongsAbove h g := by
  rw [mayPrecede_iff hg hh, not_belongsAbove_iff, byClass_eq unsorted]

theorem BelongsAbove.asymm {g h : Group} (above : t.BelongsAbove g h) : ¬ t.BelongsAbove h g := by
  rw [belongsAbove_iff] at above ⊢
  exact Std.OrientedCmp.not_lt_of_lt above

theorem BelongsAbove.of_not_above {g h k : Group} (above : t.BelongsAbove g h)
    (not : ¬ t.BelongsAbove k h) : t.BelongsAbove g k := by
  by_contra not'
  rw [not_belongsAbove_iff] at not not'
  exact not_belongsAbove_iff.mpr (RowOrder.allowsAbove_trans not not') above

theorem BelongsAbove.of_not_below {g h k : Group} (above : t.BelongsAbove g k)
    (not : ¬ t.BelongsAbove g h) : t.BelongsAbove h k := by
  by_contra not'
  rw [not_belongsAbove_iff] at not not'
  exact not_belongsAbove_iff.mpr (RowOrder.allowsAbove_trans not' not) above

theorem related_rows {R : GroupId → GroupId → Prop} (h : t.rows.Pairwise R) {i j : Nat}
    {a b : GroupId} (hij : i < j) (ha : t.rows[i]? = some a) (hb : t.rows[j]? = some b) : R a b := by
  obtain ⟨hi, rfl⟩ := List.getElem?_eq_some_iff.mp ha
  obtain ⟨hj, rfl⟩ := List.getElem?_eq_some_iff.mp hb
  exact List.pairwise_iff_getElem.mp h i j hi hj hij

/-- Rows in order follow arrival when those of one class do. -/
theorem Sorted.followsArrival_iff (sorted : t.Sorted) (unsorted : t.sort = none) :
    t.FollowsArrival ↔ t.rows.Pairwise t.Arrives := by
  constructor
  · intro follows
    refine List.pairwise_iff_getElem.mpr fun i j hi hj hij => ?_
    have may := List.pairwise_iff_getElem.mp sorted i j hi hj hij
    refine ⟨may, fun back => ?_⟩
    have ⟨g, h, hg, hh, _⟩ := may
    have same : t.SameClass g h := sameClass_iff.mpr
      ⟨(mayPrecede_iff_class unsorted hh hg).mp back, (mayPrecede_iff_class unsorted hg hh).mp may⟩
    have earlier := follows unsorted i j g h hij
      (row?_eq_some_iff.mpr ⟨_, List.getElem?_eq_getElem hi, hg⟩)
      (row?_eq_some_iff.mpr ⟨_, List.getElem?_eq_getElem hj, hh⟩) same
    rwa [GroupIndex.id_of_group? hg, GroupIndex.id_of_group? hh] at earlier
  · intro arrives _ i j g h hij hi hj same
    obtain ⟨a, ha, hg⟩ := row?_eq_some_iff.mp hi
    obtain ⟨b, hb, hh⟩ := row?_eq_some_iff.mp hj
    rw [GroupIndex.id_of_group? hg, GroupIndex.id_of_group? hh]
    refine (related_rows arrives hij ha hb).2 ((mayPrecede_iff_class unsorted hh hg).mpr ?_)
    exact (sameClass_iff.mp same).1

theorem followsArrival_of_increasing (h : t.rows.Pairwise (·.val < ·.val)) : t.FollowsArrival := by
  intro _ i j g k hij hi hj _
  obtain ⟨a, ha, hg⟩ := row?_eq_some_iff.mp hi
  obtain ⟨b, hb, hk⟩ := row?_eq_some_iff.mp hj
  rw [GroupIndex.id_of_group? hg, GroupIndex.id_of_group? hk]
  exact related_rows h hij ha hb

/-! ## Rows that are put at an end of their class -/

/-- The rows are in order, and `x` stands above no row that might stand above it. -/
def Last (t : Table) (x a b : GroupId) : Prop :=
  t.MayPrecede a b ∧ (a = x → ¬ t.MayPrecede b a)

/-- The rows are in order, and `x` stands below no row that might stand below it. -/
def First (t : Table) (x a b : GroupId) : Prop :=
  t.MayPrecede a b ∧ (b = x → ¬ t.MayPrecede b a)

theorem Last.trans {x a b c : GroupId} (above : t.Last x a b) (below : t.Last x b c) :
    t.Last x a c :=
  ⟨above.1.trans below.1, fun own back => above.2 own (below.1.trans back)⟩

theorem First.trans {x a b c : GroupId} (above : t.First x a b) (below : t.First x b c) :
    t.First x a c :=
  ⟨above.1.trans below.1, fun own back => below.2 own (back.trans above.1)⟩

variable {rows : List GroupId} {i : Nat} {x : GroupId}

/-- A row that is put below its class stands right when it is the latest of them. -/
theorem insertIdx_last_iff (fits : Fits (t.Last x) rows i x) (arrives : rows.Pairwise t.Arrives)
    (fresh : x ∉ rows) : (rows.insertIdx i x).Pairwise t.Arrives ↔
      ∀ k ∈ rows, t.MayPrecede x k → t.MayPrecede k x → k.val < x.val := by
  have last : rows.Pairwise (t.Last x) := by
    refine arrives.imp_of_mem fun ha _ hab => ⟨hab.1, ?_⟩
    rintro rfl
    exact absurd ha fresh
  obtain ⟨-, above, below⟩ :=
    (pairwise_insertIdx_iff fits.within x).mp (fits.pairwise last fun _ _ _ => Last.trans)
  rw [pairwise_insertIdx_iff fits.within]
  constructor
  · rintro ⟨-, earlier, -⟩ k hk may back
    rw [← List.take_append_drop i rows, List.mem_append] at hk
    rcases hk with hk | hk
    · exact (earlier k hk).2 may
    · exact absurd back ((below k hk).2 rfl)
  · intro latest
    refine ⟨arrives, fun a ha => ⟨(above a ha).1, fun back => ?_⟩, fun b hb => ⟨(below b hb).1, ?_⟩⟩
    · exact latest a (List.mem_of_mem_take ha) back (above a ha).1
    · exact fun back => absurd back ((below b hb).2 rfl)

/-- A row that is put above its class stands right when it is the earliest of them. -/
theorem insertIdx_first_iff (fits : Fits (t.First x) rows i x) (arrives : rows.Pairwise t.Arrives)
    (fresh : x ∉ rows) : (rows.insertIdx i x).Pairwise t.Arrives ↔
      ∀ k ∈ rows, t.MayPrecede x k → t.MayPrecede k x → x.val < k.val := by
  have first : rows.Pairwise (t.First x) := by
    refine arrives.imp_of_mem fun _ hb hab => ⟨hab.1, ?_⟩
    rintro rfl
    exact absurd hb fresh
  obtain ⟨-, above, below⟩ :=
    (pairwise_insertIdx_iff fits.within x).mp (fits.pairwise first fun _ _ _ => First.trans)
  rw [pairwise_insertIdx_iff fits.within]
  constructor
  · rintro ⟨-, -, later⟩ k hk may back
    rw [← List.take_append_drop i rows, List.mem_append] at hk
    rcases hk with hk | hk
    · exact absurd may ((above k hk).2 rfl)
    · exact (later k hk).2 back
  · intro earliest
    refine ⟨arrives, fun a ha => ⟨(above a ha).1, ?_⟩, fun b hb => ⟨(below b hb).1, fun back => ?_⟩⟩
    · exact fun back => absurd back ((above a ha).2 rfl)
    · exact earliest b (List.mem_of_mem_drop hb) (below b hb).1 back

/-- A new row goes below its class. -/
theorem insertionRow_last {g : Group} (live : ∀ id ∈ t.rows, ∃ h, t.group? id = some h)
    (hg : t.group? g.id = some g) (noRow : g.id ∉ t.rows) :
    Fits (t.Last g.id) t.rows (t.insertionRow g) g.id := by
  refine partitionPoint_fits ?_ ?_
  · intro id hid allowed
    obtain ⟨h, hh⟩ := live id hid
    simp only [rowAllowsBelow, hh] at allowed
    refine ⟨(mayPrecede_iff hh hg).mpr allowed, ?_⟩
    rintro rfl
    exact absurd hid noRow
  · intro id hid refused
    obtain ⟨h, hh⟩ := live id hid
    simp only [rowAllowsBelow, hh] at refused
    have not : ¬ t.MayPrecede id g.id := by
      rw [mayPrecede_iff hh hg, refused]
      exact Bool.false_ne_true
    exact ⟨mayPrecede_of_not hh hg not, fun _ => not⟩

/-! ## A group that changes or comes back -/

/-- A group as it is now goes past another one of its class against the order of arrival: it was in
no row or comes from a class further down, and arrived earlier, or it comes from a class further up,
and arrived later. -/
def JumpsPast (t : Table) (g h : Group) : Prop :=
  t.SameClass g h ∧
    (g.id ∉ t.rows ∧ g.id.val < h.id.val ∨
      ∃ before ∈ t.visibleGroups, before.id = g.id ∧
        (t.BelongsAbove g before ∧ g.id.val < h.id.val ∨
          t.BelongsAbove before g ∧ h.id.val < g.id.val))

/-- Without a sort order, a group that is shown afterwards goes past one that was shown before. -/
def Jumps (t t' : Table) : Prop :=
  t.sort = none ∧ ∃ g ∈ t'.visibleGroups, ∃ h ∈ t.visibleGroups, t.JumpsPast g h

theorem mem_visibleGroups_iff {g : Group} :
    g ∈ t.visibleGroups ↔ g.id ∈ t.rows ∧ t.group? g.id = some g := by
  refine ⟨fun hg => ?_, fun ⟨hrow, hg⟩ => List.mem_filterMap.mpr ⟨g.id, hrow, hg⟩⟩
  obtain ⟨id, hrow, hid⟩ := List.mem_filterMap.mp hg
  obtain rfl := GroupIndex.id_of_group? hid
  exact ⟨hrow, hid⟩

theorem eq_of_visible {g h : Group} (hg : g ∈ t.visibleGroups) (hh : h ∈ t.visibleGroups)
    (same : g.id = h.id) : g = h :=
  Option.some.inj ((live_of_visible hg).symm.trans (same ▸ live_of_visible hh))

theorem not_jumpsPast_of_visible {g h : Group} (hg : g ∈ t.visibleGroups) : ¬ t.JumpsPast g h := by
  rintro ⟨-, ⟨noRow, -⟩ | ⟨before, hb, same, wrong⟩⟩
  · exact noRow (mem_visibleGroups_iff.mp hg).1
  · obtain rfl := eq_of_visible hb hg same
    rcases wrong with ⟨above, -⟩ | ⟨above, -⟩ <;> exact not_belongsAbove_self _ above

theorem not_jumps_of_same (same : ∀ k ∈ t'.rows, k ∈ t.rows ∧ t'.group? k = t.group? k) :
    ¬ t.Jumps t' := by
  rintro ⟨-, g, hg, h, -, past⟩
  obtain ⟨hrow, hg⟩ := mem_visibleGroups_iff.mp hg
  have ⟨before, kept⟩ := same g.id hrow
  exact not_jumpsPast_of_visible (mem_visibleGroups_iff.mpr ⟨before, kept.symm.trans hg⟩) past

/-- Only the group that has changed or come back can jump. -/
theorem jumps_iff_of_one {g : Group} (unsorted : t.sort = none) (hg : g ∈ t'.visibleGroups)
    (same : ∀ k ≠ g.id, t'.group? k = t.group? k)
    (rows : ∀ k ∈ t'.rows, k ≠ g.id → k ∈ t.rows) :
    t.Jumps t' ↔ ∃ h ∈ t.visibleGroups, t.JumpsPast g h := by
  refine ⟨?_, fun past => ⟨unsorted, g, hg, past⟩⟩
  rintro ⟨-, g', hg', h, hh, past⟩
  by_cases own : g'.id = g.id
  · obtain rfl := eq_of_visible hg' hg own
    exact ⟨h, hh, past⟩
  · obtain ⟨hrow, hlive⟩ := mem_visibleGroups_iff.mp hg'
    have visible : g' ∈ t.visibleGroups :=
      mem_visibleGroups_iff.mpr ⟨rows g'.id hrow own, (same g'.id own).symm.trans hlive⟩
    exact absurd past (not_jumpsPast_of_visible visible)

theorem SameSettings.belongsAbove (h : t.SameSettings t') {g k : Group} :
    t'.BelongsAbove g k ↔ t.BelongsAbove g k := by
  rw [BelongsAbove, h.junkPolicy, h.junk, BelongsAbove]

theorem arrives_carried {rows : List GroupId} (settings : t.SameSettings t')
    (same : ∀ k ∈ rows, t'.group? k = t.group? k) (arrives : rows.Pairwise t.Arrives) :
    rows.Pairwise t'.Arrives := by
  have carried {a b : GroupId} (ha : a ∈ rows) (hb : b ∈ rows) :
      t'.MayPrecede a b ↔ t.MayPrecede a b := by
    simp only [MayPrecede, same a ha, same b hb, settings.order]
  refine arrives.imp_of_mem fun ha hb hab => ?_
  rwa [Arrives, carried ha hb, carried hb ha]

/-- One group has changed, or may have, where rows stood in the order of arrival. -/
structure OneChanged (t t' : Table) (g : Group) : Prop where
  placed : t.Placed
  unsorted : t.sort = none
  arrives : t.rows.Pairwise t.Arrives
  settings : t.SameSettings t'
  live : t'.group? g.id = some g
  same : ∀ k ≠ g.id, t'.group? k = t.group? k

theorem OneChanged.may_iff {g h : Group} (c : t.OneChanged t' g) {a : GroupId}
    (ha : t'.group? a = some h) :
    (t'.MayPrecede a g.id ↔ ¬ t.BelongsAbove g h) ∧
      (t'.MayPrecede g.id a ↔ ¬ t.BelongsAbove h g) := by
  have unsorted : t'.sort = none := c.settings.sort.trans c.unsorted
  rw [mayPrecede_iff_class unsorted ha c.live, mayPrecede_iff_class unsorted c.live ha,
    c.settings.belongsAbove, c.settings.belongsAbove]
  exact ⟨Iff.rfl, Iff.rfl⟩

/-- The other rows stand in the order of arrival as they did. -/
theorem OneChanged.others {g : Group} (c : t.OneChanged t' g) {rows : List GroupId}
    (sub : rows.Sublist t.rows) (fresh : g.id ∉ rows) : rows.Pairwise t'.Arrives := by
  refine arrives_carried c.settings (fun k hk => c.same k ?_) (c.arrives.sublist sub)
  rintro rfl
  exact fresh hk

/-- What is asked of the other rows of the class of the group is asked of the groups in them. -/
theorem OneChanged.forall_ties_iff {g : Group} (c : t.OneChanged t' g) {rows : List GroupId}
    (mem : ∀ k, k ∈ rows ↔ k ≠ g.id ∧ k ∈ t.rows) {P : GroupId → Prop} :
    (∀ k ∈ rows, t'.MayPrecede g.id k → t'.MayPrecede k g.id → P k) ↔
      ∀ h ∈ t.visibleGroups, h.id ≠ g.id → t.SameClass g h → P h.id := by
  constructor
  · intro ties h hh other same
    obtain ⟨hrow, hlive⟩ := mem_visibleGroups_iff.mp hh
    obtain ⟨back, may⟩ := c.may_iff ((c.same h.id other).trans hlive)
    have ⟨notAbove, notBelow⟩ := sameClass_iff.mp same
    exact ties h.id ((mem h.id).mpr ⟨other, hrow⟩) (may.mpr notBelow) (back.mpr notAbove)
  · intro groups k hk may back
    obtain ⟨other, hk⟩ := (mem k).mp hk
    obtain ⟨h, hh⟩ := c.placed.live_of_row hk
    obtain rfl := GroupIndex.id_of_group? hh
    have iffs := c.may_iff ((c.same h.id other).trans hh)
    exact groups h (mem_visibleGroups_iff.mpr ⟨hk, hh⟩) other
      (sameClass_iff.mpr ⟨iffs.1.mp back, iffs.2.mp may⟩)

section Put

variable {g : Group} {rows : List GroupId} {i : Nat}

theorem OneChanged.last_iff (c : t.OneChanged t' g) (sub : rows.Sublist t.rows)
    (mem : ∀ k, k ∈ rows ↔ k ≠ g.id ∧ k ∈ t.rows) (fits : Fits (t'.Last g.id) rows i g.id) :
    (rows.insertIdx i g.id).Pairwise t'.Arrives ↔
      ∀ h ∈ t.visibleGroups, h.id ≠ g.id → t.SameClass g h → h.id.val < g.id.val := by
  have fresh : g.id ∉ rows := fun hmem => ((mem g.id).mp hmem).1 rfl
  rw [insertIdx_last_iff fits (c.others sub fresh) fresh]
  exact c.forall_ties_iff mem

theorem OneChanged.first_iff (c : t.OneChanged t' g) (sub : rows.Sublist t.rows)
    (mem : ∀ k, k ∈ rows ↔ k ≠ g.id ∧ k ∈ t.rows) (fits : Fits (t'.First g.id) rows i g.id) :
    (rows.insertIdx i g.id).Pairwise t'.Arrives ↔
      ∀ h ∈ t.visibleGroups, h.id ≠ g.id → t.SameClass g h → g.id.val < h.id.val := by
  have fresh : g.id ∉ rows := fun hmem => ((mem g.id).mp hmem).1 rfl
  rw [insertIdx_first_iff fits (c.others sub fresh) fresh]
  exact c.forall_ties_iff mem

end Put

/-- A group that is shown now stands right unless it jumps. -/
theorem OneChanged.shown_iff {g : Group} (c : t.OneChanged t' g) (noRow : g.id ∉ t.rows) :
    (t.rows.insertIdx ((t'.onRows t.rows).insertionRow g) g.id).Pairwise t'.Arrives ↔
      ¬ ∃ h ∈ t.visibleGroups, t.JumpsPast g h := by
  have mem (k : GroupId) : k ∈ t.rows ↔ k ≠ g.id ∧ k ∈ t.rows := by
    refine (and_iff_right_of_imp ?_).symm
    rintro hk rfl
    exact noRow hk
  have fits : Fits (t'.Last g.id) t.rows _ g.id :=
    insertionRow_last (t := t'.onRows t.rows) (c.placed.live_of_same c.live c.same) c.live noRow
  rw [c.last_iff (.refl _) mem fits]
  constructor
  · rintro latest ⟨h, hh, same, ⟨-, earlier⟩ | ⟨before, hb, own, -⟩⟩
    · refine absurd (latest h hh ?_ same) earlier.not_gt
      rintro own
      exact noRow (own ▸ (mem_visibleGroups_iff.mp hh).1)
    · exact noRow (own ▸ (mem_visibleGroups_iff.mp hb).1)
  · intro none h hh other same
    refine GroupId.le_iff.mp (not_lt.mp fun later => ?_) other
    exact none ⟨h, hh, same, .inl ⟨noRow, later⟩⟩

/-! ### A row that is looked for anew -/

/-- The one group that has changed, in a row, and what it was. -/
structure RowChanged (t t' : Table) (g before : Group) (row : Nat) : Prop
    extends t.OneChanged t' g where
  atRow : t.rows[row]? = some g.id
  was : t.group? g.id = some before

section Moved

variable {g before : Group} {row : Nat}

/-- The rows above the changed one. -/
theorem RowChanged.above (c : t.RowChanged t' g before row) {i : Nat} {a : GroupId} (hi : i < row)
    (ha : t.rows[i]? = some a) : ∃ h, t'.group? a = some h ∧ a ≠ g.id ∧
      ¬ t.BelongsAbove before h ∧ (¬ t.BelongsAbove h before → a.val < g.id.val) := by
  obtain ⟨h, hh⟩ := c.placed.live_of_row (List.mem_of_getElem? ha)
  have arrives := related_rows c.arrives hi ha c.atRow
  have other : a ≠ g.id := related_rows c.placed.rows_nodup hi ha c.atRow
  refine ⟨h, (c.same a other).trans hh, other, ?_, fun not => arrives.2 ?_⟩
  · exact (mayPrecede_iff_class c.unsorted hh c.was).mp arrives.1
  · exact (mayPrecede_iff_class c.unsorted c.was hh).mpr not

/-- The rows below the changed one. -/
theorem RowChanged.below (c : t.RowChanged t' g before row) {i : Nat} {b : GroupId} (hi : row < i)
    (hb : t.rows[i]? = some b) : ∃ h, t'.group? b = some h ∧ b ≠ g.id ∧
      ¬ t.BelongsAbove h before ∧ (¬ t.BelongsAbove before h → g.id.val < b.val) := by
  obtain ⟨h, hh⟩ := c.placed.live_of_row (List.mem_of_getElem? hb)
  have arrives := related_rows c.arrives hi c.atRow hb
  have other : g.id ≠ b := related_rows c.placed.rows_nodup hi c.atRow hb
  refine ⟨h, (c.same b other.symm).trans hh, other.symm, ?_, fun not => arrives.2 ?_⟩
  · exact (mayPrecede_iff_class c.unsorted c.was hh).mp arrives.1
  · exact (mayPrecede_iff_class c.unsorted hh c.was).mpr not

/-- Where the scan ends, the group stands in a relation to both neighbours if it does so to every
row. -/
theorem RowChanged.fits {R : GroupId → GroupId → Prop} (c : t.RowChanged t' g before row)
    (up : ∀ i a, i < row → t.rows[i]? = some a →
      (t'.MayPrecede a g.id → R a g.id) ∧ (¬ t'.MayPrecede a g.id → R g.id a))
    (down : ∀ i b, row < i → t.rows[i]? = some b →
      (t'.MayPrecede g.id b → R g.id b) ∧ (¬ t'.MayPrecede g.id b → R b g.id)) :
    Fits R (t.rows.eraseIdx row) ((t'.onRows t.rows).destination g row) g.id := by
  obtain ⟨hlt, -⟩ := List.getElem?_eq_some_iff.mp c.atRow
  exact destination_fits_of (t := t'.onRows t.rows) (c.placed.live_of_same c.live c.same) c.live hlt
    up down

/-- A group that has risen to another class goes below those of its class. -/
theorem RowChanged.last_of_risen (c : t.RowChanged t' g before row)
    (risen : t.BelongsAbove g before) :
    Fits (t'.Last g.id) (t.rows.eraseIdx row) ((t'.onRows t.rows).destination g row) g.id := by
  refine c.fits (fun i a hi ha => ?_) fun i b hi hb => ?_
  · obtain ⟨h, hh, other, -⟩ := c.above hi ha
    exact ⟨fun may => ⟨may, fun own => absurd own other⟩,
      fun not => ⟨mayPrecede_of_not hh c.live not, fun _ => not⟩⟩
  · -- It was above this row already, and is above its class now.
    obtain ⟨h, hh, -, notAbove, -⟩ := c.below hi hb
    have above := risen.of_not_above notAbove
    obtain ⟨back, may⟩ := c.may_iff hh
    have not : ¬ t'.MayPrecede b g.id := fun hb => back.mp hb above
    refine ⟨fun may => ⟨may, fun _ => not⟩, fun notMay => ?_⟩
    exact absurd (mayPrecede_of_not c.live hh notMay) not

/-- A group that has sunk to another class goes above those of its class. -/
theorem RowChanged.first_of_sunk (c : t.RowChanged t' g before row)
    (sunk : t.BelongsAbove before g) :
    Fits (t'.First g.id) (t.rows.eraseIdx row) ((t'.onRows t.rows).destination g row) g.id := by
  refine c.fits (fun i a hi ha => ?_) fun i b hi hb => ?_
  · -- It was below this row already, and is below its class now.
    obtain ⟨h, hh, -, notAbove, -⟩ := c.above hi ha
    have above := sunk.of_not_below notAbove
    obtain ⟨back, may⟩ := c.may_iff hh
    have not : ¬ t'.MayPrecede g.id a := fun ha => may.mp ha above
    refine ⟨fun may => ⟨may, fun _ => not⟩, fun notMay => ?_⟩
    exact absurd (mayPrecede_of_not hh c.live notMay) not
  · obtain ⟨h, hh, other, -⟩ := c.below hi hb
    exact ⟨fun may => ⟨may, fun own => absurd own other⟩,
      fun not => ⟨mayPrecede_of_not c.live hh not, fun _ => not⟩⟩

/-- A group that is of the same class as before goes past none of it. -/
theorem RowChanged.arrives_of_level (c : t.RowChanged t' g before row)
    (notRisen : ¬ t.BelongsAbove g before) (notSunk : ¬ t.BelongsAbove before g) :
    Fits t'.Arrives (t.rows.eraseIdx row) ((t'.onRows t.rows).destination g row) g.id := by
  refine c.fits (fun i a hi ha => ?_) fun i b hi hb => ?_
  · obtain ⟨h, hh, -, notAbove, earlier⟩ := c.above hi ha
    obtain ⟨may, back⟩ := c.may_iff hh
    constructor
    · refine fun precedes => ⟨precedes, fun follows => earlier fun above => ?_⟩
      exact back.mp follows (above.of_not_above notRisen)
    · exact fun not => absurd (may.mpr fun above => notAbove (above.of_not_below notRisen)) not
  · obtain ⟨h, hh, -, notAbove, later⟩ := c.below hi hb
    obtain ⟨back, may⟩ := c.may_iff hh
    constructor
    · refine fun precedes => ⟨precedes, fun follows => later fun above => ?_⟩
      exact back.mp follows (above.of_not_below notSunk)
    · exact fun not => absurd (may.mpr fun above => notAbove (above.of_not_above notSunk)) not

theorem RowChanged.jumpsPast_iff (c : t.RowChanged t' g before row) {h : Group} :
    t.JumpsPast g h ↔ t.SameClass g h ∧
      (t.BelongsAbove g before ∧ g.id.val < h.id.val ∨
        t.BelongsAbove before g ∧ h.id.val < g.id.val) := by
  have own : before.id = g.id := GroupIndex.id_of_group? c.was
  have visible : before ∈ t.visibleGroups :=
    mem_visibleGroups_iff.mpr ⟨own ▸ List.mem_of_getElem? c.atRow, own ▸ c.was⟩
  refine and_congr_right fun _ => ⟨?_, fun past => .inr ⟨before, visible, own, past⟩⟩
  rintro (⟨noRow, -⟩ | ⟨k, hk, same, past⟩)
  · exact absurd (List.mem_of_getElem? c.atRow) noRow
  · obtain rfl := eq_of_visible hk visible (same.trans own.symm)
    exact past

/-- A row that is looked for anew stands right unless its group jumps. -/
theorem RowChanged.moved_iff (c : t.RowChanged t' g before row) :
    ((t.rows.eraseIdx row).insertIdx ((t'.onRows t.rows).destination g row) g.id).Pairwise
        t'.Arrives ↔
      ¬ ∃ h ∈ t.visibleGroups, t.JumpsPast g h := by
  have sub := List.eraseIdx_sublist t.rows row
  have mem := mem_eraseIdx_iff c.placed.rows_nodup c.atRow
  simp only [c.jumpsPast_iff, not_exists, not_and]
  by_cases risen : t.BelongsAbove g before
  · have notSunk : ¬ t.BelongsAbove before g := risen.asymm
    rw [c.last_iff sub mem (c.last_of_risen risen)]
    refine forall₂_congr fun h hh => ?_
    simp only [risen, notSunk, true_and, false_and, or_false, not_lt, GroupId.le_iff]
    exact forall_comm
  · by_cases sunk : t.BelongsAbove before g
    · rw [c.first_iff sub mem (c.first_of_sunk sunk)]
      refine forall₂_congr fun h hh => ?_
      simp only [risen, sunk, true_and, false_and, false_or, not_lt, GroupId.le_iff, ne_comm]
      exact forall_comm
    · refine iff_of_true ?_ fun h _ _ past => ?_
      · have fresh : g.id ∉ t.rows.eraseIdx row := fun hmem => ((mem g.id).mp hmem).1 rfl
        exact (c.arrives_of_level risen sunk).pairwise (c.others sub fresh) fun _ _ _ => Arrives.trans
      · exact past.elim (fun up => risen up.1) fun down => sunk down.1

end Moved

/-! ## Commands -/

theorem Ordered.rowChange_follows_iff (h : t.Ordered) (h' : t'.Ordered) (unsorted : t.sort = none)
    (follows : t.FollowsArrival) (settings : t.SameSettings t') (hc : t.RowChange t') :
    t'.FollowsArrival ↔ ¬ t.Jumps t' := by
  have arrives := (h.sorted.followsArrival_iff unsorted).mp follows
  rw [h'.sorted.followsArrival_iff (settings.sort.trans unsorted)]
  cases hc with
  | kept rows same =>
      rw [rows]
      refine iff_of_true (arrives_carried settings same arrives) (not_jumps_of_same fun k hk => ?_)
      rw [rows] at hk
      exact ⟨hk, same k hk⟩
  | removed id row atRow rows same =>
      have mem := mem_eraseIdx_iff h.rows_nodup atRow
      have sub := List.eraseIdx_sublist t.rows row
      rw [rows]
      refine iff_of_true ?_ (not_jumps_of_same fun k hk => ?_)
      · exact arrives_carried settings (fun k hk => same k ((mem k).mp hk).1) (arrives.sublist sub)
      · rw [rows] at hk
        exact ⟨((mem k).mp hk).2, same k ((mem k).mp hk).1⟩
  | shown g noRow live same rows =>
      have mem (k : GroupId) : k ∈ t'.rows ↔ k = g.id ∨ k ∈ t.rows := by
        rw [rows]
        exact List.mem_insertIdx ((t'.onRows t.rows).insertionRow_le g)
      have c : t.OneChanged t' g := ⟨h.toPlaced, unsorted, arrives, settings, live, same⟩
      have visible := mem_visibleGroups_iff.mpr ⟨(mem g.id).mpr (.inl rfl), live⟩
      rw [jumps_iff_of_one unsorted visible same fun k hk other => ((mem k).mp hk).resolve_left other,
        rows]
      exact c.shown_iff noRow
  | moved g row atRow live same moves rows =>
      have mem (k : GroupId) : k ∈ t'.rows ↔ k ∈ t.rows := by
        rw [rows]
        exact (relocate_perm (t := t'.onRows t.rows) atRow).mem_iff
      obtain ⟨before, was⟩ := h.live_of_row (List.mem_of_getElem? atRow)
      have c : t.RowChanged t' g before row :=
        ⟨⟨h.toPlaced, unsorted, arrives, settings, live, same⟩, atRow, was⟩
      have visible :=
        mem_visibleGroups_iff.mpr ⟨(mem g.id).mpr (List.mem_of_getElem? atRow), live⟩
      rw [jumps_iff_of_one unsorted visible same fun k hk _ => (mem k).mp hk, rows]
      exact c.moved_iff
  | left g row atRow live same stays =>
      -- Rows that follow their groups are always looked for anew.
      rw [h.follows] at stays
      cases stays

theorem pairwise_arrives_ids {groups : List Group} (live : ∀ g ∈ groups, t.group? g.id = some g)
    (inOrder : groups.Pairwise fun g h => g.id.val < h.id.val) :
    ((t.order.sorted groups).map Group.id).Pairwise t.Arrives := by
  have live' (g : Group) (hg : g ∈ t.order.sorted groups) : t.group? g.id = some g :=
    live g ((t.order.sorted_perm groups).mem_iff.mp hg)
  have both := (t.order.sorted_pairwise groups).and (t.order.sorted_stable inOrder)
  refine List.pairwise_map.mpr (both.imp_of_mem fun {g h} hg hh hgh => ?_)
  refine ⟨(mayPrecede_iff (live' g hg) (live' h hh)).mpr hgh.1, fun back => hgh.2 ?_⟩
  exact (mayPrecede_iff (live' h hh) (live' g hg)).mp back

/-- Deciding over all groups leaves rows that may stand either way in the order of arrival. -/
theorem rebuild_arrives (coherent : t.index.Coherent) : t.rebuild.table.rows.Pairwise t.Arrives := by
  simp only [rebuild, List.partition_eq_filter_filter]
  refine pairwise_arrives_ids (fun g hg => ?_) ((List.pairwise_map.mp coherent.increasing).filter _)
  exact coherent.group?_of_mem (List.mem_of_mem_filter hg)

/-- So does sorting rows that stand in the order of arrival. -/
theorem Placed.resort_arrives (h : t.Placed) (inOrder : t.rows.Pairwise (·.val < ·.val)) :
    t.resort.table.rows.Pairwise t.Arrives := by
  rw [h.resort_rows]
  refine pairwise_arrives_ids (fun g hg => live_of_visible hg) ?_
  rwa [← h.visibleGroups_ids, List.pairwise_map] at inOrder

theorem rebuild_follows (coherent : t.index.Coherent) : t.rebuild.table.FollowsArrival :=
  fun unsorted =>
    ((rebuild_sorted coherent).followsArrival_iff unsorted).mpr (rebuild_arrives coherent) unsorted

theorem Placed.clearSort_follows (h : t.Placed) : t.clearSort.table.FollowsArrival := by
  let arrived := (t.index.groups.map Group.id).filter t.rows.contains
  have placed : { t with sort := none, rows := arrived }.Placed :=
    ⟨h.coherent, (h.arrival_perm.append_right _).trans h.placed⟩
  have arrives := placed.resort_arrives (h.coherent.increasing.filter _)
  exact fun unsorted => (placed.resort_sorted.followsArrival_iff unsorted).mpr arrives unsorted

/-- What is done to the table as a whole leaves rows that followed arrival to do so. -/
theorem FollowsArrival.globalCommand (follows : t.FollowsArrival) (placed : t.Placed)
    {c : TableCommand} (hc : c.isLocal = false) : (t.perform c).table.FollowsArrival := by
  cases c with
  | setFilter filter => exact rebuild_follows (t := { t with filter }) placed.coherent
  | filtersChanged => exact rebuild_follows placed.coherent
  | setJunkPolicy junkPolicy =>
      simp only [perform, setJunkPolicy]
      split
      · exact follows
      · exact rebuild_follows (t := { t with junkPolicy }) placed.coherent
  | setSpamThreshold threshold =>
      simp only [perform, setSpamThreshold]
      split
      · exact follows
      · exact rebuild_follows (t := { t with junk := .ofThreshold threshold }) placed.coherent
  | setSort key direction =>
      intro unsorted
      cases unsorted
  | clearSort => exact placed.clearSort_follows
  | clear =>
      intro _ i j g k _ hg
      cases hg
  | select id =>
      simp only [perform, select]
      split <;> exact follows
  | driftFilter | setRealTimeSort | setGrouping | deselect | clearSelection | takeRejected =>
      exact follows
  | _ => cases hc

/-! ## Runs -/

theorem Ordered.perform_follows_iff (h : t.Ordered) (follows : t.FollowsArrival) (c : TableCommand)
    (on : c ≠ .setRealTimeSort false) :
    (t.perform c).table.FollowsArrival ↔
      ¬ (c.isLocal = true ∧ t.Jumps (t.perform c).table) := by
  cases hc : c.isLocal with
  | false => exact iff_of_true (follows.globalCommand h.toPlaced hc) fun jumps => by cases jumps.1
  | true =>
      have change := perform_local h.toPlaced hc
      have settings := change.settings
      simp only [true_and]
      by_cases unsorted : t.sort = none
      · exact h.rowChange_follows_iff (h.perform c on) unsorted follows settings
          (change.rowChange h.toPlaced)
      · refine iff_of_true (fun unsorted' => ?_) fun jumps => unsorted jumps.1
        exact absurd (settings.sort.symm.trans unsorted') unsorted

/-- Rows that follow arrival are those that deciding over all groups would leave. -/
theorem Current.follows_iff {w : Wishes} (h : t.Current w) (sorted : t.Sorted)
    (unsorted : t.sort = none) : t.FollowsArrival ↔ t.rows = t.rebuild.table.rows := by
  rw [sorted.followsArrival_iff unsorted]
  constructor
  · intro arrives
    have : Std.Antisymm t.Arrives :=
      ⟨fun a b hab hba => absurd (hab.2 hba.1) (hba.2 hab.1).not_gt⟩
    have : Std.Irrefl t.Arrives := ⟨fun a ha => (ha.2 ha.1).false⟩
    refine arrives.eq_of_mem_iff (rebuild_arrives h.coherent) fun id => ?_
    cases hg : t.group? id with
    | some g => exact (h.judged id g hg).trans (rebuild_judged h.coherent id g hg).symm
    | none => exact iff_of_false (h.not_row hg) ((rebuild_balanced h.coherent).not_row hg)
  · intro same
    rw [same]
    exact rebuild_arrives h.coherent

/-- While rows follow their groups, whatever is done: in all states of a run without a sort order the
rows of each class stand in the order of arrival exactly when no command lets a group jump past
another one. If the filter does not drift, these are the states in which deciding over all groups
would leave the rows as they are. -/
theorem rows_follow_arrival_until_jump (options : Options) (registry : Registry)
    (commands : List TableCommand) (on : options.realTimeSort = true)
    (staysOn : .setRealTimeSort false ∉ commands) :
    let state n := (new options registry).after (commands.take n)
    ((∀ n, (state n).FollowsArrival) ↔ ∀ n c, commands[n]? = some c →
      ¬ (c.isLocal = true ∧ (state n).Jumps ((state n).perform c).table)) ∧
    ((∀ filter, .driftFilter filter ∉ commands) → ∀ n, (state n).sort = none →
      ((state n).FollowsArrival ↔ (state n).rows = (state n).rebuild.table.rows)) := by
  intro state
  have ordered (n : Nat) : (state n).Ordered :=
    after_ordered registry on fun off => staysOn (List.mem_of_mem_take off)
  constructor
  · have start : (new options registry).FollowsArrival := fun _ _ _ _ _ _ hg => by cases hg
    refine holds_throughout_iff FollowsArrival
      (fun t c => c.isLocal = true ∧ t.Jumps (t.perform c).table) start ?_
    intro n c hc follows
    refine (ordered n).perform_follows_iff follows c ?_
    rintro rfl
    exact staysOn (List.mem_of_getElem? hc)
  · intro told n unsorted
    have current : (state n).Current _ := (new_current options registry).after
      fun filter drift => told filter (List.mem_of_mem_take drift)
    exact current.follows_iff (ordered n).sorted unsorted

/-- A group that is hidden as junk and comes back goes below all others, which is the place of the
last one to arrive. -/
theorem rows_follow_arrival_after_pardon :
    let commands := [.add { fileName := "a", size := 1 }, .add { fileName := "b", size := 2 },
      .markJunk ⟨1⟩ true, .markJunk ⟨1⟩ false]
    let t := (new {} .empty).after commands
    t.rows = [⟨0⟩, ⟨1⟩] ∧ t.rebuild.table.rows = [⟨0⟩, ⟨1⟩] := by
  intro commands t
  have told (filter : Group → Bool) : .driftFilter filter ∉ commands := by simp [commands]
  have rows : t.rows = [⟨0⟩, ⟨1⟩] := by decide +kernel
  have follows : t.FollowsArrival := by
    refine followsArrival_of_increasing ?_
    rw [rows]
    decide
  have rebuilt := ((rows_follow_arrival_until_jump {} .empty commands rfl (by simp [commands])).2
    told 4 (by decide +kernel)).mp follows
  exact ⟨rows, rebuilt.symm.trans rows⟩

/-- The first group to arrive is hidden as junk, comes back, and stands below the second. -/
theorem pardoned_group_comes_back_late :
    let t := (new {} .empty).after
      [.add { fileName := "a", size := 1 }, .add { fileName := "b", size := 2 },
        .markJunk ⟨0⟩ true, .markJunk ⟨0⟩ false]
    t.sort = none ∧ t.rows = [⟨1⟩, ⟨0⟩] ∧ ¬ t.FollowsArrival ∧ t.rows ≠ t.rebuild.table.rows := by
  intro t
  have unsorted : t.sort = none := by decide +kernel
  have late : ¬ t.FollowsArrival := by
    intro follows
    have upper : (t.row? 0).any (fun g => g.id == ⟨1⟩ && !g.isPromoted) = true := by decide +kernel
    have lower : (t.row? 1).any (fun h => h.id == ⟨0⟩ && !h.isPromoted) = true := by decide +kernel
    simp only [Option.any_eq_true, Bool.and_eq_true, beq_iff_eq, Bool.not_eq_true'] at upper lower
    obtain ⟨g, hg, gid, ordinary⟩ := upper
    obtain ⟨h, hh, hid, ordinary'⟩ := lower
    have policy : t.junkPolicy ≠ .sink := by decide +kernel
    have same : t.SameClass g h := ⟨ordinary.trans ordinary'.symm, fun sink => absurd sink policy⟩
    have earlier := follows unsorted 0 1 g h (by decide) hg hh same
    rw [gid, hid] at earlier
    exact absurd earlier (by decide)
  have current : t.Current _ := (new_current {} .empty).after (by simp)
  have ordered : t.Ordered := after_ordered .empty rfl (by simp)
  refine ⟨unsorted, by decide +kernel, late, fun same => late ?_⟩
  exact (current.follows_iff ordered.sorted unsorted).mpr same

end Table

end PeerSearch
