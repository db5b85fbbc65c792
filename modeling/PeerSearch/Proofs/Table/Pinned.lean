import PeerSearch.Proofs.RowOrder.Classes
import PeerSearch.Proofs.Runs
import PeerSearch.Proofs.Table.RowChange
import PeerSearch.Proofs.Table.Sorted

/-!
# PeerSearch.Proofs.Table.Pinned -- promoted rows on top, sunk junk at the bottom

Whatever the rows are sorted by, promoted groups belong above all others and, where junk sinks, junk
belongs below. New rows and rows that move are put where they stand in order with their neighbours,
so they keep the classes apart even where rows of one class are in no order. What can mix classes is
a row that is left where it stands although its group belongs to another class now: while rows do not
follow their groups, only junk that sinks is moved.
-/

namespace PeerSearch

theorem Fits.imp {α : Type} {R S : α → α → Prop} {l : List α} {i : Nat} {x : α} (h : Fits R l i x)
    (weaker : ∀ a b, R a b → S a b) : Fits S l i x where
  within := h.within
  above j a hj ha := weaker a x (h.above j a hj ha)
  below b hb := weaker x b (h.below b hb)

variable {t : Table}

namespace Table

/-! ## Classes -/

/-- A group is of a class above that of another group: it is promoted and the other one is not, or
both are alike in that, junk sinks, and only the other one is junk. -/
def BelongsAbove (t : Table) (g h : Group) : Prop :=
  (g.isPromoted = true ∧ h.isPromoted = false) ∨
    (g.isPromoted = h.isPromoted ∧ t.junkPolicy = .sink ∧
      t.junk.isJunk g = false ∧ t.junk.isJunk h = true)

/-- Every row stands above the rows of the classes below its own. -/
def ClassesApart (t : Table) : Prop :=
  ∀ i j g h, t.row? i = some g → t.row? j = some h → t.BelongsAbove g h → i < j

/-- The table without its sort order, so that rows compare by their classes alone. -/
def byClass (t : Table) : Table :=
  { t with sort := none }

theorem compareGroups_eq (t : Table) (g h : Group) : t.order.compareGroups g h =
    (t.byClass.order.compareGroups g h).then
      (match t.sort with
        | some order => order.direction.apply (order.key.compareGroups g h)
        | none => .eq) :=
  t.order.compareGroups_eq_then g h

theorem belongsAbove_iff {g h : Group} :
    t.BelongsAbove g h ↔ t.byClass.order.compareGroups g h = .lt := by
  by_cases sink : t.junkPolicy = .sink
  · have order : t.byClass.order = ⟨none, some t.junk⟩ := by simp [byClass, Table.order, sink]
    simp only [BelongsAbove, order, RowOrder.compareGroups, Ordering.then_eq, Ordering.then_eq_lt,
      compare_toNat_lt_iff, compare_toNat_eq_iff, eq_comm (a := h.isPromoted), sink, true_and,
      and_comm]
  · have order : t.byClass.order = ⟨none, none⟩ := by simp [byClass, Table.order, sink]
    simp only [BelongsAbove, order, RowOrder.compareGroups, Ordering.then_eq, compare_toNat_lt_iff,
      sink, false_and, or_false, and_comm]

theorem not_belongsAbove_self (g : Group) : ¬ t.BelongsAbove g g := by
  have self : t.byClass.order.compareGroups g g = .eq := Std.ReflCmp.compare_self
  rw [belongsAbove_iff, self]
  decide

theorem not_belongsAbove_iff {g h : Group} :
    ¬ t.BelongsAbove h g ↔ t.byClass.order.allowsAbove g h = true := by
  rw [belongsAbove_iff, RowOrder.allowsAbove_iff, ← Std.OrientedCmp.gt_iff_lt, ne_eq]

/-- A row that may stand above another one may do so by its class. -/
theorem MayPrecede.byClass {a b : GroupId} (h : t.MayPrecede a b) : t.byClass.MayPrecede a b := by
  obtain ⟨g, h, hg, hh, above⟩ := h
  refine ⟨g, h, hg, hh, ?_⟩
  rw [RowOrder.allowsAbove_iff] at above ⊢
  intro gt
  rw [compareGroups_eq, gt] at above
  exact above rfl

theorem Placed.row?_some (h : t.Placed) {i : Nat} (hi : i < t.rows.length) :
    ∃ g, t.row? i = some g ∧ t.group? t.rows[i] = some g := by
  obtain ⟨g, hg⟩ := h.live_of_row (List.getElem_mem hi)
  refine ⟨g, ?_, hg⟩
  rw [row?, List.getElem?_eq_getElem hi]
  exact hg

theorem row?_eq_some_iff {i : Nat} {g : Group} :
    t.row? i = some g ↔ ∃ id, t.rows[i]? = some id ∧ t.group? id = some g :=
  Option.bind_eq_some_iff

/-- Classes stand apart when the rows are in order but for the sort order. -/
theorem Placed.classesApart_iff (placed : t.Placed) : t.ClassesApart ↔ t.byClass.Sorted := by
  constructor
  · intro apart
    refine List.pairwise_iff_getElem.mpr fun i j hi hj hij => ?_
    obtain ⟨g, hg, hig⟩ := placed.row?_some hi
    obtain ⟨h, hh, hjh⟩ := placed.row?_some hj
    refine ⟨g, h, hig, hjh, not_belongsAbove_iff.mp fun above => ?_⟩
    exact absurd (apart j i h g hh hg above) hij.not_gt
  · intro sorted i j g h hg hh above
    by_contra notAbove
    obtain ⟨a, ha, hag⟩ := row?_eq_some_iff.mp hg
    obtain ⟨b, hb, hbh⟩ := row?_eq_some_iff.mp hh
    rcases (not_lt.mp notAbove).eq_or_lt with rfl | hlt
    · obtain rfl := Option.some.inj (hg.symm.trans hh)
      exact not_belongsAbove_self g above
    · obtain ⟨hi, rfl⟩ := List.getElem?_eq_some_iff.mp ha
      obtain ⟨hj, rfl⟩ := List.getElem?_eq_some_iff.mp hb
      obtain ⟨h', g', hh', hg', may⟩ := List.pairwise_iff_getElem.mp sorted j i hj hi hlt
      obtain rfl := Option.some.inj (hag.symm.trans hg')
      obtain rfl := Option.some.inj (hbh.symm.trans hh')
      exact not_belongsAbove_iff.mpr may above

/-! ## Rows that are left behind -/

/-- From the one table to the other, a row is left where it stood although the class of its group is
now above that of a row further up, or below that of a row further down: rows do not follow their
groups, and the group is not junk that sinks. -/
def Strands (t t' : Table) : Prop :=
  t.realTimeSort = false ∧
    ∃ i id g, t.rows[i]? = some id ∧ id ∈ t'.rows ∧ t'.group? id = some g ∧ t.sinks g = false ∧
      ∃ j h, t.row? j = some h ∧ (t.BelongsAbove g h ∧ j < i ∨ t.BelongsAbove h g ∧ i < j)

/-- A row is left behind only when its group changes and the row is not looked for anew. -/
theorem ClassesApart.not_strands {t' : Table} (apart : t.ClassesApart)
    (moved : ∀ id ∈ t.rows, id ∈ t'.rows → t'.group? id = t.group? id ∨
      ∀ g, t'.group? id = some g → (t.realTimeSort || t.sinks g) = true) : ¬ t.Strands t' := by
  rintro ⟨off, i, id, g, hi, hrow, hg, stays, j, h, hj, wrong⟩
  rcases moved id (List.mem_of_getElem? hi) hrow with same | moves
  · have hi : t.row? i = some g := row?_eq_some_iff.mpr ⟨id, hi, same.symm.trans hg⟩
    rcases wrong with ⟨above, hji⟩ | ⟨below, hij⟩
    · exact absurd (apart i j g h hi hj above) hji.not_gt
    · exact absurd (apart j i h g hj hi below) hij.not_gt
  · have := moves g hg
    rw [off, stays] at this
    exact Bool.false_ne_true this

/-- Of a row that stays where it is, the classes tell whether it is left behind. -/
theorem ClassesApart.stays_iff {t' : Table} {g : Group} {row : Nat} (apart : t.ClassesApart)
    (settings : t.SameSettings t') (nodup : t.rows.Nodup) (atRow : t.rows[row]? = some g.id)
    (live : t'.group? g.id = some g) (same : ∀ k ≠ g.id, t'.group? k = t.group? k)
    (stays : (t.realTimeSort || t.sinks g) = false) (rows : t'.rows = t.rows) :
    t'.ClassesApart ↔ ¬ t.Strands t' := by
  have classes (g h : Group) : t'.BelongsAbove g h ↔ t.BelongsAbove g h := by
    rw [BelongsAbove, settings.junkPolicy, settings.junk, BelongsAbove]
  obtain ⟨off, stays⟩ := Bool.or_eq_false_iff.mp stays
  have own : t'.row? row = some g := by
    rw [row?, rows, atRow]
    exact live
  have others {j : Nat} (hj : j ≠ row) : t'.row? j = t.row? j := by
    rw [row?, row?, rows]
    cases hid : t.rows[j]? with
    | none => rfl
    | some id =>
        refine same id ?_
        rintro rfl
        obtain ⟨hlt, -⟩ := List.getElem?_eq_some_iff.mp hid
        exact hj ((List.getElem?_inj hlt nodup).mp (hid.trans atRow.symm))
  constructor
  · rintro apart' ⟨-, k, id, g', hk, -, hg', -, j, h, hj, wrong⟩
    have hk' : t'.row? k = some g' := by
      rw [row?, rows, hk]
      exact hg'
    by_cases here : k = row
    · -- The row that stays is compared with another one, whose group is the same as before.
      have hj' : t'.row? j = some h := by
        refine (others ?_).trans hj
        rintro rfl
        rcases wrong with wrong | wrong <;> exact absurd wrong.2 (by omega)
      rcases wrong with ⟨above, hjk⟩ | ⟨below, hkj⟩
      · exact absurd (apart' k j g' h hk' hj' ((classes g' h).mpr above)) hjk.not_gt
      · exact absurd (apart' j k h g' hj' hk' ((classes h g').mpr below)) hkj.not_gt
    · rw [others here] at hk'
      rcases wrong with ⟨above, hjk⟩ | ⟨below, hkj⟩
      · exact absurd (apart k j g' h hk' hj above) hjk.not_gt
      · exact absurd (apart j k h g' hj hk' below) hkj.not_gt
  · intro none a b x y ha hb above
    rw [classes] at above
    have behind {j : Nat} {h : Group} (hj : t.row? j = some h)
        (wrong : t.BelongsAbove g h ∧ j < row ∨ t.BelongsAbove h g ∧ row < j) : False :=
      none ⟨off, row, g.id, g, atRow, rows ▸ List.mem_of_getElem? atRow, live, stays, j, h, hj, wrong⟩
    by_contra notAbove
    by_cases hrow : a = row <;> by_cases hrow' : b = row
    · subst hrow hrow'
      obtain rfl := Option.some.inj (ha.symm.trans hb)
      exact not_belongsAbove_self x above
    · subst hrow
      obtain rfl := Option.some.inj (own.symm.trans ha)
      rw [others hrow'] at hb
      exact behind hb (.inl ⟨above, by omega⟩)
    · subst hrow'
      obtain rfl := Option.some.inj (own.symm.trans hb)
      rw [others hrow] at ha
      exact behind ha (.inr ⟨above, by omega⟩)
    · rw [others hrow] at ha
      rw [others hrow'] at hb
      exact notAbove (apart a b x y ha hb above)

/-! ## Commands -/

theorem SameSettings.byClass {t' : Table} (h : t.SameSettings t') :
    t.byClass.SameSettings t'.byClass :=
  ⟨h.filter, h.junkPolicy, h.junk, rfl, h.realTimeSort⟩

/-- Rows that are put where they fit keep the classes apart, and a row that stays where it is does so
unless it is left behind. -/
theorem ClassesApart.rowChange_iff {t' : Table} (apart : t.ClassesApart) (placed : t.Placed)
    (placed' : t'.Placed) (settings : t.SameSettings t') (hc : t.RowChange t') :
    t'.ClassesApart ↔ ¬ t.Strands t' := by
  have carried {part : List GroupId} (sub : part.Sublist t.rows)
      (same : ∀ k ∈ part, t'.group? k = t.group? k) : part.Pairwise t'.byClass.MayPrecede :=
    pairwise_carried (t := t.byClass) settings.byClass.order same
      ((placed.classesApart_iff.mp apart).sublist sub)
  have put {rows : List GroupId} (eq : t'.rows = rows)
      (sorted : rows.Pairwise t'.byClass.MayPrecede) (moved : ∀ id ∈ t.rows, id ∈ rows →
        t'.group? id = t.group? id ∨
          ∀ g, t'.group? id = some g → (t.realTimeSort || t.sinks g) = true) :
      t'.ClassesApart ↔ ¬ t.Strands t' := by
    subst eq
    exact iff_of_true (placed'.classesApart_iff.mpr sorted) (apart.not_strands moved)
  cases hc with
  | kept rows same => exact put rows (carried (.refl _) same) fun id hid _ => .inl (same id hid)
  | removed id row atRow rows same =>
      have mem := mem_eraseIdx_iff placed.rows_nodup atRow
      have others (k : GroupId) (hk : k ∈ t.rows.eraseIdx row) : t'.group? k = t.group? k :=
        same k ((mem k).mp hk).1
      exact put rows (carried (List.eraseIdx_sublist _ _) others) fun k _ hk => .inl (others k hk)
  | shown g noRow live same rows =>
      have others (k : GroupId) (hk : k ∈ t.rows) : t'.group? k = t.group? k := by
        refine same k ?_
        rintro rfl
        exact noRow hk
      have fits := (insertionRow_fits (t := t'.onRows t.rows) (placed.live_of_same live same) live).imp
        fun _ _ => MayPrecede.byClass
      refine put rows ?_ fun k hk _ => .inl (others k hk)
      exact fits.pairwise (carried (.refl _) others) fun _ _ _ => MayPrecede.trans
  | moved g row atRow live same moves rows =>
      obtain ⟨hlt, -⟩ := List.getElem?_eq_some_iff.mp atRow
      have mem := mem_eraseIdx_iff placed.rows_nodup atRow
      have rest := carried (List.eraseIdx_sublist t.rows row) fun k hk => same k ((mem k).mp hk).1
      have fits := (destination_fits (t := t'.onRows t.rows) (placed.live_of_same live same) live
        hlt).imp fun _ _ => MayPrecede.byClass
      refine put rows (fits.pairwise rest fun _ _ _ => MayPrecede.trans) fun k _ _ => ?_
      by_cases own : k = g.id
      · refine .inr fun g' hg' => ?_
        obtain rfl := Option.some.inj (live.symm.trans (own ▸ hg'))
        exact moves
      · exact .inl (same k own)
  | left g row atRow live same stays rows =>
      exact apart.stays_iff settings placed.rows_nodup atRow live same stays rows

theorem Sorted.classesApart (sorted : t.Sorted) (placed : t.Placed) : t.ClassesApart :=
  placed.classesApart_iff.mpr (sorted.imp MayPrecede.byClass)

/-- Deciding over all groups and sorting put the classes apart, and nothing else that is done to the
table as a whole touches them. -/
theorem ClassesApart.globalChange_iff (apart : t.ClassesApart) (placed : t.Placed)
    {c : TableCommand} {change : Change} (placed' : change.table.Placed)
    (hc : t.GlobalChange c change) : change.table.ClassesApart ↔ ¬ t.Strands change.table := by
  have groups (id : GroupId) (hrow : id ∈ change.table.rows) :
      change.table.group? id = t.group? id := by
    cases hc with
    | cleared => cases hrow
    | _ => rfl
  refine iff_of_true ?_ (apart.not_strands fun id _ hrow => .inl (groups id hrow))
  cases hc with
  | rebuilt filter junkPolicy junk =>
      have sorted := rebuild_sorted (t := { t with filter, junkPolicy, junk }) placed.coherent
      exact sorted.classesApart placed'
  | resorted sort rows same =>
      have before : { t with sort, rows }.Placed :=
        ⟨placed.coherent, (same.append_right _).trans placed.placed⟩
      exact before.resort_sorted.classesApart placed'
  | cleared => exact Sorted.classesApart .nil placed'
  | adjusted => exact apart

theorem ClassesApart.perform_iff (apart : t.ClassesApart) (balanced : t.Balanced)
    (c : TableCommand) :
    (t.perform c).table.ClassesApart ↔ ¬ t.Strands (t.perform c).table := by
  have placed := balanced.toPlaced
  have placed' := (balanced.perform c).toPlaced
  cases hc : c.isLocal with
  | true =>
      have change := perform_local placed hc
      exact apart.rowChange_iff placed placed' change.settings (change.rowChange placed)
  | false => exact apart.globalChange_iff placed placed' (perform_global placed hc)

/-! ## Runs -/

/-- Whatever is done, with rows that follow their groups or not: in all states of a run promoted rows
stand above all others and, where junk sinks, junk below, exactly when no command leaves a row
behind. So they do where rows follow their groups all along, and deciding over all groups or sorting
the rows puts the classes apart again. -/
theorem classes_apart_until_stranded (options : Options) (registry : Registry)
    (commands : List TableCommand) :
    let state n := (new options registry).after (commands.take n)
    ((∀ n, (state n).ClassesApart) ↔
      ∀ n c, commands[n]? = some c → ¬ (state n).Strands ((state n).perform c).table) ∧
    (options.realTimeSort = true → .setRealTimeSort false ∉ commands →
      ∀ n, (state n).ClassesApart) ∧
    ∀ n, (state n).rebuild.table.ClassesApart ∧ (state n).resort.table.ClassesApart := by
  intro state
  have balanced (n : Nat) : (state n).Balanced := after_balanced options registry (commands.take n)
  refine ⟨?_, fun on staysOn n => ?_, fun n => ⟨?_, ?_⟩⟩
  · have start : (new options registry).ClassesApart := fun _ _ _ _ hg => by cases hg
    refine holds_throughout_iff ClassesApart (fun t c => t.Strands (t.perform c).table) start ?_
    intro n c _ apart
    exact apart.perform_iff (balanced n) c
  · have ordered : (state n).Ordered :=
      after_ordered registry on fun off => staysOn (List.mem_of_mem_take off)
    exact ordered.sorted.classesApart ordered.toPlaced
  · exact (rebuild_sorted (balanced n).coherent).classesApart
      (rebuild_balanced (balanced n).coherent).toPlaced
  · exact (balanced n).resort_sorted.classesApart (balanced n).resort.toPlaced

/-- A group that is junk no more stays below one that still is, where rows do not follow their
groups. -/
theorem pardoned_row_stays_below_junk :
    let t := (new { junkPolicy := .sink, realTimeSort := false } .empty).after
      [.add { fileName := "a", size := 1, spamScore := .one },
        .add { fileName := "b", size := 2, spamScore := .one }, .markJunk ⟨1⟩ false]
    t.rows = [⟨0⟩, ⟨1⟩] ∧ ¬ t.ClassesApart := by
  intro t
  refine ⟨by decide +kernel, fun apart => ?_⟩
  have pardoned : (t.row? 1).any (fun g => !g.isPromoted && !t.junk.isJunk g) = true := by
    decide +kernel
  have junk : (t.row? 0).any (fun h => !h.isPromoted && t.junk.isJunk h) = true := by
    decide +kernel
  simp only [Option.any_eq_true, Bool.and_eq_true, Bool.not_eq_true'] at pardoned junk
  obtain ⟨g, hg, ordinary, clean⟩ := pardoned
  obtain ⟨h, hh, ordinary', sunk⟩ := junk
  have policy : t.junkPolicy = .sink := by decide +kernel
  have above : t.BelongsAbove g h := .inr ⟨ordinary.trans ordinary'.symm, policy, clean, sunk⟩
  exact absurd (apart 1 0 g h hg hh above) (by decide)

end Table

end PeerSearch
