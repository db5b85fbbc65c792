import PeerSearch.Proofs.Table.Counts

/-!
# PeerSearch.Proofs.Table.Visibility -- who is shown

A group is in a row just when the filter lets it through and it is not kept out as junk, judged by
what the group is now. Operations on one group decide over that group again and need not look at the
others; whatever changes the judgement decides over all groups. A policy or a threshold that seems
the same as before is not set again, which is right because it judges every group the same.
-/

namespace PeerSearch

/-! ## Junk thresholds -/

namespace Binary32

theorem le_of_sameValue {x y : Binary32} (same : x.sameValue y = true) (z : Binary32) :
    x.le z = y.le z := by
  simp only [sameValue, le, Bool.and_eq_true, Bool.not_eq_true', decide_eq_true_eq] at same
  obtain ⟨⟨⟨hx, hy⟩, hxy⟩, -, hyx⟩ := same
  have key : x.numericKey = y.numericKey := Int.le_antisymm hxy hyx
  simp only [le, hx, hy, key]

end Binary32

/-- Classifiers with equal thresholds take the same groups for junk. -/
theorem JunkFilter.isJunk_of_same {a b : JunkFilter} (same : a.same b = true) (g : Group) :
    a.isJunk g = b.isJunk g := by
  unfold JunkFilter.isJunk
  rw [Binary32.le_of_sameValue same]

/-! ## What a user has asked for -/

/-- The filter, the policy and the threshold that were set last. -/
structure Wishes where
  filter : Group → Bool
  junkPolicy : JunkPolicy
  threshold : Binary32

namespace Wishes

def ofOptions (options : Options) : Wishes where
  filter _ := true
  junkPolicy := options.junkPolicy
  threshold := options.spamThreshold

/-- What is asked for after a command. -/
def heed (w : Wishes) : TableCommand → Wishes
  | .setFilter filter => { w with filter }
  | .setJunkPolicy junkPolicy => { w with junkPolicy }
  | .setSpamThreshold threshold => { w with threshold }
  | _ => w

/-- Whether a group is to be shown. -/
def Allow (w : Wishes) (g : Group) : Prop :=
  w.filter g = true ∧
    ¬ (w.junkPolicy = .hide ∧ (JunkFilter.ofThreshold w.threshold).isJunk g = true)

end Wishes

variable {t : Table} {w : Wishes}

namespace Table

/-- The table judges groups as it was asked to. -/
structure Heeds (t : Table) (w : Wishes) : Prop where
  filter : t.filter = w.filter
  junkPolicy : t.junkPolicy = w.junkPolicy
  junk : ∀ g, t.junk.isJunk g = (JunkFilter.ofThreshold w.threshold).isJunk g

theorem Heeds.shows_iff (h : t.Heeds w) (g : Group) : t.shows g = true ↔ w.Allow g := by
  simp only [shows, hidesAsJunk, Wishes.Allow, h.filter, h.junkPolicy, h.junk]
  rw [Bool.and_eq_true, Bool.not_eq_true', Bool.and_eq_false_iff, and_comm, not_and_or]
  simp

theorem Heeds.perform (h : t.Heeds w) (placed : t.Placed) (c : TableCommand)
    (told : ∀ filter, c ≠ .driftFilter filter) : (t.perform c).table.Heeds (w.heed c) := by
  cases hc : c.isLocal with
  | true =>
      have same := (perform_local placed hc).settings
      -- An operation on one group is no wish.
      have hw : w.heed c = w := by
        cases c <;> first | rfl | cases hc
      rw [hw]
      exact ⟨same.filter.trans h.filter, same.junkPolicy.trans h.junkPolicy, same.junk ▸ h.junk⟩
  | false =>
      cases c with
      | driftFilter filter => exact absurd rfl (told filter)
      | setFilter filter => exact ⟨rfl, h.junkPolicy, h.junk⟩
      | setJunkPolicy policy =>
          simp only [Table.perform, setJunkPolicy]
          split
          · next same => exact ⟨h.filter, same, h.junk⟩
          · exact ⟨h.filter, rfl, h.junk⟩
      | setSpamThreshold threshold =>
          simp only [Table.perform, setSpamThreshold]
          split
          · -- The table keeps its classifier, though the new threshold may be a zero of the other sign.
            next same => exact ⟨h.filter, h.junkPolicy, JunkFilter.isJunk_of_same same⟩
          · exact ⟨h.filter, h.junkPolicy, fun g => rfl⟩
      | select id =>
          simp only [Table.perform, select]
          split <;> exact ⟨h.filter, h.junkPolicy, h.junk⟩
      | add | removeResult | removeGroup | removeRow | markJunk => cases hc
      | _ => exact ⟨h.filter, h.junkPolicy, h.junk⟩

/-! ## Groups that are judged -/

/-- The rows are the groups that may be shown. -/
def Judged (t : Table) : Prop :=
  ∀ id g, t.group? id = some g → (id ∈ t.rows ↔ t.shows g = true)

/-- The same of every group but the one of that name. -/
def JudgedBut (t : Table) (id : GroupId) : Prop :=
  ∀ k g, k ≠ id → t.group? k = some g → (k ∈ t.rows ↔ t.shows g = true)

theorem Judged.but {t' : Table} {id : GroupId} (h : t.Judged) (rows : t'.rows = t.rows)
    (settings : t.SameSettings t') (others : ∀ k, k ≠ id → t'.group? k = t.group? k) :
    t'.JudgedBut id := by
  intro k g hk hg
  rw [others k hk] at hg
  rw [rows, settings.shows]
  exact h k g hg

/-- Deciding over the one group that is left judges them all. -/
theorem JudgedBut.judged {t' : Table} {g : Group} (h : t.JudgedBut g.id)
    (hg : t.group? g.id = some g) (same : t'.index = t.index) (settings : t.SameSettings t')
    (here : g.id ∈ t'.rows ↔ t.shows g = true)
    (others : ∀ k, k ≠ g.id → (k ∈ t'.rows ↔ k ∈ t.rows)) : t'.Judged := by
  intro k h' hk
  have hk' : t.group? k = some h' := by
    rw [group?, ← same]
    exact hk
  rw [settings.shows]
  by_cases heq : k = g.id
  · subst heq
    obtain rfl := Option.some.inj (hg.symm.trans hk')
    exact here
  · rw [others k heq]
    exact h k h' heq hk'

theorem JudgedBut.settle {g : Group} (h : t.JudgedBut g.id) (placed : t.Placed)
    (hg : t.group? g.id = some g) : (t.settle g).table.Judged := by
  have settings := t.settle_settings g
  have hs := t.settled g
  generalize t.settle g = change at hs settings ⊢
  -- Each case says where the group stands after it and that the others stay where they are.
  cases hs with
  | relocated row facets atRow shown =>
      rw [relocate_table (t := { t with facets }) atRow] at settings ⊢
      have perm := relocate_perm (t := { t with facets }) atRow
      refine h.judged hg rfl settings ?_ fun k _ => perm.mem_iff
      exact iff_of_true (perm.mem_iff.mpr (List.mem_of_getElem? atRow)) shown
  | updated row facets atRow shown =>
      refine h.judged hg rfl settings ?_ fun k _ => Iff.rfl
      exact iff_of_true (List.mem_of_getElem? atRow) shown
  | hid row facets atRow keptOut =>
      have mem := mem_eraseIdx_iff placed.rows_nodup atRow
      refine h.judged hg rfl settings ?_ fun k hk => (mem k).trans (and_iff_right hk)
      exact iff_of_false (fun hmem => ((mem g.id).mp hmem).1 rfl) (by simp [keptOut])
  | unhid facets noRow wasHidden shown =>
      refine h.judged hg rfl settings ?_ fun k hk => ?_
      · exact iff_of_true ((mem_insertionRow g.id).mpr (.inl rfl)) shown
      · exact (mem_insertionRow k).trans (or_iff_right hk)
  | staysHidden facets noRow keptOut =>
      refine h.judged hg rfl settings ?_ fun k _ => Iff.rfl
      have hidden : g.id ∈ t.hidden := placed.hidden_of_live hg noRow
      exact iff_of_false noRow (by simp [keptOut hidden])

/-! ## Commands -/

theorem Judged.localChange (h : t.Judged) (placed : t.Placed) {change : Change}
    (hc : t.LocalChange change) : change.table.Judged := by
  cases hc with
  | kept rejected => exact h
  | started ix g coherent unused alone groups =>
      have found := GroupIndex.group?_of_append unused groups
      have hg : ix.group? g.id = some g := (found g.id).trans (if_pos rfl)
      have but : { t with index := ix }.JudgedBut g.id :=
        h.but rfl ⟨rfl, rfl, rfl, rfl, rfl⟩ fun k hk => (found k).trans (if_neg (Ne.symm hk))
      rcases { t with index := ix }.placeNew_cases g with
        ⟨shown, facets, heq⟩ | ⟨keptOut, facets, heq⟩
      · rw [heq]
        refine but.judged hg rfl ⟨rfl, rfl, rfl, rfl, rfl⟩ ?_ fun k hk => ?_
        · exact iff_of_true ((mem_insertionRow g.id).mpr (.inl rfl)) shown
        · exact (mem_insertionRow k).trans (or_iff_right hk)
      · rw [heq]
        refine but.judged hg rfl ⟨rfl, rfl, rfl, rfl, rfl⟩ ?_ fun k _ => Iff.rfl
        exact iff_of_false (placed.not_row unused) (by simp [keptOut])
  | changed ix before g coherent live groups =>
      have found := GroupIndex.group?_of_put live groups
      have but : (t.recounted ix before g).JudgedBut g.id :=
        h.but rfl ⟨rfl, rfl, rfl, rfl, rfl⟩ fun k hk => (found k).trans (if_neg (Ne.symm hk))
      exact but.settle (placed.recounted coherent groups) ((found g.id).trans (if_pos rfl))
  | dropped ix g coherent live groups =>
      have found := GroupIndex.group?_of_drop groups
      -- The one group that is gone is in no row, and nothing has changed for the others.
      have gone {rows : List GroupId} (mem : ∀ k, k ≠ g.id → (k ∈ rows ↔ k ∈ t.rows)) (k : GroupId)
          (k' : Group) (hk : ix.group? k = some k') : k ∈ rows ↔ t.shows k' = true := by
        rw [found] at hk
        split at hk
        · cases hk
        · next hne => exact (mem k (Ne.symm hne)).trans (h k k' hk)
      rcases placed.slot?_of_live live with ⟨row, hs, hrow⟩ | ⟨hs, hrow, -⟩
      · rw [hs]
        have mem := mem_eraseIdx_iff placed.rows_nodup hrow
        exact gone fun k hk => (mem k).trans (and_iff_right hk)
      · rw [hs]
        exact gone fun k _ => Iff.rfl

theorem rebuild_judged (coherent : t.index.Coherent) : t.rebuild.table.Judged := by
  intro id g hg
  have hg' : t.index.group? id = some g := hg
  simp only [rebuild, List.partition_eq_filter_filter]
  show id ∈ (t.order.sorted (t.index.groups.filter t.shows)).map Group.id ↔ t.shows g = true
  have perm : (t.order.sorted (t.index.groups.filter t.shows)).Perm _ := List.mergeSort_perm _ _
  rw [(perm.map Group.id).mem_iff, List.mem_map]
  -- Names are unique, so the group found under a name is the one that was judged.
  constructor
  · rintro ⟨k, hk, rfl⟩
    rw [List.mem_filter] at hk
    have hkg := (coherent.group?_of_mem hk.1).symm.trans hg'
    rw [← Option.some.inj hkg]
    exact hk.2
  · intro shown
    refine ⟨g, List.mem_filter.mpr ⟨GroupIndex.mem_of_group? hg', shown⟩, ?_⟩
    exact GroupIndex.id_of_group? hg'

theorem Judged.globalChange (h : t.Judged) (coherent : t.index.Coherent) {c : TableCommand}
    {change : Change} (hc : t.GlobalChange c change) (told : ∀ filter, c ≠ .driftFilter filter) :
    change.table.Judged := by
  cases hc with
  | rebuilt filter junkPolicy junk => exact rebuild_judged coherent
  | resorted sort rows same =>
      intro id g hg
      exact ((List.mergeSort_perm rows _).trans same).mem_iff.trans (h id g hg)
  | cleared =>
      intro id g hg
      cases hg
  | adjusted filter realTimeSort grouping selection rejected drift =>
      rcases drift with rfl | rfl
      · exact h
      · exact absurd rfl (told filter)

/-- The invariant of runs in which the filter does not drift. -/
structure Current (t : Table) (w : Wishes) : Prop extends t.Balanced where
  heeds : t.Heeds w
  judged : t.Judged

theorem Current.perform (h : t.Current w) (c : TableCommand)
    (told : ∀ filter, c ≠ .driftFilter filter) : (t.perform c).table.Current (w.heed c) := by
  refine ⟨h.toBalanced.perform c, h.heeds.perform h.toPlaced c told, ?_⟩
  cases hc : c.isLocal with
  | true => exact h.judged.localChange h.toPlaced (perform_local h.toPlaced hc)
  | false => exact h.judged.globalChange h.coherent (perform_global h.toPlaced hc) told

theorem Current.after {commands : List TableCommand} (h : t.Current w)
    (told : ∀ filter, .driftFilter filter ∉ commands) :
    (t.after commands).Current (commands.foldl Wishes.heed w) := by
  induction commands generalizing t w with
  | nil => exact h
  | cons c rest ih =>
      refine ih (h.perform c ?_) fun filter hmem => told filter (List.mem_cons_of_mem c hmem)
      rintro filter rfl
      exact told filter List.mem_cons_self

theorem new_current (options : Options) (registry : Registry) :
    (new options registry).Current (.ofOptions options) := by
  refine ⟨new_balanced options registry, ⟨rfl, rfl, fun g => rfl⟩, ?_⟩
  intro id g hg
  cases hg

/-- In every state, a group of the table is in a row just when the filter, the policy and the
threshold that were set last allow it as it is then, and hidden otherwise. -/
theorem rows_show_what_is_allowed (options : Options) (registry : Registry)
    (commands : List TableCommand) (told : ∀ filter, .driftFilter filter ∉ commands) :
    let t := (new options registry).after commands
    let wishes := commands.foldl Wishes.heed (.ofOptions options)
    (∀ g, t.shows g = true ↔ wishes.Allow g) ∧
      ∀ g ∈ t.index.groups,
        (g.id ∈ t.rows ↔ wishes.Allow g) ∧ (g.id ∈ t.hidden ↔ ¬ wishes.Allow g) := by
  intro t wishes
  have h : t.Current wishes := (new_current options registry).after told
  refine ⟨h.heeds.shows_iff, fun g hg => ?_⟩
  have live := h.coherent.group?_of_mem hg
  have row : g.id ∈ t.rows ↔ wishes.Allow g := (h.judged g.id g live).trans (h.heeds.shows_iff g)
  refine ⟨row, ?_⟩
  rw [← row]
  exact ⟨fun hidden shown => h.disjoint shown hidden, h.hidden_of_live live⟩

/-- A group that was hidden as junk comes back when the user says that it is none. -/
theorem rows_show_what_is_allowed_after_verdict :
    let t := (new {} .empty).after
      [.add { fileName := "a", size := 1, spamScore := .one }, .markJunk ⟨0⟩ false]
    t.rows = [⟨0⟩] ∧
      ∀ g ∈ t.index.groups, (g.id ∈ t.rows ↔ (Wishes.ofOptions {}).Allow g) ∧
        (g.id ∈ t.hidden ↔ ¬ (Wishes.ofOptions {}).Allow g) :=
  ⟨by decide +kernel, (rows_show_what_is_allowed {} .empty _ (by simp)).2⟩

end Table

end PeerSearch
