import PeerSearch.Proofs.Desk.Live
import PeerSearch.Proofs.Runs

/-!
# PeerSearch.Proofs.Desk.Limit -- how long a search stays open

A desk has room for a bounded number of searches, and for one at least. Searches are named by
numbers that go up, and a search that is opened while there is no room closes the oldest one.
Nothing else that happens to a desk, to its queue or to a table opens or closes any. So a search
that has been opened is open until its owner closes it, or opens another one when it is the oldest
of as many as there may be.
-/

namespace PeerSearch

/-- Whether a step opens or closes a search. -/
def DeskStep.opensOrCloses : DeskStep → Bool
  | .openSearch _ | .closeSearch _ => true
  | _ => false

namespace LiveDesk

variable {l : LiveDesk} {options : Options} {registry : Registry} {id : SearchId}

/-! ## Opening and closing -/

/-- The names that a step hands out. -/
def openedBy (l : LiveDesk) : DeskStep → List SearchId
  | .openSearch query => if l.pumping.isNone then [(l.desk.openSearch query).2] else []
  | _ => []

/-- The names that some steps hand out, the earliest first. -/
def opened (l : LiveDesk) : List DeskStep → List SearchId
  | [] => []
  | s :: rest => l.openedBy s ++ (l.step s).opened rest

/-- The numbers of the open searches after a step of an owner who is not pumping, where `next` is
the number of a search that is opened now. -/
def idsAfter (limit next : Nat) (ids : List Nat) : DeskStep → List Nat
  | .openSearch _ => (if ids.length = limit then ids.tail else ids) ++ [next]
  | .closeSearch id => ids.filter (· != id.val)
  | _ => ids

/-- The step closes the search: the owner does so, or opens another one while there is no room and
this one is the oldest. -/
def Closes (l : LiveDesk) (id : SearchId) : DeskStep → Prop
  | .openSearch _ =>
    l.pumping = none ∧ l.desk.openIds.length = l.desk.limit ∧ l.desk.openIds.head? = some id.val
  | .closeSearch closed => l.pumping = none ∧ closed = id
  | _ => False

/-- Some step of a run closes the search. -/
def LosesSearch (start : LiveDesk) (steps : List DeskStep) (id : SearchId) : Prop :=
  ∃ n s, steps[n]? = some s ∧ id.val ∈ (start.run (steps.take n)).desk.openIds ∧
    (start.run (steps.take n)).Closes id s

/-! ## One step -/

/-- When there is not more than one search too many, one is closed at most. -/
theorem openIds_openSearch_of_le {d : Desk} (room : d.openIds.length ≤ d.limit) (query : String) :
    (d.openSearch query).1.openIds =
      idsAfter d.limit d.nextSearch d.openIds (.openSearch query) := by
  rw [Desk.openSearch_openIds, idsAfter]
  split
  · next full => rw [full, Nat.add_sub_cancel_left, List.drop_one]
  · next free => rw [Nat.sub_eq_zero_of_le (by omega), List.drop_zero]

/-- Steps but those that open or close searches leave all names alone. -/
theorem step_names_of_other {s : DeskStep} (other : s.opensOrCloses = false) :
    (l.step s).desk.openIds = l.desk.openIds ∧
      (l.step s).desk.nextSearch = l.desk.nextSearch := by
  cases s with
  | openSearch | closeSearch => cases other
  | call id c =>
      simp only [step]
      split
      · exact ⟨l.desk.putSearch_openIds _, rfl⟩
      · exact ⟨rfl, rfl⟩
  | receive =>
      simp only [step]
      split
      · next rest _ _ =>
        rw [receive, Desk.apply_openIds, Desk.apply_keeps]
        exact ⟨rfl, rfl⟩
      · exact ⟨rfl, rfl⟩
  | send | startPump =>
      simp only [step]
      split <;> exact ⟨rfl, rfl⟩
  | endPump =>
      simp only [step]
      split
      · split <;> exact ⟨rfl, rfl⟩
      · exact ⟨rfl, rfl⟩

/-- What a step leaves open. Nothing is opened or closed by an owner who is pumping. -/
theorem step_openIds (room : l.desk.openIds.length ≤ l.desk.limit) (s : DeskStep) :
    (l.step s).desk.openIds =
      if l.pumping.isNone then idsAfter l.desk.limit l.desk.nextSearch l.desk.openIds s
      else l.desk.openIds := by
  cases s with
  | openSearch query =>
      simp only [step]
      split
      · exact openIds_openSearch_of_le room query
      · rfl
  | closeSearch id =>
      simp only [step]
      split
      · exact l.desk.closeSearch_openIds id
      · rfl
  | _ => exact (step_names_of_other rfl).1.trans (ite_self _).symm

/-- The number of the next search goes up by the searches that are opened, which get the numbers in
between. -/
theorem step_nextSearch (l : LiveDesk) (s : DeskStep) :
    (l.openedBy s).map SearchId.val = List.range' l.desk.nextSearch (l.openedBy s).length ∧
      (l.step s).desk.nextSearch = l.desk.nextSearch + (l.openedBy s).length := by
  cases s with
  | openSearch query =>
      simp only [openedBy, step]
      split <;> exact ⟨rfl, rfl⟩
  | closeSearch id =>
      refine ⟨rfl, ?_⟩
      simp only [step]
      split <;> rfl
  | _ => exact ⟨rfl, (step_names_of_other rfl).2⟩

theorem opened_counted (l : LiveDesk) (steps : List DeskStep) :
    (l.opened steps).map SearchId.val = List.range' l.desk.nextSearch (l.opened steps).length ∧
      (l.run steps).desk.nextSearch = l.desk.nextSearch + (l.opened steps).length := by
  induction steps generalizing l with
  | nil => exact ⟨rfl, rfl⟩
  | cons s rest ih =>
      obtain ⟨first, here⟩ := l.step_nextSearch s
      obtain ⟨later, there⟩ := ih (l.step s)
      rw [opened, List.length_append, List.map_append, first, later, here, List.range'_append_1]
      refine ⟨rfl, there.trans ?_⟩
      rw [here, Nat.add_assoc]

/-- In a run from the start, all searches get names of their own, and the named ones are those below
the next. -/
theorem mem_opened_iff (options : Options) (registry : Registry) (steps : List DeskStep) :
    let start := new options registry
    (start.opened steps).Nodup ∧
      ∀ id, id ∈ start.opened steps ↔ id.val < (start.run steps).desk.nextSearch := by
  intro start
  obtain ⟨counted, next⟩ := start.opened_counted steps
  rw [next, show start.desk.nextSearch = 0 from rfl, Nat.zero_add]
  exact mem_iff_of_counted (fun _ _ same => congrArg SearchId.mk same) counted

/-! ## The invariant -/

/-- A desk in use on which there are not too many searches. -/
structure Limited (l : LiveDesk) (options : Options) (registry : Registry) : Prop
    extends l.Kept options registry where
  within : l.desk.openIds.length ≤ l.desk.limit

theorem Kept.limit (h : l.Kept options registry) : l.desk.limit = max 1 options.maxSearches := by
  rw [Desk.limit, h.options]

theorem new_limited (options : Options) (registry : Registry) :
    (new options registry).Limited options registry :=
  { new_kept options registry with within := Nat.zero_le _ }

theorem length_idsAfter_le {limit : Nat} (positive : 0 < limit) {ids : List Nat}
    (room : ids.length ≤ limit) (next : Nat) (s : DeskStep) :
    (idsAfter limit next ids s).length ≤ limit := by
  cases s with
  | openSearch query =>
      rw [idsAfter, List.length_append, List.length_singleton]
      split
      · rw [List.length_tail]
        omega
      · omega
  | closeSearch id => exact (List.length_filter_le _ _).trans room
  | _ => exact room

theorem Limited.step (h : l.Limited options registry) (s : DeskStep) :
    (l.step s).Limited options registry := by
  refine { h.toKept.step s with within := ?_ }
  rw [(h.toKept.step s).limit, ← h.limit, step_openIds h.within]
  split
  · exact length_idsAfter_le (Nat.le_max_left _ _) h.within _ s
  · exact h.within

/-! ## Searches stay open until they are closed -/

theorem mem_tail_iff_of_nodup {ids : List Nat} (nodup : ids.Nodup) {n : Nat} :
    n ∈ ids.tail ↔ n ∈ ids ∧ ids.head? ≠ some n := by
  cases ids with
  | nil => simp
  | cons m rest =>
      have fresh : m ∉ rest := (List.nodup_cons.mp nodup).1
      rw [List.tail_cons, List.head?_cons, List.mem_cons, ne_eq, Option.some_inj]
      constructor
      · intro later
        exact ⟨.inr later, fun same => fresh (same ▸ later)⟩
      · rintro ⟨same | later, other⟩
        · exact absurd same.symm other
        · exact later

/-- A number is that of an open search when it was and the step does not close it, or when the step
hands it out. -/
theorem Limited.mem_openIds_step (h : l.Limited options registry) (s : DeskStep) (id : SearchId) :
    id.val ∈ (l.step s).desk.openIds ↔
      id.val ∈ l.desk.openIds ∧ ¬ l.Closes id s ∨
        l.desk.nextSearch ≤ id.val ∧ id.val < (l.step s).desk.nextSearch := by
  have nodup : l.desk.openIds.Nodup := h.serves.increasing.imp Nat.ne_of_lt
  rw [step_openIds h.within, (l.step_nextSearch s).2]
  cases hp : l.pumping with
  | some pumping => cases s <;> simp [Closes, openedBy, hp]
  | none =>
      cases s with
      | openSearch query =>
          have named (n : Nat) : n = l.desk.nextSearch ↔
              l.desk.nextSearch ≤ n ∧ n < l.desk.nextSearch + 1 := by omega
          simp only [Option.isNone_none, if_true, idsAfter, List.mem_append, List.mem_singleton,
            Closes, openedBy, hp, true_and, List.length_singleton, named]
          refine or_congr_left ?_
          split
          · next full => simp [mem_tail_iff_of_nodup nodup, full]
          · next free => simp [free]
      | closeSearch closed =>
          have other : id.val = closed.val ↔ closed = id := by
            rw [eq_comm]
            exact ⟨congrArg SearchId.mk, congrArg SearchId.val⟩
          simp [idsAfter, Closes, openedBy, hp, other]
      | _ => simp [idsAfter, Closes, openedBy]

/-- How names of searches come into use and go out of it. -/
def searchNaming (options : Options) (registry : Registry) : Naming step SearchId where
  inv l := l.Limited options registry
  number := SearchId.val
  next l := l.desk.nextSearch
  live l id := id.val ∈ l.desk.openIds
  takes l id s := l.Closes id s
  keeps _ h s := h.step s
  below _ h _ hid := by
    obtain ⟨s, hs, name⟩ := List.mem_map.mp hid
    exact name ▸ h.serves.below s hs
  grows l _ s := by
    rw [(l.step_nextSearch s).2]
    exact Nat.le_add_right _ _
  step _ h s id := h.mem_openIds_step s id

/-- In whatever order searches are opened and closed, results posted, taken from the queue and
worked on: the open searches stand in the order of their names, of which none is handed out twice,
and there are not too many of them. Open are the searches that were opened and that no step has
closed, neither by its name nor as the oldest one when another was opened and there was no room.
That closes this one search only, and no step but opening and closing changes which searches are
open. -/
theorem searches_leave_oldest_first (options : Options) (registry : Registry)
    (steps : List DeskStep) :
    let start := new options registry
    let l := start.run steps
    let limit := max 1 options.maxSearches
    l.desk.openIds.Pairwise (· < ·) ∧
    (start.opened steps).Nodup ∧
    l.desk.openIds.length ≤ limit ∧
    (∀ id, id.val ∈ l.desk.openIds ↔
      id ∈ start.opened steps ∧ ¬ start.LosesSearch steps id) ∧
    (∀ s, (l.step s).desk.openIds =
      if l.pumping.isNone then idsAfter limit l.desk.nextSearch l.desk.openIds s
      else l.desk.openIds) := by
  intro start l limit
  have h : l.Limited options registry :=
    Naming.inv_run (N := searchNaming options registry) (new_limited options registry) steps
  obtain ⟨nodup, named⟩ := mem_opened_iff options registry steps
  have bound : l.desk.limit = limit := h.limit
  refine ⟨h.serves.increasing, nodup, bound ▸ h.within, fun id => ?_, fun s => ?_⟩
  · have gone : id.val ∉ l.desk.openIds ↔
        l.desk.nextSearch ≤ id.val ∨ start.LosesSearch steps id :=
      (searchNaming options registry).not_live_iff (new_limited options registry) (Nat.zero_le _)
    rw [← not_iff_not, gone, named, not_and_or, not_not, not_lt]
  · exact bound ▸ step_openIds h.within s

/-- Two searches may be open. The second one is closed by its name, so the first one is still the
oldest when there is no room for the fourth. -/
example :
    let start := new { maxSearches := 2 } .empty
    let steps : List DeskStep :=
      [.openSearch "a", .openSearch "b", .closeSearch ⟨1⟩, .openSearch "c", .openSearch "d"]
    start.opened steps = [⟨0⟩, ⟨1⟩, ⟨2⟩, ⟨3⟩] ∧ (start.run steps).desk.openIds = [2, 3] := by
  decide

end LiveDesk

end PeerSearch
