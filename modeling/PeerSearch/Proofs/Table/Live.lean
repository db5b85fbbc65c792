import PeerSearch.Proofs.Table.Events
import PeerSearch.Table.Live

/-!
# PeerSearch.Proofs.Table.Live -- subscribers keep up

Events reach each subscriber that stays in the order in which they were sent, whoever else comes and
goes. So a subscriber that starts from the rows there are when it comes, and redraws them by what it
hears after each step, has the rows of the table after each step.
-/

namespace PeerSearch

/-! ## Feeds -/

namespace Feed

variable {f : Feed} {p : Nat} {waiting : List TableEvent}

/-- The subscriber in that position is there and known, and has not taken these events yet. -/
structure Hears (f : Feed) (p : Nat) (waiting : List TableEvent) : Prop where
  known : p ∈ f.known
  subscriber : f.subscribers[p]? = some ⟨true, waiting⟩

theorem Hears.pendingAt (h : f.Hears p waiting) : f.pendingAt p = waiting := by
  rw [Feed.pendingAt, h.subscriber]
  rfl

theorem subscribe_hears (f : Feed) : f.subscribe.Hears f.subscribers.length [] := by
  refine ⟨?_, ?_⟩
  · exact List.mem_append_right _ (List.mem_singleton_self _)
  · exact List.getElem?_concat_length

theorem Hears.subscribe (h : f.Hears p waiting) : f.subscribe.Hears p waiting := by
  refine ⟨List.mem_append_left _ h.known, ?_⟩
  obtain ⟨hlt, -⟩ := List.getElem?_eq_some_iff.mp h.subscriber
  exact (List.getElem?_append_left hlt).trans h.subscriber

theorem Hears.leave (h : f.Hears p waiting) {q : Nat} (other : q ≠ p) :
    (f.leave q).Hears p waiting := by
  refine ⟨h.known, ?_⟩
  show (f.subscribers.modify q _)[p]? = some ⟨true, waiting⟩
  rw [List.getElem?_modify_ne _ _ other, h.subscriber]

theorem Hears.send (h : f.Hears p waiting) (e : TableEvent) :
    (f.send e).Hears p (waiting ++ [e]) := by
  refine ⟨?_, ?_⟩
  · refine List.mem_filter.mpr ⟨h.known, ?_⟩
    rw [isPresent, h.subscriber]
    rfl
  · show (f.subscribers.mapIdx _)[p]? = some (Subscriber.mk true (waiting ++ [e]))
    rw [List.getElem?_mapIdx, h.subscriber, Option.map_some, List.contains_iff_mem.mpr h.known]
    rfl

/-- Events wait in the order in which they were sent. -/
theorem Hears.sendAll (h : f.Hears p waiting) (events : List TableEvent) :
    (events.foldl Feed.send f).Hears p (waiting ++ events) := by
  induction events generalizing f waiting with
  | nil => rwa [List.append_nil]
  | cons e rest ih =>
      have hrest := ih (h.send e)
      rwa [List.append_assoc] at hrest

theorem Hears.takenAt (h : f.Hears p waiting) : (f.takenAt p).Hears p [] := by
  refine ⟨h.known, ?_⟩
  show (f.subscribers.modify p _)[p]? = some ⟨true, []⟩
  rw [List.getElem?_modify_eq, h.subscriber]
  rfl

theorem Hears.takenAt_other (h : f.Hears p waiting) {q : Nat} (other : q ≠ p) :
    (f.takenAt q).Hears p waiting := by
  refine ⟨h.known, ?_⟩
  show (f.subscribers.modify q _)[p]? = some ⟨true, waiting⟩
  rw [List.getElem?_modify_ne _ _ other, h.subscriber]

end Feed

/-! ## Live tables -/

namespace LiveTable

variable {l : LiveTable} {p : Nat}

/-- A step as the subscriber in a position sees it that keeps a mirror of the rows: after the step it
takes what it has been told and redraws the mirror. -/
def watch? (p : Nat) (seen : LiveTable × List GroupId) (s : LiveStep) :
    Option (LiveTable × List GroupId) := do
  let l := seen.1.step s
  let mirror ← (l.feed.pendingAt p).foldlM (TableEvent.redraw? l.table.rows) seen.2
  return (l.step (.take p), mirror)

theorem step_balanced (h : l.table.Balanced) (s : LiveStep) : (l.step s).table.Balanced := by
  cases s with
  | perform c => exact h.perform c
  | subscribe | leave | take => exact h

theorem run_balanced (h : l.table.Balanced) (steps : List LiveStep) :
    (l.run steps).table.Balanced := by
  induction steps generalizing l with
  | nil => exact h
  | cons s rest ih => exact ih (step_balanced h s)

/-- What becomes of the table is the same whoever hears of it. -/
theorem step_table {l' : LiveTable} (same : l.table = l'.table) (s : LiveStep) :
    (l.step s).table = (l'.step s).table := by
  cases s with
  | perform c => exact congrArg (fun t => (t.perform c).table) same
  | subscribe | leave | take => exact same

/-- After a step, what waits for a subscriber that was up to date redraws the rows. -/
theorem step_hears (balanced : l.table.Balanced) (h : l.feed.Hears p []) {s : LiveStep}
    (stays : s ≠ .leave p) :
    ∃ waiting, (l.step s).feed.Hears p waiting ∧
      waiting.foldlM (TableEvent.redraw? (l.step s).table.rows) l.table.rows =
        some (l.step s).table.rows := by
  cases s with
  | perform c => exact ⟨_, h.sendAll _, balanced.toPlaced.mirrors c⟩
  | subscribe => exact ⟨[], h.subscribe, rfl⟩
  | leave q =>
      refine ⟨[], h.leave ?_, rfl⟩
      rintro rfl
      exact stays rfl
  | take q =>
      refine ⟨[], ?_, rfl⟩
      by_cases hq : q = p
      · exact hq ▸ h.takenAt
      · exact h.takenAt_other hq

theorem watch?_eq (balanced : l.table.Balanced) (h : l.feed.Hears p []) {s : LiveStep}
    (stays : s ≠ .leave p) :
    watch? p (l, l.table.rows) s = some ((l.step s).step (.take p), (l.step s).table.rows) ∧
      ((l.step s).step (.take p)).feed.Hears p [] := by
  obtain ⟨waiting, hears, mirrored⟩ := step_hears balanced h stays
  refine ⟨?_, hears.takenAt⟩
  simp [watch?, hears.pendingAt, mirrored]

/-- A subscriber that is up to date and stays is up to date after any steps. -/
theorem watch_run (balanced : l.table.Balanced) (h : l.feed.Hears p []) {l' : LiveTable}
    (same : l.table = l'.table) {steps : List LiveStep} (stays : .leave p ∉ steps) :
    ∃ feed, steps.foldlM (watch? p) (l, l.table.rows) =
      some (⟨(l'.run steps).table, feed⟩, (l'.run steps).table.rows) := by
  -- By induction on the steps: the watcher has taken everything after each of them.
  induction steps generalizing l l' with
  | nil =>
      obtain ⟨table, feed⟩ := l
      cases same
      exact ⟨feed, rfl⟩
  | cons s rest ih =>
      have stays' : s ≠ .leave p := fun heq => stays (heq ▸ List.mem_cons_self)
      obtain ⟨watched, hears⟩ := watch?_eq balanced h stays'
      rw [List.foldlM_cons, watched]
      exact ih (l := (l.step s).step (.take p)) (step_balanced balanced s) hears
        (step_table same s) fun hmem => stays (List.mem_cons_of_mem s hmem)

/-- A subscriber that comes at any time and stays always has the rows of the table, whatever is done
and whoever else comes and goes. An operation on one group tells at most once, of a row that is as it
says; and it tells of the row of any group that it has changed and that stays visible. -/
theorem mirror_keeps_up (options : Options) (registry : Registry)
    (earlier later : List LiveStep) :
    let l := (new options registry).run earlier
    let p := l.feed.subscribers.length
    let joined := l.step .subscribe
    (.leave p ∉ later →
      ∃ feed, later.foldlM (watch? p) (joined, l.table.rows) =
        some (⟨(joined.run later).table, feed⟩, (joined.run later).table.rows)) ∧
    (∀ c : TableCommand, c.isLocal = true →
      (l.table.perform c).events.length ≤ 1 ∧
        ∀ e ∈ (l.table.perform c).events, e.FitsRows (l.table.perform c).table.rows) ∧
    (∀ r placed, (l.table.add r).answer = some placed → placed.created = false →
      placed.group ∈ l.table.rows → placed.group ∈ (l.table.add r).change.table.rows →
      ∃ e, (l.table.add r).change.events = [e] ∧ e.Redraws placed.group) ∧
    (∀ id group, l.table.index.groupOf? id = some group →
      group ∈ l.table.rows → group ∈ (l.table.removeResult id).change.table.rows →
      ∃ e, (l.table.removeResult id).change.events = [e] ∧ e.Redraws group) ∧
    ∀ group junk, group ∈ l.table.rows → group ∈ (l.table.markJunk group junk).change.table.rows →
      ∃ e, (l.table.markJunk group junk).change.events = [e] ∧ e.Redraws group := by
  intro l p joined
  have balanced : l.table.Balanced := run_balanced (Table.new_balanced options registry) earlier
  have placed : l.table.Placed := balanced.toPlaced
  refine ⟨?_, ?_, ?_, ?_, ?_⟩
  · intro stays
    exact watch_run (l := joined) balanced (Feed.subscribe_hears l.feed) rfl stays
  · intro c hc
    have tells := (Table.perform_local placed hc).tells placed
    exact ⟨tells.once, tells.fits⟩
  · intro r p merged joins before after
    exact placed.add_redraws merged joins before after
  · intro id group member before after
    exact placed.removeResult_redraws member before after
  · intro group junk before after
    exact placed.markJunk_redraws before after

/-- One subscriber stays while another comes and leaves, and a verdict on the group that was there
first is told of. -/
theorem mirror_keeps_up_with_guest :
    let l := (new {} .empty).run [.perform (.add { fileName := "a", size := 1 })]
    let later : List LiveStep :=
      [.subscribe, .perform (.add { fileName := "b", size := 1 }), .leave 1]
    (l.step .subscribe |>.run later).table.rows = [⟨0⟩, ⟨1⟩] ∧
      (∃ feed, later.foldlM (watch? 0) (l.step .subscribe, l.table.rows) =
        some (⟨(l.step .subscribe |>.run later).table, feed⟩,
          (l.step .subscribe |>.run later).table.rows)) ∧
      ∃ e, (l.table.markJunk ⟨0⟩ false).change.events = [e] ∧ e.Redraws ⟨0⟩ := by
  have keeps := mirror_keeps_up {} .empty [.perform (.add { fileName := "a", size := 1 })]
    [.subscribe, .perform (.add { fileName := "b", size := 1 }), .leave 1]
  have first : ((new {} .empty).run
      [.perform (.add { fileName := "a", size := 1 })]).feed.subscribers.length = 0 := by
    decide +kernel
  refine ⟨by decide +kernel, keeps.1 ?_, keeps.2.2.2.2 ⟨0⟩ false ?_ ?_⟩
  · rw [first]
    simp
  · decide +kernel
  · decide +kernel

end LiveTable

end PeerSearch
