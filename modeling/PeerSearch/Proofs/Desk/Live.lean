import PeerSearch.Proofs.Desk.Serving

/-!
# PeerSearch.Proofs.Desk.Live -- posts reach their own searches, whatever comes between

A desk in use writes down what producers send and what reaches the searches. In every state that
steps in any order lead to, the posts taken from the queue are the first ones sent, each open search
is what its own posts and its owner's calls make of a fresh one, and every pumping has counted what
it took.
-/

namespace PeerSearch

/-! ## What a table tells on the way -/

namespace Table

/-- The events of some commands, those of the earliest first. -/
def tells (t : Table) : List TableCommand → List TableEvent
  | [] => []
  | c :: rest => (t.perform c).events ++ (t.perform c).table.tells rest

theorem tells_append (t : Table) (commands more : List TableCommand) :
    t.tells (commands ++ more) = t.tells commands ++ (t.after commands).tells more := by
  induction commands generalizing t with
  | nil => rfl
  | cons c rest ih =>
      show (t.perform c).events ++ (t.perform c).table.tells (rest ++ more) = _
      rw [ih, ← List.append_assoc]
      rfl

theorem tells_singleton (t : Table) (c : TableCommand) : t.tells [c] = (t.perform c).events :=
  List.append_nil _

end Table

theorem eventsOf_append (id : SearchId) (told more : List SearchEvent) :
    eventsOf id (told ++ more) = eventsOf id told ++ eventsOf id more := by
  rw [eventsOf, List.filter_append, List.map_append]
  rfl

theorem eventsOf_eq_nil {id : SearchId} {told : List SearchEvent} (others : ∀ e ∈ told, e.1 ≠ id) :
    eventsOf id told = [] := by
  rw [eventsOf, List.map_eq_nil_iff, List.filter_eq_nil_iff]
  exact fun e he same => others e he (beq_iff_eq.mp same)

/-- Events told under one name are events of that search only. -/
theorem eventsOf_named (id k : SearchId) (events : List TableEvent) :
    eventsOf id (events.map (k, ·)) = if k = id then events else [] := by
  split
  · next same =>
    subst same
    rw [eventsOf, List.filter_eq_self.mpr (by simp), List.map_map]
    exact List.map_id _
  · next other =>
    apply eventsOf_eq_nil
    intro e he
    obtain ⟨event, -, rfl⟩ := List.mem_map.mp he
    exact other

namespace Desk

variable {d d' : Desk} {log : List DeskEntry} {told : List SearchEvent}

/-! ## What searches tell on the way -/

/-- What is told under the name of an open search is what the log makes a fresh one tell. -/
structure Tells (d : Desk) (log : List DeskEntry) (told : List SearchEvent) : Prop where
  past : ∀ e ∈ told, e.1.val < d.nextSearch
  events : ∀ s ∈ d.searches,
    eventsOf s.id told = (Table.new d.options d.registry).tells (commandsFor s.id log)

theorem Tells.fewer (h : d.Tells log told) (searches : d'.searches.Sublist d.searches)
    (options : d'.options = d.options) (registry : d'.registry = d.registry)
    (next : d'.nextSearch = d.nextSearch) : d'.Tells log told := by
  refine ⟨next ▸ h.past, ?_⟩
  rw [options, registry]
  exact fun s hs => h.events s (searches.subset hs)

/-- A search that heeds an entry tells of what it does to its table. -/
theorem Tells.heed (h : d.Tells log told) (serves : d.Serves log) {e : DeskEntry}
    {more : List SearchEvent} (searches : d'.searches = d.searches.map (·.heed e))
    (options : d'.options = d.options) (registry : d'.registry = d.registry)
    (next : d'.nextSearch = d.nextSearch) (past : ∀ x ∈ more, x.1.val < d.nextSearch)
    (tells : ∀ s ∈ d.searches, eventsOf s.id more = s.table.tells (e.command? s.id).toList) :
    d'.Tells (log ++ [e]) (told ++ more) := by
  constructor
  · intro x hx
    rw [next]
    exact (List.mem_append.mp hx).elim (h.past x) (past x)
  · intro s' hs'
    rw [searches] at hs'
    obtain ⟨s, hs, rfl⟩ := List.mem_map.mp hs'
    show eventsOf s.id (told ++ more) = Table.tells _ (commandsFor s.id (log ++ [e]))
    rw [eventsOf_append, commandsFor_append, Table.tells_append, h.events s hs, tells s hs,
      serves.table s hs, options, registry]

theorem Tells.openSearch (h : d.Tells log told) (serves : d.Serves log) (query : String) :
    (d.openSearch query).1.Tells log told := by
  refine ⟨fun e he => Nat.lt_succ_of_lt (h.past e he), fun s hs => ?_⟩
  rcases List.mem_append.mp hs with hs | hs
  · exact h.events s ((List.drop_sublist _ _).subset hs)
  · -- A name that has just been handed out was not told under, and nothing was said to it.
    rw [List.mem_singleton.mp hs, eventsOf_eq_nil, commandsFor_eq_nil]
    · rfl
    · rintro e he heq
      exact absurd (serves.past e he) (heq ▸ lt_irrefl _)
    · rintro e he heq
      exact absurd (h.past e he) (heq ▸ lt_irrefl _)

/-- What a post makes the searches tell. -/
theorem Numbered.apply_events (h : d.Numbered) (count : PumpCount) (p : Post) :
    (∀ x ∈ (d.apply count p).events, x.1.val < d.nextSearch) ∧
      ∀ s ∈ d.searches, eventsOf s.id (d.apply count p).events =
        s.table.tells ((DeskEntry.taken p).command? s.id).toList := by
  unfold apply
  cases hs : d.search? p.search with
  | none =>
      refine ⟨fun x hx => absurd hx List.not_mem_nil, fun s hmem => ?_⟩
      have other : p.search ≠ s.id := Ne.symm (search?_eq_none_iff.mp hs s hmem)
      rw [DeskEntry.command?_of_ne (e := .taken p) other]
      rfl
  | some s =>
      obtain ⟨hmem, name⟩ := h.search?_eq_some_iff.mp hs
      cases p with
      | finished id =>
          exact ⟨fun x hx => absurd hx List.not_mem_nil, fun s' hmem' => rfl⟩
      | result id r =>
          obtain rfl : s.id = id := name
          constructor
          · intro x hx
            obtain ⟨event, -, rfl⟩ := List.mem_map.mp hx
            exact h.below s hmem
          · intro s' hmem'
            show eventsOf s'.id ((s.table.add r).change.events.map (s.id, ·)) =
              s'.table.tells (if s.id = s'.id then some (.add r) else none).toList
            rw [eventsOf_named]
            split
            · next same =>
              rw [h.eq_of_id hmem hmem' same]
              exact (s'.table.tells_singleton (.add r)).symm
            · rfl

theorem Tells.apply (h : d.Tells log told) (serves : d.Serves log) (count : PumpCount) (p : Post) :
    (d.apply count p).desk.Tells (log ++ [.taken p]) (told ++ (d.apply count p).events) := by
  have keeps := d.apply_keeps count p
  obtain ⟨past, tells⟩ := serves.apply_events count p
  exact h.heed (e := .taken p) serves (serves.apply_searches count p) (keeps ▸ rfl) (keeps ▸ rfl)
    (keeps ▸ rfl) past tells

/-! ## A pumping at one go -/

/-- What becomes of a post does not hang on the posts behind it. -/
theorem apply_withQueue (d : Desk) (queue : List Post) (count : PumpCount) (p : Post) :
    { d with queue }.apply count p =
      { d.apply count p with desk := { (d.apply count p).desk with queue } } := by
  have same : { d with queue }.search? p.search = d.search? p.search := rfl
  unfold apply
  rw [same]
  cases d.search? p.search with
  | none => rfl
  | some s => cases p <;> rfl

theorem applyAll_queue (d : Desk) (count : PumpCount) (posts : List Post) :
    (d.applyAll count posts).desk.queue = d.queue := by
  induction posts generalizing d count with
  | nil => rfl
  | cons p rest ih =>
      show ((d.apply count p).desk.applyAll (d.apply count p).count rest).desk.queue = _
      rw [ih, d.apply_keeps count p]

end Desk

namespace LiveDesk

variable {l : LiveDesk} {options : Options} {registry : Registry}

theorem run_append (l : LiveDesk) (steps more : List DeskStep) :
    l.run (steps ++ more) = (l.run steps).run more :=
  List.foldl_append

/-- Taking the posts of the queue one by one is to apply them all. -/
theorem run_receive (d : Desk) {queue : List Post} {pumping : Pumping}
    (desk : l.desk = { d with queue }) (under : l.pumping = some pumping) :
    let all := { d with queue := [] }.applyAll pumping.count queue
    let l' := l.run (List.replicate queue.length .receive)
    l'.desk = all.desk ∧ l'.ended = l.ended ∧
      l'.pumping = some ⟨pumping.waits, pumping.taken ++ queue, all.count⟩ := by
  -- By induction on the queue, for every state that the pumping may be in before it.
  induction queue generalizing d l pumping with
  | nil =>
      refine ⟨desk, rfl, ?_⟩
      rw [List.append_nil]
      exact under
  | cons p rest ih =>
      set first := d.apply pumping.count p with hfirst
      have taken : l.step .receive = l.receive pumping p rest := by
        simp only [step, under, desk]
      have here : (l.receive pumping p rest).desk = { first.desk with queue := rest } := by
        simp only [receive, desk]
        rw [d.apply_withQueue rest]
      have counted : (l.receive pumping p rest).pumping =
          some ⟨pumping.waits, pumping.taken ++ [p], first.count⟩ := by
        simp only [receive, desk]
        rw [d.apply_withQueue rest]
      have empty : { d with queue := [] }.apply pumping.count p =
          { first with desk := { first.desk with queue := [] } } :=
        d.apply_withQueue [] pumping.count p
      obtain ⟨hdesk, hended, hpumping⟩ := ih (l := l.receive pumping p rest) first.desk here counted
      show ((l.step .receive).run _).desk = _ ∧ ((l.step .receive).run _).ended = _ ∧
        ((l.step .receive).run _).pumping = _
      rw [taken, Desk.applyAll, empty]
      refine ⟨hdesk, hended, ?_⟩
      rw [hpumping, List.append_assoc]
      rfl

/-- A pumping that nothing comes between is the pumping of the whole queue at one go. -/
theorem run_pump (idle : l.pumping = none) (waits : Bool) :
    let l' := l.run
      (.startPump waits :: List.replicate l.desk.queue.length .receive ++ [.endPump])
    l'.desk = l.desk.pump.desk ∧
      l'.ended = l.ended ++ [⟨waits, l.desk.queue, l.desk.pump.count⟩] := by
  have start : l.step (.startPump waits) = { l with pumping := some ⟨waits, [], {}⟩ } := by
    simp [step, idle]
  obtain ⟨hdesk, hended, hpumping⟩ := run_receive (l := { l with pumping := some ⟨waits, [], {}⟩ })
    l.desk rfl rfl
  set drained := run { l with pumping := some ⟨waits, [], {}⟩ }
    (List.replicate l.desk.queue.length .receive) with hdrained
  have emptied : drained.desk.queue = [] := by
    rw [hdesk, Desk.applyAll_queue]
  have last : drained.step .endPump =
      { drained with
        pumping := none
        ended := l.ended ++ [⟨waits, l.desk.queue, l.desk.pump.count⟩] } := by
    simp only [step, hpumping, mayEnd, emptied, hended]
    rfl
  show ((l.step (.startPump waits)).run (_ ++ [.endPump])).desk = _ ∧
    ((l.step (.startPump waits)).run (_ ++ [.endPump])).ended = _
  rw [start, run_append, ← hdrained]
  show (drained.step .endPump).desk = _ ∧ (drained.step .endPump).ended = _
  rw [last]
  exact ⟨hdesk, rfl⟩

/-! ## The invariant -/

/-- What a desk in use has written down is true of it. -/
structure Kept (l : LiveDesk) (options : Options) (registry : Registry) : Prop where
  options : l.desk.options = options
  registry : l.desk.registry = registry
  serves : l.desk.Serves l.log
  tells : l.desk.Tells l.log l.told
  /-- Posts wait for searches that have been opened. -/
  known : ∀ p ∈ l.desk.queue, p.search.val < l.desk.nextSearch
  conserved : l.sent = takenPosts l.log ++ l.desk.queue
  pumped : takenPosts l.log = (l.ended ++ l.pumping.toList).flatMap Pumping.taken
  counted : ∀ pumping ∈ l.ended ++ l.pumping.toList, pumping.count.total = pumping.taken.length

theorem new_kept (options : Options) (registry : Registry) :
    (new options registry).Kept options registry where
  options := rfl
  registry := rfl
  serves := Desk.new_serves options registry
  tells := ⟨fun _ he => absurd he List.not_mem_nil, fun _ hs => absurd hs List.not_mem_nil⟩
  known _ hp := absurd hp List.not_mem_nil
  conserved := rfl
  pumped := rfl
  counted _ hp := absurd hp List.not_mem_nil

theorem Kept.call (h : l.Kept options registry) {s : Search} (hs : l.desk.search? s.id = some s)
    (c : TableCommand) : (l.call s c).Kept options registry := by
  have mem := (h.serves.search?_eq_some_iff.mp hs).1
  have silent := takenPosts_call l.log s.id c
  refine ⟨h.options, h.registry, h.serves.call hs c, ?_, h.known, ?_, ?_, h.counted⟩
  · refine h.tells.heed h.serves (h.serves.call_searches hs) rfl rfl rfl ?_ fun s' hs' => ?_
    · intro x hx
      obtain ⟨event, -, rfl⟩ := List.mem_map.mp hx
      exact h.serves.below s mem
    · show eventsOf s'.id (List.map _ _) =
      s'.table.tells (if s.id = s'.id then some c else none).toList
      rw [eventsOf_named]
      split
      · next same =>
        rw [h.serves.eq_of_id mem hs' same]
        exact (s'.table.tells_singleton c).symm
      · rfl
  · exact h.conserved.trans (congrArg (· ++ _) silent.symm)
  · exact silent.trans h.pumped

theorem Kept.receive (h : l.Kept options registry) {pumping : Pumping}
    (under : l.pumping = some pumping) {p : Post} {rest : List Post}
    (queue : l.desk.queue = p :: rest) : (l.receive pumping p rest).Kept options registry := by
  have mem : p ∈ l.desk.queue := queue ▸ List.mem_cons_self
  have taken : takenPosts (l.log ++ [.taken p]) = takenPosts l.log ++ [p] :=
    takenPosts_taken l.log [p]
  -- The post is gone from the queue before it reaches its search.
  set d : Desk := { l.desk with queue := rest } with hd
  have serves : d.Serves l.log := h.serves.congr rfl rfl rfl rfl
  have tells : d.Tells l.log l.told := h.tells.fewer (List.Sublist.refl _) rfl rfl rfl
  have keeps := d.apply_keeps pumping.count p
  constructor
  · show (d.apply pumping.count p).desk.options = _
    rw [keeps]
    exact h.options
  · show (d.apply pumping.count p).desk.registry = _
    rw [keeps]
    exact h.registry
  · exact serves.apply pumping.count (h.known p mem)
  · exact tells.apply serves pumping.count p
  · show ∀ q ∈ (d.apply pumping.count p).desk.queue, _ < (d.apply pumping.count p).desk.nextSearch
    rw [keeps]
    exact fun q hq => h.known q (queue ▸ List.mem_cons_of_mem p hq)
  · show l.sent = takenPosts (l.log ++ [.taken p]) ++ (d.apply pumping.count p).desk.queue
    rw [keeps, taken, List.append_assoc, h.conserved, queue]
    rfl
  · show takenPosts (l.log ++ [.taken p]) = (l.ended ++ [_]).flatMap Pumping.taken
    rw [taken, h.pumped, under]
    simp
  · intro x hx
    rcases List.mem_append.mp hx with hx | hx
    · exact h.counted x (List.mem_append_left _ hx)
    · obtain rfl := Option.some.inj (Option.mem_toList.mp hx)
      have before := h.counted pumping (List.mem_append_right _ (by simp [under]))
      show (d.apply pumping.count p).count.total = (pumping.taken ++ [p]).length
      rw [Desk.apply_counts, before, List.length_append]
      rfl

/-- A post for a search that is not open changes no search. -/
theorem receive_closed {p : Post} {rest : List Post} (queue : l.desk.queue = p :: rest)
    (closed : l.desk.search? p.search = none) :
    (l.step .receive).desk.searches = l.desk.searches := by
  have same : { l.desk with queue := rest }.search? p.search = none := closed
  cases under : l.pumping with
  | none => simp only [step, under]
  | some pumping =>
      simp only [step, under, queue, receive, Desk.apply, same]

theorem Kept.openSearch (h : l.Kept options registry) (query : String) :
    { l with desk := (l.desk.openSearch query).1 }.Kept options registry :=
  { h with
    serves := h.serves.openSearch query
    tells := h.tells.openSearch h.serves query
    known := fun p hp => Nat.lt_succ_of_lt (h.known p hp) }

theorem Kept.closeSearch (h : l.Kept options registry) (id : SearchId) :
    { l with desk := (l.desk.closeSearch id).1 }.Kept options registry :=
  { h with
    serves := h.serves.fewer List.filter_sublist rfl rfl rfl
    tells := h.tells.fewer List.filter_sublist rfl rfl rfl }

/-- A post that is sent waits at the end of the queue. -/
theorem Kept.send (h : l.Kept options registry) {p : Post}
    (opened : p.search.val < l.desk.nextSearch) :
    { l with desk := l.desk.post p, sent := l.sent ++ [p] }.Kept options registry := by
  refine
    { h with
      serves := h.serves.congr rfl rfl rfl rfl
      tells := h.tells.fewer (List.Sublist.refl _) rfl rfl rfl
      known := fun q hq => ?_
      conserved := ?_ }
  · rcases List.mem_append.mp hq with hq | hq
    · exact h.known q hq
    · exact List.mem_singleton.mp hq ▸ opened
  · show l.sent ++ [p] = takenPosts l.log ++ (l.desk.queue ++ [p])
    rw [h.conserved, List.append_assoc]

/-- A pumping starts without a post. -/
theorem Kept.startPump (h : l.Kept options registry) (idle : l.pumping = none) (waits : Bool) :
    { l with pumping := some ⟨waits, [], {}⟩ }.Kept options registry := by
  refine { h with pumped := ?_, counted := fun x hx => ?_ }
  · rw [h.pumped, idle]
    simp
  · rcases List.mem_append.mp hx with hx | hx
    · exact h.counted x (List.mem_append_left _ hx)
    · obtain rfl := List.mem_singleton.mp hx
      rfl

/-- A pumping that ends keeps what it has taken. -/
theorem Kept.endPump (h : l.Kept options registry) {pumping : Pumping}
    (under : l.pumping = some pumping) :
    { l with pumping := none, ended := l.ended ++ [pumping] }.Kept options registry := by
  have same : l.ended ++ [pumping] ++ (none : Option Pumping).toList =
      l.ended ++ l.pumping.toList := by
    rw [under]
    exact List.append_nil _
  exact
    { h with
      pumped := h.pumped.trans (congrArg (List.flatMap Pumping.taken) same.symm)
      counted := fun x hx => h.counted x (same ▸ hx) }

theorem Kept.step (h : l.Kept options registry) (s : DeskStep) :
    (l.step s).Kept options registry := by
  cases s with
  | openSearch query =>
      simp only [LiveDesk.step]
      split
      · exact h.openSearch query
      · exact h
  | closeSearch id =>
      simp only [LiveDesk.step]
      split
      · exact h.closeSearch id
      · exact h
  | call id c =>
      simp only [LiveDesk.step]
      split
      · next s _ hs =>
        obtain ⟨-, rfl⟩ := h.serves.search?_eq_some_iff.mp hs
        exact h.call hs c
      · exact h
  | send p =>
      simp only [LiveDesk.step]
      split
      · next opened => exact h.send opened
      · exact h
  | startPump waits =>
      simp only [LiveDesk.step]
      split
      · next idle => exact h.startPump (Option.isNone_iff_eq_none.mp idle) waits
      · exact h
  | receive =>
      simp only [LiveDesk.step]
      split
      · next under queue => exact h.receive under queue
      · exact h
  | endPump =>
      simp only [LiveDesk.step]
      split
      · next under =>
        split
        · exact h.endPump under
        · exact h
      · exact h

theorem Kept.run (h : l.Kept options registry) (steps : List DeskStep) :
    (l.run steps).Kept options registry := by
  induction steps generalizing l with
  | nil => exact h
  | cons s rest ih => exact ih (h.step s)

/-! ## Results reach their own searches -/

/-- In whatever order searches are opened and closed, results posted, tables worked on and posts
taken from the queue: every open search has the table that a fresh one becomes when the results
taken for it so far and its owner's calls are given to it in their order, has told of just that, and
is finished once it was told so. Posts are taken in the order in which they were sent, each of them
once and counted once, and one for a search that is not open changes no search. -/
theorem posts_reach_their_searches (options : Options) (registry : Registry)
    (steps : List DeskStep) :
    let l := (new options registry).run steps
    (∀ s ∈ l.desk.searches,
      s.table = (Table.new options registry).after (commandsFor s.id l.log) ∧
      eventsOf s.id l.told = (Table.new options registry).tells (commandsFor s.id l.log) ∧
      (s.finished = true ↔ .finished s.id ∈ takenPosts l.log)) ∧
    l.sent = takenPosts l.log ++ l.desk.queue ∧
    takenPosts l.log = (l.ended ++ l.pumping.toList).flatMap Pumping.taken ∧
    (∀ pumping ∈ l.ended ++ l.pumping.toList,
      pumping.count.delivered + pumping.count.dropped + pumping.count.finished =
        pumping.taken.length) ∧
    (∀ p rest, l.desk.queue = p :: rest → l.desk.search? p.search = none →
      (l.step .receive).desk.searches = l.desk.searches) ∧
    (l.pumping = none → ∀ waits,
      let l' := l.run
        (.startPump waits :: List.replicate l.desk.queue.length .receive ++ [.endPump])
      l'.desk = l.desk.pump.desk ∧
        l'.ended = l.ended ++ [⟨waits, l.desk.queue, l.desk.pump.count⟩]) := by
  intro l
  have kept : l.Kept options registry := (new_kept options registry).run steps
  refine ⟨fun s hs => ⟨?_, ?_, ?_⟩, kept.conserved, kept.pumped, kept.counted, ?_,
    fun idle waits => run_pump idle waits⟩
  · rw [kept.serves.table s hs, kept.options, kept.registry]
  · rw [kept.tells.events s hs, kept.options, kept.registry]
  · rw [kept.serves.finished s hs, mem_takenPosts]
  · intro p rest queue closed
    exact receive_closed queue closed

/-- One search may be open. The second one evicts the first, for which a result still comes, while
its own results come before and during the pumping and its owner hides what has arrived. -/
theorem posts_reach_their_searches_of_evicted :
    let a : SearchResult := { fileName := "a", size := 1 }
    let b : SearchResult := { fileName := "b", size := 2 }
    let steps : List DeskStep :=
      [.openSearch "first", .send (.result ⟨0⟩ a), .openSearch "second", .send (.result ⟨1⟩ b),
        .startPump false, .receive, .send (.finished ⟨1⟩), .receive, .receive, .endPump,
        .call ⟨1⟩ (.markJunk ⟨0⟩ true), .send (.finished ⟨0⟩)]
    let l := (new { maxSearches := 1 } .empty).run steps
    l.desk.searches.map (·.id) = [⟨1⟩] ∧
      (∀ s ∈ l.desk.searches,
        s.table = (Table.new { maxSearches := 1 } .empty).after (commandsFor s.id l.log) ∧
        (s.finished = true ↔ .finished s.id ∈ takenPosts l.log)) ∧
      (commandsFor ⟨1⟩ l.log).length = 2 ∧
      takenPosts l.log = [.result ⟨0⟩ a, .result ⟨1⟩ b, .finished ⟨1⟩] ∧
      l.desk.queue = [.finished ⟨0⟩] ∧
      l.ended.map (·.count) = [{ delivered := 1, dropped := 1, finished := 1 }] ∧
      (l.step .receive).desk.searches.map (·.id) = [⟨1⟩] := by
  intro a b steps l
  refine ⟨by decide +kernel, fun s hs => ?_, by decide +kernel, by decide +kernel,
    by decide +kernel, by decide +kernel, by decide +kernel⟩
  -- This holds for any steps; with these ones in sight Lean would run them.
  clear_value steps
  have served := (posts_reach_their_searches { maxSearches := 1 } .empty steps).1 s hs
  exact ⟨served.1, served.2.2⟩

end LiveDesk

end PeerSearch
