import PeerSearch.Proofs.Replay.InOrder

/-!
# PeerSearch.Proofs.Replay.Threads -- what is reported does not hang on who is quicker

A post is with its producer, in the queue, or taken. `Playing` says that for each search these three
together are the posts of its input, in their order, whoever has had the last step. The player stops
when every open search has been told its end, which is the last thing its producer posts, or when
all producers are through and the queue is empty: either way an open search has all of its posts.
-/

namespace PeerSearch

namespace Replay

/-! ## What is to be reported -/

/-- An input as it is read, under its name. -/
def readAs (input : Input) : Except Recording.ReplayError (String × Recording) :=
  (Recording.ofFile input.1 input.2).map (input.1, ·)

/-- The reports of inputs: those of the last ones, each as if it were alone; the first input that
cannot be read is the error. -/
def reported (wording : Wording) (s : Settings) (inputs : List Input) :
    Except Recording.ReplayError (List SearchReport) :=
  (inputs.mapM readAs).map fun recordings =>
    (lastOnes s recordings).map fun x => alone wording s x.1 x.2

theorem mapM_readInput {files : String → FileContent} {inputs : List Input}
    (found : ∀ input ∈ inputs, input.2 = files input.1) :
    (inputs.map (·.1)).mapM (readInput files) = inputs.mapM readAs := by
  induction inputs with
  | nil => rfl
  | cons input rest ih =>
      have first : readInput files input.1 = readAs input := by
        rw [readInput, readAs, found input List.mem_cons_self]
      rw [List.map_cons, List.mapM_cons, List.mapM_cons, first,
        ih fun x hx => found x (List.mem_cons_of_mem input hx)]

/-- A replay in order reports just that. -/
theorem run_eq_reported (wording : Wording) (s : Settings) {files : String → FileContent}
    {inputs : List Input} (found : ∀ input ∈ inputs, input.2 = files input.1) :
    run wording s files (inputs.map (·.1)) = reported wording s inputs := by
  rw [run, mapM_readInput found, reported]
  congr 1
  funext recordings
  exact reports_inOrder wording s recordings

/-- When the inputs up to one are read, reading goes on with that one. -/
theorem mapM_of_read {α β ε : Type} {f : α → Except ε β} {l : List α} {read : List β}
    (h : l.map f = read.map .ok) (rest : List α) :
    (l ++ rest).mapM f = (rest.mapM f).map (read ++ ·) := by
  induction l generalizing read with
  | nil =>
      obtain rfl := List.map_eq_nil_iff.mp h.symm
      show rest.mapM f = _
      cases rest.mapM f <;> rfl
  | cons x l ih =>
      cases read with
      | nil => cases h
      | cons y read =>
          obtain ⟨first, others⟩ := List.cons.inj h
          rw [List.cons_append, List.mapM_cons, first, ih others]
          cases rest.mapM f <;> rfl

/-! ## The invariant -/

namespace Stage

/-- The inputs that have no search yet. -/
def unopened : Stage → List Input
  | opening inputs => inputs
  | _ => []

/-- How many searches the player has come to close. -/
def closed : Stage → Nat
  | closing closed _ => closed
  | _ => 0

end Stage

/-- What there is of a search besides the desk: its producer has its name and will end with what its
file comes to, and what has been taken, what waits and what is not posted yet is what its file
has to say. -/
structure Follows (i : Nat) (input : Input) (taken queue : List Post) (producer : Producer) :
    Prop where
  search : producer.search = ⟨i⟩
  outcome : producer.outcome = (Recording.ofFile input.1 input.2).map (·.badLines)
  posts : postsFor ⟨i⟩ taken ++ postsFor ⟨i⟩ queue ++ producer.unsent = filePosts ⟨i⟩ input.2

namespace Follows

variable {i : Nat} {input : Input} {taken queue : List Post} {producer : Producer} {post : Post}

/-- A producer posts what is next. -/
theorem send {id : SearchId} {rest : List Post}
    {outcome : Except Recording.ReplayError (List BadLine)}
    (h : Follows i input taken queue ⟨id, post :: rest, outcome⟩) (own : post.search = ⟨i⟩) :
    Follows i input taken (queue ++ [post]) ⟨id, rest, outcome⟩ := by
  refine ⟨h.search, h.outcome, ?_⟩
  rw [postsFor_append, postsFor_singleton, if_pos own, ← h.posts]
  simp only [List.append_assoc, List.singleton_append]

/-- What the producer of another search posts makes no difference. -/
theorem other (h : Follows i input taken queue producer) (foreign : post.search ≠ ⟨i⟩) :
    Follows i input taken (queue ++ [post]) producer := by
  refine ⟨h.search, h.outcome, ?_⟩
  rw [postsFor_append, postsFor_singleton, if_neg foreign, List.append_nil]
  exact h.posts

/-- What is taken does not wait any more. -/
theorem receive (h : Follows i input taken (post :: queue) producer) :
    Follows i input (taken ++ [post]) queue producer := by
  have moved : postsFor ⟨i⟩ (post :: queue) = postsFor ⟨i⟩ [post] ++ postsFor ⟨i⟩ queue :=
    postsFor_append ⟨i⟩ [post] queue
  refine ⟨h.search, h.outcome, ?_⟩
  rw [← h.posts, moved, postsFor_append, List.append_assoc (postsFor ⟨i⟩ taken)]

/-- A search that has been told its end has been told all. -/
theorem heard (h : Follows i input taken queue producer) (done : .finished ⟨i⟩ ∈ taken) :
    postsFor ⟨i⟩ taken = filePosts ⟨i⟩ input.2 := by
  have told : .finished ⟨i⟩ ∈ postsFor ⟨i⟩ taken := mem_postsFor.mpr ⟨done, rfl⟩
  have split := h.posts
  rw [List.append_assoc] at split
  rw [← split, filePosts_finished split told, List.append_nil]

end Follows

/-- A player between two steps, before it has ended. -/
structure Playing (p : Player) (wording : Wording) (s : Settings) (inputs : List Input)
    (log : List DeskEntry) : Prop where
  wording_eq : p.wording = wording
  settings : p.settings = s
  attended : Attended s (inputs.map (·.1)) p.producers.length p.stage.closed p.desk log
  unopened : p.stage.unopened = inputs.drop p.producers.length
  known : ∀ post ∈ p.desk.queue, post.search.val < p.producers.length
  follows : ∀ i producer, p.producers[i]? = some producer →
    ∃ input, inputs[i]? = some input ∧ Follows i input (takenPosts log) p.desk.queue producer
  through : p.stage = .lastPumping → ∀ producer ∈ p.producers, producer.unsent = []
  /-- A player that closes searches has told those that are open all that there is to tell. -/
  heard : ∀ closed reports, p.stage = .closing closed reports →
    ∀ i input, inputs[i]? = some input → inputs.length - p.desk.limit ≤ i →
      postsFor ⟨i⟩ (takenPosts log) = filePosts ⟨i⟩ input.2
  reports : ∀ closed reports, p.stage = .closing closed reports →
    ∃ recordings : List (String × Recording), (inputs.take closed).map readAs = recordings.map .ok ∧
      reports = (recordings.drop (inputs.length - p.desk.limit)).map fun x =>
        alone wording s x.1 x.2
  notEnded : ∀ outcome, p.stage ≠ .ended outcome

variable {p : Player} {wording : Wording} {s : Settings} {inputs : List Input}
  {log : List DeskEntry}

theorem new_playing (wording : Wording) (s : Settings) (inputs : List Input) :
    Playing (.new wording s inputs) wording s inputs [] where
  wording_eq := rfl
  settings := rfl
  attended := new_attended s _
  unopened := rfl
  known _ h := absurd h List.not_mem_nil
  follows _ _ h := by cases h
  through h := by cases h
  heard _ _ h := by cases h
  reports _ _ h := by cases h
  notEnded _ h := by cases h

/-- Once nothing is left to open, every input has its search. -/
theorem Playing.all_open (h : Playing p wording s inputs log) (opened : p.stage.unopened = []) :
    p.producers.length = inputs.length := by
  have enough : inputs.length ≤ p.producers.length :=
    List.drop_eq_nil_iff.mp (h.unopened.symm.trans opened)
  refine le_antisymm (Nat.le_of_not_lt fun more => ?_) enough
  obtain ⟨input, found, -⟩ := h.follows inputs.length _ (List.getElem?_eq_getElem more)
  rw [List.getElem?_eq_none (Nat.le_refl _)] at found
  cases found

/-! ### Where the player is -/

/-- Going on to a stage in which nothing is closed yet and nothing is known about the posts. -/
theorem Playing.goTo (h : Playing p wording s inputs log) {stage : Stage}
    (unopened : stage.unopened = p.stage.unopened) (closed : p.stage.closed = 0)
    (plain : stage = .waiting ∨ stage = .draining ∨ stage = .checking) :
    Playing { p with stage } wording s inputs log := by
  have start : stage.closed = 0 := by rcases plain with rfl | rfl | rfl <;> rfl
  refine { h with
    attended := ?_
    unopened := unopened.trans h.unopened
    through := fun at_last => ?_
    heard := fun _ _ closing => ?_
    reports := fun _ _ closing => ?_
    notEnded := fun _ ended => ?_ }
  · show Attended s _ _ stage.closed _ _
    rw [start, ← closed]
    exact h.attended
  · rcases plain with rfl | rfl | rfl <;> cases at_last
  · rcases plain with rfl | rfl | rfl <;> cases closing
  · rcases plain with rfl | rfl | rfl <;> cases closing
  · rcases plain with rfl | rfl | rfl <;> cases ended

/-- A player may close searches once those that are open have been told all. -/
theorem Playing.startClosing (h : Playing p wording s inputs log) (opened : p.stage.unopened = [])
    (closed : p.stage.closed = 0)
    (heard : ∀ i input, inputs[i]? = some input → inputs.length - p.desk.limit ≤ i →
      postsFor ⟨i⟩ (takenPosts log) = filePosts ⟨i⟩ input.2) :
    Playing { p with stage := .closing 0 [] } wording s inputs log := by
  refine { h with
    attended := ?_
    unopened := opened.symm.trans h.unopened
    through := fun at_last => ?_
    heard := fun _ _ _ => heard
    reports := fun _ _ closing => ?_
    notEnded := fun _ ended => ?_ }
  · have attended := h.attended
    rw [closed] at attended
    exact attended
  · cases at_last
  · obtain ⟨rfl, rfl⟩ := Stage.closing.inj closing
    exact ⟨[], rfl, by rw [List.drop_nil]; rfl⟩
  · cases ended

/-- A player may go on to the last pumping once all producers are through. -/
theorem Playing.startLastPumping (h : Playing p wording s inputs log)
    (at_checking : p.stage = .checking) (through : ∀ producer ∈ p.producers, producer.unsent = []) :
    Playing { p with stage := .lastPumping } wording s inputs log := by
  have attended := h.attended
  have unopened := h.unopened
  rw [at_checking] at attended unopened
  exact
    { h with
      attended := attended
      unopened := unopened
      through := fun _ => through
      heard := fun _ _ closing => by cases closing
      reports := fun _ _ closing => by cases closing
      notEnded := fun _ ended => by cases ended }

/-! ### One step -/

/-- Nobody posts under a name before its search is opened. -/
theorem Playing.unposted (h : Playing p wording s inputs log) :
    postsFor ⟨p.producers.length⟩ p.desk.queue = [] := by
  refine postsFor_eq_nil fun post hpost same => ?_
  have known := h.known post hpost
  rw [same] at known
  exact absurd known (lt_irrefl _)

theorem Playing.openNext (h : Playing p wording s inputs log) {input : Input} {rest : List Input}
    (at_opening : p.stage = .opening (input :: rest)) :
    Playing (p.openInput input rest) wording s inputs
      (log ++ [.call ⟨p.producers.length⟩ (.setFilter s.shows)]) := by
  have left : inputs.drop p.producers.length = input :: rest := by
    rw [← h.unopened, at_opening]
    rfl
  obtain ⟨first, later, -⟩ := drop_eq_cons left
  have hpath : (inputs.map (·.1))[p.producers.length]? = some input.1 := by
    rw [List.getElem?_map, first]
    rfl
  have attended := h.attended
  rw [at_opening] at attended
  obtain ⟨opens, name, queue⟩ := attended.openSearch hpath
  have heq : p.openInput input rest =
      { p with
        desk := (openSearch s p.desk input.1).1
        producers := p.producers ++ [.start ⟨p.producers.length⟩ input]
        stage := .opening rest } := by
    rw [← name, ← h.settings]
    rfl
  have count : (p.producers ++ [Producer.start ⟨p.producers.length⟩ input]).length =
      p.producers.length + 1 := List.length_append
  rw [heq]
  constructor
  · exact h.wording_eq
  · exact h.settings
  · rw [count]
    exact opens
  · show rest = _
    rw [count, later]
  · intro post hpost
    show _ < (p.producers ++ [_]).length
    rw [count]
    exact Nat.lt_succ_of_lt (h.known post (queue ▸ hpost))
  · intro i producer hi
    rw [takenPosts_call]
    show ∃ input', _ ∧
      Follows i input' (takenPosts log) (Replay.openSearch s p.desk input.1).1.queue producer
    rw [queue]
    rcases Nat.lt_or_ge i p.producers.length with old | new
    · exact h.follows i producer ((List.getElem?_append_left old).symm.trans hi)
    · rw [List.getElem?_append_right new] at hi
      obtain ⟨last, rfl⟩ : i - p.producers.length = 0 ∧
          Producer.start ⟨p.producers.length⟩ input = producer := by
        simpa [List.getElem?_singleton] using hi
      obtain rfl : i = p.producers.length := by omega
      refine ⟨input, first, rfl, rfl, ?_⟩
      -- Nobody has posted under the new name.
      rw [h.attended.unsaid.2, h.unposted]
      rfl
  · exact fun at_last => by cases at_last
  · exact fun _ _ closing => by cases closing
  · exact fun _ _ closing => by cases closing
  · exact fun _ ended => by cases ended

theorem Playing.send (h : Playing p wording s inputs log) {i : Nat} {id : SearchId} {post : Post}
    {rest : List Post} {outcome : Except Recording.ReplayError (List BadLine)}
    (hi : p.producers[i]? = some ⟨id, post :: rest, outcome⟩) :
    Playing
      { p with
        desk := p.desk.post post
        producers := p.producers.set i ⟨id, rest, outcome⟩ } wording s inputs log := by
  obtain ⟨input, found, follows⟩ := h.follows i _ hi
  have inside : i < p.producers.length := (List.getElem?_eq_some_iff.mp hi).1
  have own : post.search = ⟨i⟩ := by
    have mem : post ∈ filePosts ⟨i⟩ input.2 := by
      rw [← follows.posts]
      exact List.mem_append_right _ List.mem_cons_self
    exact filePosts_search mem
  have count : (p.producers.set i ⟨id, rest, outcome⟩).length = p.producers.length :=
    List.length_set
  constructor
  · exact h.wording_eq
  · exact h.settings
  · rw [count]
    exact h.attended.withQueue _
  · rw [count]
    exact h.unopened
  · intro q hq
    show _ < (p.producers.set i _).length
    rw [count]
    rcases List.mem_append.mp hq with hq | hq
    · exact h.known q hq
    · rw [List.mem_singleton.mp hq, own]
      exact inside
  · intro j producer hj
    have hj : (p.producers.set i ⟨id, rest, outcome⟩)[j]? = some producer := hj
    show ∃ input, _ ∧ Follows j input (takenPosts log) (p.desk.queue ++ [post]) producer
    by_cases same : i = j
    · subst same
      rw [List.getElem?_set_self inside] at hj
      obtain rfl := Option.some.inj hj
      exact ⟨input, found, follows.send own⟩
    · rw [List.getElem?_set_ne same] at hj
      obtain ⟨input', found', others⟩ := h.follows j producer hj
      refine ⟨input', found', others.other fun both => same ?_⟩
      exact congrArg SearchId.val (own.symm.trans both)
  · intro at_last
    cases h.through at_last _ (List.mem_of_getElem? hi)
  · exact h.heard
  · exact h.reports
  · exact h.notEnded

theorem Playing.receive (h : Playing p wording s inputs log) {stage : Stage} {post : Post}
    {rest : List Post} (pumps : p.stage.afterPost? = some stage)
    (queue : p.desk.queue = post :: rest) :
    Playing { p with desk := ({ p.desk with queue := rest }.apply {} post).desk, stage } wording s
      inputs (log ++ [.taken post]) := by
  have known : post.search.val < p.producers.length :=
    h.known post (queue ▸ List.mem_cons_self)
  obtain ⟨closed, unopened, last⟩ : p.stage.closed = stage.closed ∧
      p.stage.unopened = stage.unopened ∧
      (stage = .draining ∨ stage = .lastPumping ∧ p.stage = .lastPumping) := by
    cases hstage : p.stage with
    | waiting | draining | lastPumping =>
        rw [hstage] at pumps
        obtain rfl := Option.some.inj pumps
        simp [Stage.closed, Stage.unopened]
    | opening | checking | closing | ended =>
        rw [hstage] at pumps
        cases pumps
  have taken : takenPosts (log ++ [.taken post]) = takenPosts log ++ [post] :=
    takenPosts_taken log [post]
  have left : ({ p.desk with queue := rest }.apply {} post).desk.queue = rest := by
    rw [Desk.apply_keeps]
  constructor
  · exact h.wording_eq
  · exact h.settings
  · have attended := (h.attended.withQueue rest).apply {} known
    rw [closed] at attended
    exact attended
  · exact unopened.symm.trans h.unopened
  · intro q hq
    exact h.known q (queue ▸ List.mem_cons_of_mem post (left ▸ hq))
  · intro i producer hi
    obtain ⟨input, found, follows⟩ := h.follows i producer hi
    refine ⟨input, found, ?_⟩
    rw [queue] at follows
    rw [taken]
    show Follows i input _ ({ p.desk with queue := rest }.apply {} post).desk.queue producer
    rw [left]
    exact follows.receive
  · intro at_last
    rcases last with rfl | ⟨-, before⟩
    · cases at_last
    · exact h.through before
  · intro _ _ closing
    rcases last with rfl | ⟨rfl, -⟩ <;> cases closing
  · intro _ _ closing
    rcases last with rfl | ⟨rfl, -⟩ <;> cases closing
  · intro _ ended
    rcases last with rfl | ⟨rfl, -⟩ <;> cases ended

/-! ### When the player may stop -/

/-- When every open search is finished, those that are open have been told all. -/
theorem Playing.heard_of_allFinished (h : Playing p wording s inputs log)
    (opened : p.stage.unopened = []) (closed : p.stage.closed = 0)
    (finished : p.desk.allFinished = true) (i : Nat) (input : Input)
    (hi : inputs[i]? = some input) (late : inputs.length - p.desk.limit ≤ i) :
    postsFor ⟨i⟩ (takenPosts log) = filePosts ⟨i⟩ input.2 := by
  have count := h.all_open opened
  have inside : i < inputs.length := (List.getElem?_eq_some_iff.mp hi).1
  have listed : i ∈ p.desk.openIds := by
    rw [h.attended.openIds, closed, count, List.mem_range'_1]
    omega
  obtain ⟨search, mem, rfl⟩ := List.mem_map.mp listed
  have done : search.finished = true := List.all_eq_true.mp finished search mem
  obtain ⟨input', found, follows⟩ :=
    h.follows search.id.val _ (List.getElem?_eq_getElem (count ▸ inside))
  obtain rfl : input' = input := Option.some.inj (found.symm.trans hi)
  exact follows.heard (mem_takenPosts.mpr ((h.attended.serves.finished search mem).mp done))

/-- When all producers are through and the queue is empty, all has been told. -/
theorem Playing.heard_of_through (h : Playing p wording s inputs log)
    (opened : p.stage.unopened = [])
    (through : ∀ producer ∈ p.producers, producer.unsent = []) (empty : p.desk.queue = [])
    (i : Nat) (input : Input) (hi : inputs[i]? = some input) :
    postsFor ⟨i⟩ (takenPosts log) = filePosts ⟨i⟩ input.2 := by
  have inside : i < p.producers.length := by
    rw [h.all_open opened]
    exact (List.getElem?_eq_some_iff.mp hi).1
  obtain ⟨input', found, follows⟩ := h.follows i _ (List.getElem?_eq_getElem inside)
  obtain rfl : input' = input := Option.some.inj (found.symm.trans hi)
  have posts := follows.posts
  rw [empty, through _ (List.getElem_mem inside)] at posts
  rw [← posts]
  exact ((List.append_nil _).trans (List.append_nil _)).symm

theorem Playing.endPumping (h : Playing p wording s inputs log) {stage : Stage}
    (after : p.stage.afterPumping? p.desk.queue = some stage) :
    Playing { p with stage } wording s inputs log := by
  cases hstage : p.stage with
  | waiting =>
      rw [hstage] at after
      obtain rfl := Option.some.inj after
      exact h.goTo (by rw [hstage]; rfl) (by rw [hstage]; rfl) (.inr (.inr rfl))
  | draining =>
      rw [hstage, Stage.afterPumping?] at after
      split at after
      · obtain rfl := Option.some.inj after
        exact h.goTo (by rw [hstage]; rfl) (by rw [hstage]; rfl) (.inr (.inr rfl))
      · cases after
  | lastPumping =>
      rw [hstage, Stage.afterPumping?] at after
      split at after
      · next empty =>
        obtain rfl := Option.some.inj after
        have opened : p.stage.unopened = [] := by rw [hstage]; rfl
        refine h.startClosing opened (by rw [hstage]; rfl) fun i input hi _ => ?_
        exact h.heard_of_through opened (h.through hstage) (List.isEmpty_iff.mp empty) i input hi
      · cases after
  | opening | checking | closing | ended =>
      rw [hstage] at after
      cases after

/-! ### Closing -/

/-- A player that has ended has the reports that there ought to be. -/
def Played (p : Player) (wording : Wording) (s : Settings) (inputs : List Input) : Prop :=
  (∃ log, Playing p wording s inputs log) ∨ p.stage = .ended (reported wording s inputs)

/-- What closing a search adds to the reports: nothing for a search that was closed before. -/
theorem reports_add_one {α β : Type} (report : α → β) (l : List α) (x : α) (dropped : Nat) :
    ((l ++ [x]).drop dropped).map report = (l.drop dropped).map report ++
      (if dropped ≤ l.length then some (report x) else none).toList := by
  rw [List.drop_append, List.map_append]
  congr 1
  split
  · next late =>
    rw [Nat.sub_eq_zero_of_le late]
    rfl
  · next early =>
    rw [List.drop_eq_nil_of_le (by rw [List.length_singleton]; omega)]
    rfl

/-- Closing the search of an input that can be read. -/
theorem Playing.closeNext_eq (h : Playing p wording s inputs log) {closed : Nat}
    {reports : List SearchReport} (at_closing : p.stage = .closing closed reports)
    {producer : Producer} (next : p.producers[closed]? = some producer) {input : Input}
    (hinput : inputs[closed]? = some input)
    (follows : Follows closed input (takenPosts log) p.desk.queue producer) {r : Recording}
    (hread : Recording.ofFile input.1 input.2 = .ok r) :
    p.closeNext closed reports producer =
      { p with
        desk := (p.desk.closeSearch ⟨closed⟩).1
        stage := .closing (closed + 1) (reports ++
          (if inputs.length - p.desk.limit ≤ closed then some (alone wording s input.1 r)
            else none).toList) } := by
  have inside : closed < p.producers.length := (List.getElem?_eq_some_iff.mp next).1
  have count := h.all_open (by rw [at_closing]; rfl)
  have attended : Attended s (inputs.map (·.1)) p.producers.length closed p.desk log := by
    have := h.attended
    rwa [at_closing] at this
  have hpath : (inputs.map (·.1))[closed]? = some input.1 := by
    rw [List.getElem?_map, hinput]
    rfl
  have heard : p.producers.length - p.desk.limit ≤ closed →
      adds (postsFor ⟨closed⟩ (takenPosts log)) = r.results.map .add := by
    intro late
    obtain ⟨texts, readable, rfl⟩ := ofFile_eq_ok hread
    rw [h.heard closed reports at_closing closed input hinput (count ▸ late),
      filePosts_of_readable _ readable]
    exact adds_posts ⟨closed⟩ ⟨resultsIn texts, badLinesIn 1 texts⟩
  have report := attended.report wording inside hpath heard
  have outcome := follows.outcome
  rw [hread] at outcome
  rw [← count, ← report, ← h.wording_eq, ← h.settings, ← follows.search, Player.closeNext,
    outcome]
  rfl

theorem Playing.closeNext (h : Playing p wording s inputs log) {closed : Nat}
    {reports : List SearchReport} (at_closing : p.stage = .closing closed reports)
    {producer : Producer} (next : p.producers[closed]? = some producer) :
    Played (p.closeNext closed reports producer) wording s inputs := by
  obtain ⟨input, hinput, follows⟩ := h.follows closed producer next
  obtain ⟨recordings, read, reports_eq⟩ := h.reports closed reports at_closing
  have inside : closed < p.producers.length := (List.getElem?_eq_some_iff.mp next).1
  have opened : p.stage.unopened = [] := by rw [at_closing]; rfl
  have count := h.all_open opened
  cases hread : Recording.ofFile input.1 input.2 with
  | error e =>
      -- The first input that cannot be read is the error of the replay.
      have split : inputs = inputs.take closed ++ input :: inputs.drop (closed + 1) := by
        have := List.getElem_cons_drop (count ▸ inside : closed < inputs.length)
        rw [(List.getElem?_eq_some_iff.mp hinput).2] at this
        rw [this, List.take_append_drop]
      have failed : inputs.mapM readAs = .error e := by
        rw [split, mapM_of_read read, List.mapM_cons, readAs, hread]
        rfl
      have outcome := follows.outcome
      rw [hread] at outcome
      refine .inr ?_
      rw [Player.closeNext, outcome, reported, failed]
      rfl
  | ok r =>
      have attended := h.attended
      rw [at_closing] at attended
      refine .inl ⟨log, ?_⟩
      rw [h.closeNext_eq at_closing next hinput follows hread]
      refine { h with
        attended := attended.closeSearch inside
        unopened := opened.symm.trans h.unopened
        through := fun at_last => by cases at_last
        heard := fun _ _ _ => h.heard closed reports at_closing
        reports := fun _ _ closing => ?_
        notEnded := fun _ ended => by cases ended }
      obtain ⟨rfl, rfl⟩ := Stage.closing.inj closing
      have length : recordings.length = closed := by
        have := congrArg List.length read
        rw [List.length_map, List.length_map, List.length_take] at this
        omega
      refine ⟨recordings ++ [(input.1, r)], ?_, ?_⟩
      · rw [List.take_add_one, List.map_append, read, hinput, List.map_append]
        show _ ++ [readAs input] = _
        rw [readAs, hread]
        rfl
      · have limit : (p.desk.closeSearch ⟨closed⟩).1.limit = p.desk.limit := rfl
        show _ = (List.drop (inputs.length - (p.desk.closeSearch ⟨closed⟩).1.limit) _).map _
        rw [limit, reports_add_one, length, reports_eq]

/-- When all searches are closed, the reports are complete. -/
theorem Playing.finish (h : Playing p wording s inputs log) {closed : Nat}
    {reports : List SearchReport} (at_closing : p.stage = .closing closed reports)
    (none_left : p.producers[closed]? = none) :
    reported wording s inputs = .ok reports := by
  obtain ⟨recordings, read, rfl⟩ := h.reports closed reports at_closing
  have count := h.all_open (by rw [at_closing]; rfl)
  have all : inputs.length ≤ closed := by
    rw [← count]
    exact List.getElem?_eq_none_iff.mp none_left
  rw [List.take_of_length_le all] at read
  have done : inputs.mapM readAs = .ok recordings := by
    have := mapM_of_read read []
    rw [List.append_nil] at this
    rw [this]
    show Except.ok (recordings ++ []) = _
    rw [List.append_nil]
  have length : recordings.length = inputs.length := by
    have := congrArg List.length read
    rwa [List.length_map, List.length_map, eq_comm] at this
  rw [reported, done, h.attended.limit_eq, ← length]
  rfl

/-! ### All steps -/

theorem Player.stage_of_outcome {outcome : Except Recording.ReplayError (List SearchReport)}
    (h : p.outcome? = some outcome) : p.stage = .ended outcome := by
  unfold Player.outcome? at h
  split at h
  · next stage => rw [stage, Option.some.inj h]
  · cases h

theorem Player.step_ended {outcome : Except Recording.ReplayError (List SearchReport)}
    (h : p.stage = .ended outcome) (step : PlayStep) : (p.step step).stage = .ended outcome := by
  cases step with
  | send i =>
      simp only [Player.step]
      split <;> exact h
  | openNext | receive | endPumping | check | join =>
      simp only [Player.step, h, Stage.afterPost?, Stage.afterPumping?]

theorem Playing.step (h : Playing p wording s inputs log) (step : PlayStep) :
    Played (p.step step) wording s inputs := by
  cases step with
  | openNext =>
      simp only [Player.step]
      split
      · next input rest at_opening => exact .inl ⟨_, h.openNext at_opening⟩
      · next at_opening =>
        exact .inl ⟨log, h.goTo (by rw [at_opening]; rfl) (by rw [at_opening]; rfl) (.inl rfl)⟩
      · exact .inl ⟨log, h⟩
  | send i =>
      simp only [Player.step]
      split
      · next hi => exact .inl ⟨log, h.send hi⟩
      · exact .inl ⟨log, h⟩
  | receive =>
      simp only [Player.step]
      split
      · next pumps queue => exact .inl ⟨_, h.receive pumps queue⟩
      · exact .inl ⟨log, h⟩
  | endPumping =>
      simp only [Player.step]
      split
      · next after => exact .inl ⟨log, h.endPumping after⟩
      · exact .inl ⟨log, h⟩
  | check seen =>
      simp only [Player.step]
      split
      · next at_checking =>
        have opened : p.stage.unopened = [] := by rw [at_checking]; rfl
        have closed : p.stage.closed = 0 := by rw [at_checking]; rfl
        refine .inl ⟨log, ?_⟩
        split
        · next finished =>
          exact h.startClosing opened closed (h.heard_of_allFinished opened closed finished)
        · split
          · next seen =>
            have all := List.all_eq_true.mp (Bool.and_eq_true_iff.mp seen).2
            refine h.startLastPumping at_checking fun producer mem => ?_
            exact List.isEmpty_iff.mp (all producer mem)
          · exact h.goTo opened.symm closed (.inl rfl)
      · exact .inl ⟨log, h⟩
  | join =>
      simp only [Player.step]
      split
      · next closed reports at_closing =>
        split
        · next producer next =>
          split
          · exact h.closeNext at_closing next
          · exact .inl ⟨log, h⟩
        · next none_left =>
          refine .inr ?_
          show Stage.ended (.ok reports) = _
          rw [h.finish at_closing none_left]
      · exact .inl ⟨log, h⟩

theorem run_played (h : Played p wording s inputs) (steps : List PlayStep) :
    Played (p.run steps) wording s inputs := by
  induction steps generalizing p with
  | nil => exact h
  | cons step rest ih =>
      refine ih ?_
      rcases h with ⟨log, playing⟩ | ended
      · exact playing.step step
      · exact .inr (Player.step_ended ended step)

end Replay

end PeerSearch
