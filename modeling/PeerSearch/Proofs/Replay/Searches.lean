import PeerSearch.Proofs.Desk.Serving
import PeerSearch.Proofs.Replay.Lines

/-!
# PeerSearch.Proofs.Replay.Searches -- the searches of a replay

Searches are opened in the order of the inputs, filtered at once, told of their posts, and closed in
the same order. `Attended` says where a desk is in this; what a search is told besides by its own
posts is the filter alone, so once it has all of them it has the table of its recording.
-/

namespace PeerSearch

/-- The result that a post brings. -/
def Post.result? : Post → Option SearchResult
  | result _ r => some r
  | finished _ => none

namespace Desk

variable {d : Desk} {s : Search}

/-! ## Searches that are put back -/

theorem mem_putSearch {x : Search} (hx : x ∈ (d.putSearch s).searches) :
    x = s ∨ x ∈ d.searches := by
  obtain ⟨other, mem, rfl⟩ := List.mem_map.mp hx
  split
  · exact .inl rfl
  · exact .inr mem

end Desk

namespace Replay

/-! ## Posts about one search -/

/-- The posts about a search, in order. -/
def postsFor (id : SearchId) (posts : List Post) : List Post :=
  posts.filter (·.search == id)

/-- What posts do to the table of their search. -/
def adds (posts : List Post) : List TableCommand :=
  (posts.filterMap Post.result?).map .add

theorem postsFor_append (id : SearchId) (posts more : List Post) :
    postsFor id (posts ++ more) = postsFor id posts ++ postsFor id more :=
  List.filter_append _ _

theorem postsFor_singleton (id : SearchId) (p : Post) :
    postsFor id [p] = if p.search = id then [p] else [] := by
  by_cases h : p.search = id <;> simp [postsFor, h]

theorem postsFor_eq_self {id : SearchId} {posts : List Post} (h : ∀ p ∈ posts, p.search = id) :
    postsFor id posts = posts :=
  List.filter_eq_self.mpr fun p hp => beq_iff_eq.mpr (h p hp)

theorem postsFor_eq_nil {id : SearchId} {posts : List Post} (h : ∀ p ∈ posts, p.search ≠ id) :
    postsFor id posts = [] :=
  List.filter_eq_nil_iff.mpr fun p hp same => h p hp (beq_iff_eq.mp same)

theorem mem_postsFor {id : SearchId} {posts : List Post} {p : Post} :
    p ∈ postsFor id posts ↔ p ∈ posts ∧ p.search = id := by
  rw [postsFor, List.mem_filter, beq_iff_eq]

theorem adds_append (posts more : List Post) : adds (posts ++ more) = adds posts ++ adds more := by
  rw [adds, List.filterMap_append, List.map_append]
  rfl

/-- A post that is taken does to its own table what it brings. -/
theorem commandsFor_taken (id : SearchId) (log : List DeskEntry) (p : Post) :
    commandsFor id (log ++ [.taken p]) = commandsFor id log ++ adds (postsFor id [p]) := by
  rw [commandsFor_append, postsFor_singleton]
  congr 1
  by_cases own : p.search = id
  · rw [if_pos own]
    cases p with
    | result k r =>
        have said : (DeskEntry.taken (.result k r)).command? id = some (.add r) := if_pos own
        rw [said]
        rfl
    | finished k => rfl
  · rw [if_neg own, DeskEntry.command?_of_ne (e := .taken p) own]
    rfl

/-! ## Names of open searches -/

/-- Of numbers in a row that do not start before `c`, those other than `c`. -/
theorem range'_without {c start : Nat} (count : Nat) (h : c ≤ start) :
    (List.range' start count).filter (· != c) =
      List.range' (max start (c + 1)) (start + count - max start (c + 1)) := by
  rcases Nat.eq_or_lt_of_le h with rfl | later
  · cases count with
    | zero => simp
    | succ count =>
        have kept : (List.range' (c + 1) count).filter (· != c) = List.range' (c + 1) count := by
          refine List.filter_eq_self.mpr fun n hn => ?_
          have := List.mem_range'_1.mp hn
          simp only [bne_iff_ne]
          omega
        have first : max c (c + 1) = c + 1 := by omega
        have rest : c + (count + 1) - (c + 1) = count := by omega
        rw [List.range'_succ, List.filter_cons_of_neg (by simp), kept, first, rest]
  · have first : max start (c + 1) = start := by omega
    have all : start + count - start = count := by omega
    rw [first, all]
    refine List.filter_eq_self.mpr fun n hn => ?_
    have := List.mem_range'_1.mp hn
    simp only [bne_iff_ne]
    omega

/-- Opening one more search drops the oldest name when there are as many as may be. -/
theorem range'_open {limit : Nat} (opened : Nat) (room : 1 ≤ limit) :
    (List.range' (opened - limit) (opened - (opened - limit))).drop
        (opened - (opened - limit) + 1 - limit) ++ [opened] =
      List.range' (opened + 1 - limit) (opened + 1 - (opened + 1 - limit)) := by
  rw [List.drop_range']
  rcases Nat.lt_or_ge opened limit with few | many
  · have count : opened + 1 - (opened + 1 - limit) = opened + 1 := by omega
    have start : opened + 1 - limit = 0 := by omega
    have before : opened - limit = 0 := by omega
    have kept : opened + 1 - limit = 0 := by omega
    rw [count, start, List.range'_1_concat, before]
    simp [kept]
  · have count : opened + 1 - (opened + 1 - limit) = limit - 1 + 1 := by omega
    have dropped : opened - (opened - limit) + 1 - limit = 1 := by omega
    have left : opened - (opened - limit) - 1 = limit - 1 := by omega
    have start : opened - limit + 1 = opened + 1 - limit := by omega
    have last : opened + 1 - limit + (limit - 1) = opened := by omega
    rw [count, dropped, left, List.range'_1_concat, last, Nat.mul_one, start]

/-! ## A desk with the searches of a replay -/

/-- The searches of the first `opened` inputs have been opened and those of the first `closed` ones
closed; of the others the last ones are there, as many as may be open. -/
structure Attended (s : Settings) (paths : List String) (opened closed : Nat) (d : Desk)
    (log : List DeskEntry) : Prop where
  options : d.options = s.options
  registry : d.registry = .common
  serves : d.Serves log
  next : d.nextSearch = opened
  openIds : d.openIds =
    List.range' (max (opened - d.limit) closed) (opened - max (opened - d.limit) closed)
  queries : ∀ search ∈ d.searches, ∀ path, paths[search.id.val]? = some path →
    search.query = query path
  /-- The searches are filtered and then told of their posts. -/
  commands : ∀ i < opened,
    commandsFor ⟨i⟩ log = .setFilter s.shows :: adds (postsFor ⟨i⟩ (takenPosts log))

variable {s : Settings} {paths : List String} {opened closed : Nat} {d d' : Desk}
  {log : List DeskEntry}

theorem new_attended (s : Settings) (paths : List String) :
    Attended s paths 0 0 (.new s.options .common) [] where
  options := rfl
  registry := rfl
  serves := Desk.new_serves s.options .common
  next := rfl
  openIds := by simp [Desk.openIds, Desk.new]
  queries _ h := absurd h List.not_mem_nil
  commands _ h := absurd h (Nat.not_lt_zero _)

/-- Posts that wait make no difference. -/
theorem Attended.withQueue (h : Attended s paths opened closed d log) (queue : List Post) :
    Attended s paths opened closed { d with queue } log :=
  { h with serves := h.serves.congr rfl rfl rfl rfl }

theorem Attended.limit_eq (h : Attended s paths opened closed d log) :
    d.limit = max 1 s.options.maxSearches := by
  rw [Desk.limit, h.options]

/-! ### Taking posts -/

theorem Attended.apply (h : Attended s paths opened closed d log) (count : PumpCount) {p : Post}
    (known : p.search.val < opened) :
    Attended s paths opened closed (d.apply count p).desk (log ++ [.taken p]) := by
  have keeps := d.apply_keeps count p
  have searches := h.serves.apply_searches count p
  have limit : (d.apply count p).desk.limit = d.limit := by rw [keeps]; rfl
  constructor
  · rw [keeps]
    exact h.options
  · rw [keeps]
    exact h.registry
  · exact h.serves.apply count (h.next ▸ known)
  · rw [keeps]
    exact h.next
  · rw [d.apply_openIds, limit]
    exact h.openIds
  · intro search hs path hpath
    rw [searches] at hs
    obtain ⟨before, mem, rfl⟩ := List.mem_map.mp hs
    exact h.queries before mem path hpath
  · intro i hi
    have taken : takenPosts (log ++ [.taken p]) = takenPosts log ++ [p] := takenPosts_taken log [p]
    rw [commandsFor_taken, h.commands i hi, taken, postsFor_append, adds_append]
    rfl

/-- Taking posts one after the other leaves the queue and what is opened and closed alone. -/
theorem Attended.applyAll (h : Attended s paths opened closed d log) (count : PumpCount)
    {posts : List Post} (known : ∀ p ∈ posts, p.search.val < opened) :
    Attended s paths opened closed (d.applyAll count posts).desk (log ++ posts.map .taken) := by
  induction posts generalizing d count log with
  | nil =>
      rw [List.map_nil, List.append_nil]
      exact h
  | cons p rest ih =>
      have first := h.apply count (known p List.mem_cons_self)
      have later := ih first (d.apply count p).count fun q hq => known q (List.mem_cons_of_mem p hq)
      rw [List.append_assoc] at later
      exact later

/-! ### Opening -/

theorem openSearch_eq (h : Attended s paths opened 0 d log) (path : String) :
    let fresh : Search := ⟨⟨opened⟩, query path, false, .new d.options d.registry⟩
    let d' := (d.openSearch (query path)).1
    d'.search? fresh.id = some fresh ∧
      openSearch s d path =
        (d'.putSearch { fresh with table := (fresh.table.perform (.setFilter s.shows)).table },
          ⟨opened⟩) := by
  intro fresh d'
  have name : (⟨d.nextSearch⟩ : SearchId) = ⟨opened⟩ := by rw [h.next]
  have opens := h.serves.openSearch (query path)
  have found : d'.search? fresh.id = some fresh := by
    refine opens.search?_eq_some_iff.mpr ⟨?_, rfl⟩
    refine List.mem_append_right _ (List.mem_singleton.mpr ?_)
    rw [name]
  refine ⟨found, ?_⟩
  have named : d.openSearch (query path) = (d', ⟨opened⟩) := by
    rw [← name]
    rfl
  rw [openSearch, named]
  simp only [show d'.search? ⟨opened⟩ = some fresh from found]
  rfl

/-- Nothing has been said to a search that is yet to be opened. -/
theorem Attended.unsaid (h : Attended s paths opened closed d log) :
    commandsFor ⟨opened⟩ log = [] ∧ postsFor ⟨opened⟩ (takenPosts log) = [] := by
  have others : ∀ e ∈ log, e.search ≠ ⟨opened⟩ := by
    rintro e he same
    have before := h.serves.past e he
    rw [h.next, same] at before
    exact absurd before (lt_irrefl _)
  exact ⟨commandsFor_eq_nil others, postsFor_eq_nil fun p hp => others _ (mem_takenPosts.mp hp)⟩

/-- The first thing that a search is told is its filter. -/
theorem Attended.commands_opened (h : Attended s paths opened closed d log) (i : Nat)
    (hi : i < opened + 1) :
    commandsFor ⟨i⟩ (log ++ [.call ⟨opened⟩ (.setFilter s.shows)]) =
      .setFilter s.shows :: adds (postsFor ⟨i⟩
        (takenPosts (log ++ [.call ⟨opened⟩ (.setFilter s.shows)]))) := by
  rw [takenPosts_call, commandsFor_append]
  rcases Nat.lt_or_ge i opened with old | new
  · have other : (DeskEntry.call ⟨opened⟩ (.setFilter s.shows)).search ≠ ⟨i⟩ := by
      intro same
      have := congrArg SearchId.val same
      exact absurd (show opened = i from this) (by omega)
    rw [h.commands i old, DeskEntry.command?_of_ne other]
    exact List.append_nil _
  · obtain rfl : i = opened := by omega
    obtain ⟨uncommanded, untaken⟩ := h.unsaid
    have told : (DeskEntry.call ⟨i⟩ (.setFilter s.shows)).command? ⟨i⟩ =
        some (.setFilter s.shows) := if_pos rfl
    rw [uncommanded, untaken, told]
    rfl

theorem Attended.openIds_opened (h : Attended s paths opened 0 d log) (name : String) :
    (d.openSearch name).1.openIds =
      List.range' (opened + 1 - d.limit) (opened + 1 - (opened + 1 - d.limit)) := by
  rw [d.openSearch_openIds, h.openIds, List.length_range', h.next, Nat.max_zero]
  exact range'_open opened (Nat.le_max_left 1 _)

theorem Attended.openSearch (h : Attended s paths opened 0 d log) {path : String}
    (hpath : paths[opened]? = some path) :
    Attended s paths (opened + 1) 0 (openSearch s d path).1
        (log ++ [.call ⟨opened⟩ (.setFilter s.shows)]) ∧
      (Replay.openSearch s d path).2 = ⟨opened⟩ ∧
      (Replay.openSearch s d path).1.queue = d.queue := by
  obtain ⟨found, heq⟩ := openSearch_eq h path
  set fresh : Search := ⟨⟨opened⟩, query path, false, .new d.options d.registry⟩ with hfresh
  set d' := (d.openSearch (query path)).1 with hd'
  rw [heq]
  refine ⟨?_, rfl, rfl⟩
  have opens : d'.Serves log := h.serves.openSearch (query path)
  constructor
  · exact h.options
  · exact h.registry
  · exact opens.call found (.setFilter s.shows)
  · exact congrArg (· + 1) h.next
  · rw [Desk.putSearch_openIds, Nat.max_zero]
    exact h.openIds_opened (query path)
  · intro search hs path' hpath'
    rcases Desk.mem_putSearch hs with rfl | hs
    · rw [show path' = path from Option.some.inj (hpath'.symm.trans hpath)]
    · rcases List.mem_append.mp hs with hs | hs
      · exact h.queries search ((List.drop_sublist _ _).subset hs) path' hpath'
      · obtain rfl := List.mem_singleton.mp hs
        have here : paths[d.nextSearch]? = some path' := hpath'
        rw [h.next] at here
        rw [show path' = path from Option.some.inj (here.symm.trans hpath)]
  · exact h.commands_opened

/-! ### Closing -/

/-- The report of a recording that is replayed by itself. -/
def alone (wording : Wording) (s : Settings) (path : String) (r : Recording) : SearchReport :=
  .ofTable wording (query path) s.limit r.badLines
    ((Table.new s.options .common).after (.setFilter s.shows :: r.results.map .add))

/-- The next search to close is open when it is one of the last ones. -/
theorem Attended.search? (h : Attended s paths opened closed d log) (hc : closed < opened) :
    (opened - d.limit ≤ closed → ∃ search, d.search? ⟨closed⟩ = some search) ∧
      (closed < opened - d.limit → d.search? ⟨closed⟩ = none) := by
  have listed (i : Nat) : i ∈ d.openIds ↔ max (opened - d.limit) closed ≤ i ∧ i < opened := by
    rw [h.openIds, List.mem_range'_1]
    omega
  constructor
  · intro late
    obtain ⟨search, mem, name⟩ := List.mem_map.mp ((listed closed).mpr (by omega))
    refine ⟨search, h.serves.search?_eq_some_iff.mpr ⟨mem, ?_⟩⟩
    rw [← name]
  · intro early
    refine Desk.search?_eq_none_iff.mpr fun search mem name => ?_
    have := (listed closed).mp (List.mem_map.mpr ⟨search, mem, congrArg SearchId.val name⟩)
    omega

theorem Attended.closeSearch (h : Attended s paths opened closed d log) (hc : closed < opened) :
    Attended s paths opened (closed + 1) (d.closeSearch ⟨closed⟩).1 log := by
  have sub : (d.closeSearch ⟨closed⟩).1.searches.Sublist d.searches := List.filter_sublist
  refine { h with serves := h.serves.fewer sub rfl rfl rfl, openIds := ?_, queries := ?_ }
  · have ids : (d.closeSearch ⟨closed⟩).1.openIds = d.openIds.filter (· != closed) :=
      d.closeSearch_openIds ⟨closed⟩
    have limit : (d.closeSearch ⟨closed⟩).1.limit = d.limit := rfl
    rw [ids, h.openIds, limit, range'_without _ (Nat.le_max_right _ _)]
    congr 1 <;> omega
  · exact fun search hs => h.queries search (sub.subset hs)

/-- A search that has been told all of its recording has the report of its recording. -/
theorem Attended.report (h : Attended s paths opened closed d log) (wording : Wording)
    (hc : closed < opened) {path : String} (hpath : paths[closed]? = some path) {r : Recording}
    (heard : opened - d.limit ≤ closed →
      adds (postsFor ⟨closed⟩ (takenPosts log)) = r.results.map .add) :
    ((d.closeSearch ⟨closed⟩).2.map fun search =>
        SearchReport.ofTable wording search.query s.limit r.badLines search.table) =
      if opened - d.limit ≤ closed then some (alone wording s path r) else none := by
  show (d.search? ⟨closed⟩).map _ = _
  split
  · next late =>
    obtain ⟨search, found⟩ := (h.search? hc).1 late
    obtain ⟨mem, name⟩ := h.serves.search?_eq_some_iff.mp found
    have asked : search.query = query path := h.queries search mem path (name ▸ hpath)
    have table := h.serves.table search mem
    rw [name, h.commands closed hc, heard late, h.options, h.registry] at table
    rw [found, Option.map_some, asked, table]
    rfl
  · next early =>
    rw [(h.search? hc).2 (by omega)]
    rfl

end Replay

end PeerSearch
