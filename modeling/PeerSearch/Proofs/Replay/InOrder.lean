import PeerSearch.Proofs.Replay.Searches

/-!
# PeerSearch.Proofs.Replay.InOrder -- what a replay reports when producers have turns

With turns in order every post waits in the queue before the first one is taken. What is reported
are the last recordings, as many as there may be searches, each of them as if it were alone.
-/

namespace PeerSearch

namespace Desk

theorem play_posts (d : Desk) (posts : List Post) :
    d.play (posts.map .post) = { d with queue := d.queue ++ posts } := by
  induction posts generalizing d with
  | nil =>
      show d = { d with queue := d.queue ++ [] }
      rw [List.append_nil]
  | cons p rest ih =>
      show (d.post p).play (rest.map .post) = _
      rw [ih, post, List.append_assoc]
      rfl

end Desk

namespace Replay

variable {s : Settings} {d : Desk} {log : List DeskEntry}

/-! ## Opening all searches -/

/-- The first of the items that are left, and those that are left after it. -/
theorem drop_eq_cons {α : Type} {l rest : List α} {n : Nat} {x : α} (h : l.drop n = x :: rest) :
    l[n]? = some x ∧ l.drop (n + 1) = rest ∧ n < l.length := by
  have first : l[n]? = some x := by
    have := congrArg (·[0]?) h
    rwa [List.getElem?_drop, Nat.add_zero] at this
  refine ⟨first, ?_, (List.getElem?_eq_some_iff.mp first).1⟩
  rw [← List.drop_drop, h]
  rfl

theorem openSearches_cons (s : Settings) (d : Desk) (path : String) (paths : List String) :
    openSearches s d (path :: paths) =
      ((openSearches s (openSearch s d path).1 paths).1,
        (openSearch s d path).2 :: (openSearches s (openSearch s d path).1 paths).2) :=
  rfl

theorem openSearches_attended {paths rest : List String} {opened : Nat}
    (h : Attended s paths opened 0 d log) (hrest : paths.drop opened = rest)
    (inside : opened ≤ paths.length) :
    ∃ log', Attended s paths paths.length 0 (openSearches s d rest).1 log' ∧
      takenPosts log' = takenPosts log ∧
      (openSearches s d rest).1.queue = d.queue ∧
      (openSearches s d rest).2 = (List.range' opened rest.length).map SearchId.mk := by
  -- By induction on the paths that are left, for every desk that has opened those before.
  induction rest generalizing d log opened with
  | nil =>
      have all : opened = paths.length := le_antisymm inside (List.drop_eq_nil_iff.mp hrest)
      exact ⟨log, all ▸ h, rfl, rfl, rfl⟩
  | cons path rest ih =>
      obtain ⟨hpath, later, more⟩ := drop_eq_cons hrest
      obtain ⟨first, name, queue⟩ := h.openSearch hpath
      obtain ⟨log', all, taken, queue', names⟩ := ih first later more
      refine ⟨log', all, ?_, queue'.trans queue, ?_⟩
      · rw [taken, takenPosts_call]
      · rw [openSearches_cons, name, names, List.length_cons, List.range'_succ, List.map_cons]

/-! ## Posts of all producers -/

/-- The producers of recordings, named from a number on. -/
def producersFrom (start : Nat) (recordings : List Recording) : List (SearchId × Recording) :=
  ((List.range' start recordings.length).map SearchId.mk).zip recordings

theorem producersFrom_cons (start : Nat) (r : Recording) (rest : List Recording) :
    producersFrom start (r :: rest) = (⟨start⟩, r) :: producersFrom (start + 1) rest := by
  rw [producersFrom, List.length_cons, List.range'_succ, List.map_cons, List.zip_cons_cons]
  rfl

theorem posts_search {id : SearchId} {r : Recording} {p : Post} (hp : p ∈ posts id r) :
    p.search = id := by
  rcases List.mem_append.mp hp with hp | hp
  · obtain ⟨result, -, rfl⟩ := List.mem_map.mp hp
    rfl
  · rw [List.mem_singleton.mp hp]
    rfl

/-- All that the producers post, one after the other. -/
def allPosts (producers : List (SearchId × Recording)) : List Post :=
  producers.flatMap fun (id, r) => posts id r

theorem allPosts_cons (start : Nat) (r : Recording) (rest : List Recording) :
    allPosts (producersFrom start (r :: rest)) =
      posts ⟨start⟩ r ++ allPosts (producersFrom (start + 1) rest) := by
  rw [producersFrom_cons]
  rfl

theorem allPosts_bounds {start : Nat} {recordings : List Recording} {p : Post}
    (hp : p ∈ allPosts (producersFrom start recordings)) :
    start ≤ p.search.val ∧ p.search.val < start + recordings.length := by
  induction recordings generalizing start with
  | nil => cases hp
  | cons r rest ih =>
      rw [allPosts_cons] at hp
      rw [List.length_cons]
      rcases List.mem_append.mp hp with hp | hp
      · have : p.search.val = start := congrArg SearchId.val (posts_search hp)
        omega
      · have := ih hp
        omega

/-- When producers go first, all posts are in the queue when the desk is pumped. -/
theorem play_inOrder (d : Desk) (producers : List (SearchId × Recording)) :
    d.play (inOrder producers) =
      ({ d with queue := [] }.applyAll {} (d.queue ++ allPosts producers)).desk := by
  show List.foldl Desk.turn d ((allPosts producers).map .post ++ [.pump]) = _
  rw [List.foldl_append]
  show (d.play ((allPosts producers).map .post)).pump.desk = _
  rw [Desk.play_posts]
  rfl

/-- Each search finds among all posts just those of its own recording. -/
theorem postsFor_allPosts (start : Nat) {i : Nat} {recordings : List Recording} {r : Recording}
    (hr : recordings[i]? = some r) :
    postsFor ⟨start + i⟩ (allPosts (producersFrom start recordings)) = posts ⟨start + i⟩ r := by
  induction recordings generalizing start i with
  | nil => cases hr
  | cons first rest ih =>
      rw [allPosts_cons, postsFor_append]
      cases i with
      | zero =>
          obtain rfl := Option.some.inj hr
          have others : postsFor ⟨start⟩ (allPosts (producersFrom (start + 1) rest)) = [] := by
            refine postsFor_eq_nil fun p hp same => ?_
            have := (allPosts_bounds hp).1
            rw [same] at this
            exact absurd this (Nat.not_succ_le_self start)
          rw [Nat.add_zero, others, List.append_nil]
          exact postsFor_eq_self fun p hp => posts_search hp
      | succ i =>
          have other : postsFor ⟨start + (i + 1)⟩ (posts ⟨start⟩ first) = [] := by
            refine postsFor_eq_nil fun p hp same => ?_
            have : start = start + (i + 1) :=
              congrArg SearchId.val ((posts_search hp).symm.trans same)
            omega
          have here := ih (start + 1) hr
          rw [other, List.nil_append, show start + (i + 1) = start + 1 + i by omega]
          exact here

theorem adds_posts (id : SearchId) (r : Recording) : adds (posts id r) = r.results.map .add := by
  rw [posts, adds_append]
  refine (List.append_nil _).trans ?_
  rw [adds, List.filterMap_map]
  exact congrArg (List.map _) List.filterMap_some

/-! ## Closing all searches -/

theorem close_cons (wording : Wording) (limit : Option Nat) (d : Desk) (id : SearchId)
    (r : Recording) (producers : List (SearchId × Recording)) :
    close wording limit d ((id, r) :: producers) =
      ((d.closeSearch id).2.map fun search =>
        SearchReport.ofTable wording search.query limit r.badLines search.table).toList ++
      close wording limit (d.closeSearch id).1 producers := by
  rw [close]
  cases d.closeSearch id with
  | mk d' found => cases found <;> rfl

theorem close_eq (wording : Wording) {recordings rest : List (String × Recording)}
    {closed : Nat} (h : Attended s (recordings.map (·.1)) recordings.length closed d log)
    (hrest : recordings.drop closed = rest) (inside : closed ≤ recordings.length)
    (heard : ∀ i path r, recordings[i]? = some (path, r) →
      adds (postsFor ⟨i⟩ (takenPosts log)) = r.results.map .add) :
    close wording s.limit d (producersFrom closed (rest.map (·.2))) =
      (rest.drop (recordings.length - d.limit - closed)).map fun x =>
        alone wording s x.1 x.2 := by
  induction rest generalizing d closed with
  | nil =>
      rw [List.drop_nil]
      rfl
  | cons x rest ih =>
      obtain ⟨path, r⟩ := x
      obtain ⟨hx, later, more⟩ := drop_eq_cons hrest
      have hpath : (recordings.map (·.1))[closed]? = some path := by
        rw [List.getElem?_map, hx]
        rfl
      have others := ih (h.closeSearch more) later more
      have limit : (d.closeSearch ⟨closed⟩).1.limit = d.limit := rfl
      rw [limit] at others
      rw [List.map_cons, producersFrom_cons, close_cons, others,
        h.report wording more hpath fun _ => heard closed path r hx]
      -- The first one is reported when it is among the last ones that may be open.
      split
      · next late =>
        have all : recordings.length - d.limit - closed = 0 := by omega
        have rest_too : recordings.length - d.limit - (closed + 1) = 0 := by omega
        rw [all, rest_too]
        rfl
      · next early =>
        have skip : recordings.length - d.limit - closed =
            recordings.length - d.limit - (closed + 1) + 1 := by omega
        rw [skip]
        rfl

/-! ## The reports -/

/-- The last recordings, as many as there may be searches. -/
def lastOnes {α : Type} (s : Settings) (l : List α) : List α :=
  l.drop (l.length - max 1 s.options.maxSearches)

/-- Replaying recordings in order reports the last ones, each as if it were alone. -/
theorem reports_inOrder (wording : Wording) (s : Settings)
    (recordings : List (String × Recording)) :
    reports wording s recordings inOrder =
      (lastOnes s recordings).map fun x => alone wording s x.1 x.2 := by
  set paths := recordings.map (·.1) with hpaths
  set read := recordings.map (·.2) with hread
  have count : paths.length = recordings.length := List.length_map _
  obtain ⟨log, attended, taken, queue, names⟩ :=
    openSearches_attended (new_attended s paths) (List.drop_zero (l := paths)) (Nat.zero_le _)
  have producers : (openSearches s (.new s.options .common) paths).2.zip read =
      producersFrom 0 read := by
    rw [names, producersFrom, count, hread, List.length_map]
  set d := (openSearches s (.new s.options .common) paths).1 with hd
  set told := allPosts (producersFrom 0 read) with htold
  rw [count] at attended
  have played : d.play (inOrder (producersFrom 0 read)) =
      ({ d with queue := [] }.applyAll {} told).desk := by
    rw [play_inOrder, queue]
    rfl
  have known : ∀ p ∈ told, p.search.val < recordings.length := by
    intro p hp
    have := (allPosts_bounds hp).2
    rwa [hread, List.length_map, Nat.zero_add] at this
  have drained := (attended.withQueue []).applyAll {} known
  have all : takenPosts (log ++ told.map .taken) = told := by
    rw [takenPosts_taken, taken]
    rfl
  have heard : ∀ i path r, recordings[i]? = some (path, r) →
      adds (postsFor ⟨i⟩ (takenPosts (log ++ told.map .taken))) = r.results.map .add := by
    intro i path r hr
    have own : read[i]? = some r := by
      rw [hread, List.getElem?_map, hr]
      rfl
    have mine := postsFor_allPosts 0 own
    rw [Nat.zero_add] at mine
    rw [all, htold, mine, adds_posts]
  have closed := close_eq wording drained rfl (Nat.zero_le _) heard
  have result : reports wording s recordings inOrder =
      close wording s.limit (d.play (inOrder (producersFrom 0 read))) (producersFrom 0 read) := by
    rw [← producers]
    rfl
  rw [result, played]
  refine closed.trans ?_
  rw [drained.limit_eq, Nat.sub_zero]
  rfl

end Replay

end PeerSearch
