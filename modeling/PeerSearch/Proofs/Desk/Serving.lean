import Mathlib
import PeerSearch.Desk.Live

/-!
# PeerSearch.Proofs.Desk.Serving -- every search has what was said to it, and nothing else

All searches share one queue, but each could as well have been told by itself: an entry of the log
changes the one search that it is about, and no search at all when that one is no longer open.
`Serves` says that the open searches are what the log makes of fresh ones.
-/

namespace PeerSearch

variable {d d' : Desk} {log : List DeskEntry}

/-! ## Logs -/

theorem commandsFor_append (id : SearchId) (log : List DeskEntry) (e : DeskEntry) :
    commandsFor id (log ++ [e]) = commandsFor id log ++ (e.command? id).toList := by
  simp only [commandsFor, List.filterMap_append, List.filterMap_cons, List.filterMap_nil]
  cases e.command? id <;> rfl

theorem takenPosts_append (log : List DeskEntry) (e : DeskEntry) :
    takenPosts (log ++ [e]) = takenPosts log ++ e.post?.toList := by
  simp only [takenPosts, List.filterMap_append, List.filterMap_cons, List.filterMap_nil]
  cases e.post? <;> rfl

/-- The owner's calls are no posts. -/
theorem takenPosts_call (log : List DeskEntry) (id : SearchId) (c : TableCommand) :
    takenPosts (log ++ [.call id c]) = takenPosts log := by
  rw [takenPosts_append]
  exact List.append_nil _

theorem takenPosts_taken (log : List DeskEntry) (posts : List Post) :
    takenPosts (log ++ posts.map .taken) = takenPosts log ++ posts := by
  rw [takenPosts, List.filterMap_append, List.filterMap_map]
  exact congrArg (takenPosts log ++ ·) List.filterMap_some

theorem mem_takenPosts {p : Post} : p ∈ takenPosts log ↔ .taken p ∈ log := by
  rw [takenPosts, List.mem_filterMap]
  constructor
  · rintro ⟨e, he, hp⟩
    cases e with
    | call => cases hp
    | taken q =>
        obtain rfl := Option.some.inj hp
        exact he
  · exact fun hp => ⟨.taken p, hp, rfl⟩

namespace DeskEntry

/-- An entry about another search does nothing to a table. -/
theorem command?_of_ne {id : SearchId} {e : DeskEntry} (other : e.search ≠ id) :
    e.command? id = none := by
  rcases e with ⟨k, c⟩ | ⟨k, r⟩ | k
  · exact if_neg other
  · exact if_neg other
  · rfl

end DeskEntry

theorem commandsFor_eq_nil {id : SearchId} (others : ∀ e ∈ log, e.search ≠ id) :
    commandsFor id log = [] :=
  List.filterMap_eq_nil_iff.mpr fun e he => DeskEntry.command?_of_ne (others e he)

namespace Table

theorem after_append (t : Table) (commands more : List TableCommand) :
    t.after (commands ++ more) = (t.after commands).after more :=
  List.foldl_append

end Table

/-! ## One search and one entry -/

/-- What an entry makes of a search. -/
def Search.heed (s : Search) (e : DeskEntry) : Search :=
  { s with
    table := s.table.after (e.command? s.id).toList
    finished := s.finished || e.post? == some (.finished s.id) }

theorem Search.heed_other {s : Search} {e : DeskEntry} (other : e.search ≠ s.id) :
    s.heed e = s := by
  have silent : (e.post? == some (.finished s.id)) = false := by
    rw [beq_eq_false_iff_ne]
    rcases e with _ | p
    · exact nofun
    · intro same
      exact other (congrArg Post.search (Option.some.inj same))
  rw [heed, DeskEntry.command?_of_ne other, silent, Bool.or_false]
  rfl

namespace Desk

/-! ## Open searches -/

/-- The names of the open searches, the oldest first. -/
def openIds (d : Desk) : List Nat :=
  d.searches.map (·.id.val)

/-- Searches are named in the order in which they were opened, and by numbers handed out before. -/
structure Numbered (d : Desk) : Prop where
  increasing : d.openIds.Pairwise (· < ·)
  below : ∀ s ∈ d.searches, s.id.val < d.nextSearch

theorem Numbered.eq_of_id (h : d.Numbered) {s s' : Search} (hs : s ∈ d.searches)
    (hs' : s' ∈ d.searches) (same : s.id = s'.id) : s = s' := by
  have nodup : d.openIds.Nodup := h.increasing.imp Nat.ne_of_lt
  exact List.inj_on_of_nodup_map nodup hs hs' (congrArg SearchId.val same)

theorem Numbered.search?_eq_some_iff (h : d.Numbered) {id : SearchId} {s : Search} :
    d.search? id = some s ↔ s ∈ d.searches ∧ s.id = id := by
  constructor
  · intro hs
    exact ⟨List.mem_of_find?_eq_some hs, by simpa using List.find?_some hs⟩
  · rintro ⟨hs, rfl⟩
    have found : (d.search? s.id).isSome := by
      rw [search?, List.find?_isSome]
      exact ⟨s, hs, by simp⟩
    obtain ⟨s', hs'⟩ := Option.isSome_iff_exists.mp found
    have same : s'.id = s.id := by simpa using List.find?_some hs'
    rw [hs', h.eq_of_id (List.mem_of_find?_eq_some hs') hs same]

theorem search?_eq_none_iff {id : SearchId} :
    d.search? id = none ↔ ∀ s ∈ d.searches, s.id ≠ id := by
  simp [search?, List.find?_eq_none]

/-- Nothing but the searches and the numbers handed out is looked at. -/
theorem Numbered.congr (h : d.Numbered) (searches : d'.openIds = d.openIds)
    (next : d'.nextSearch = d.nextSearch) : d'.Numbered := by
  refine ⟨searches ▸ h.increasing, fun s hs => ?_⟩
  have known : s.id.val ∈ d.openIds := searches ▸ List.mem_map_of_mem hs
  obtain ⟨s', hs', same⟩ := List.mem_map.mp known
  rw [next, ← same]
  exact h.below s' hs'

/-! ### What operations do to the names -/

theorem openSearch_openIds (d : Desk) (query : String) :
    (d.openSearch query).1.openIds =
      d.openIds.drop (d.openIds.length + 1 - d.limit) ++ [d.nextSearch] := by
  simp only [openIds, openSearch, List.map_append, List.map_drop, List.length_map]
  rfl

theorem closeSearch_openIds (d : Desk) (id : SearchId) :
    (d.closeSearch id).1.openIds = d.openIds.filter (· != id.val) := by
  rw [openIds, openIds, List.filter_map]
  refine congrArg (List.map _) (List.filter_congr fun search _ => ?_)
  rw [Bool.eq_iff_iff, bne_iff_ne, Function.comp_apply, bne_iff_ne]
  exact not_congr ⟨congrArg SearchId.val, fun same => congrArg SearchId.mk same⟩

theorem putSearch_openIds (d : Desk) (s : Search) : (d.putSearch s).openIds = d.openIds := by
  rw [openIds, putSearch, List.map_map]
  refine List.map_congr_left fun other _ => ?_
  show (if other.id = s.id then s else other).id.val = other.id.val
  split
  · next same => rw [same]
  · rfl

theorem apply_openIds (d : Desk) (count : PumpCount) (p : Post) :
    (d.apply count p).desk.openIds = d.openIds := by
  unfold apply
  cases d.search? p.search with
  | none => rfl
  | some s => cases p <;> exact d.putSearch_openIds _

/-! ## Entries on a desk -/

/-- Replacing an open search by what an entry makes of it is to let all searches heed the entry. -/
theorem Numbered.putSearch_heed (h : d.Numbered) {s : Search} {e : DeskEntry}
    (hs : d.search? e.search = some s) :
    (d.putSearch (s.heed e)).searches = d.searches.map (·.heed e) := by
  obtain ⟨mem, name⟩ := h.search?_eq_some_iff.mp hs
  refine List.map_congr_left fun other hother => ?_
  by_cases same : other.id = s.id
  · rw [h.eq_of_id hother mem same]
    exact if_pos rfl
  · exact (if_neg same).trans (Search.heed_other fun about => same (name.trans about).symm).symm

/-- An entry about a search that is not open goes unheeded. -/
theorem heed_of_closed {e : DeskEntry} (closed : d.search? e.search = none) :
    d.searches.map (·.heed e) = d.searches := by
  refine (List.map_congr_left fun s hs => ?_).trans (List.map_id _)
  exact Search.heed_other (Ne.symm (search?_eq_none_iff.mp closed s hs))

/-- Whatever becomes of a post, the searches heed it, each by itself. -/
theorem Numbered.apply_searches (h : d.Numbered) (count : PumpCount) (p : Post) :
    (d.apply count p).desk.searches = d.searches.map (·.heed (.taken p)) := by
  unfold apply
  cases hs : d.search? p.search with
  | none => exact (heed_of_closed (e := .taken p) hs).symm
  | some s =>
      have name := (h.search?_eq_some_iff.mp hs).2
      rw [← h.putSearch_heed (e := .taken p) hs]
      cases p with
      | result id r =>
          have command : (DeskEntry.taken (.result id r)).command? s.id = some (.add r) :=
            if_pos name.symm
          have silent : ((DeskEntry.taken (.result id r)).post? == some (.finished s.id)) = false :=
            rfl
          rw [Search.heed, command, silent, Bool.or_false]
          rfl
      | finished id =>
          obtain rfl : s.id = id := name
          have done : ((DeskEntry.taken (.finished s.id)).post? == some (.finished s.id)) = true :=
            beq_self_eq_true _
          rw [Search.heed, done, Bool.or_true]
          rfl

theorem Numbered.call_searches (h : d.Numbered) {s : Search} {c : TableCommand}
    (hs : d.search? s.id = some s) :
    (d.putSearch { s with table := (s.table.perform c).table }).searches =
      d.searches.map (·.heed (.call s.id c)) := by
  have command : (DeskEntry.call s.id c).command? s.id = some c := if_pos rfl
  have silent : ((DeskEntry.call s.id c).post? == some (.finished s.id)) = false := rfl
  rw [← h.putSearch_heed (e := .call s.id c) hs, Search.heed, command, silent, Bool.or_false]
  rfl

/-- A post changes the searches only. -/
theorem apply_keeps (d : Desk) (count : PumpCount) (p : Post) :
    (d.apply count p).desk = { d with searches := (d.apply count p).desk.searches } := by
  unfold apply
  cases d.search? p.search with
  | none => rfl
  | some s => cases p <;> rfl

/-- What is counted is one more post. -/
theorem apply_counts (d : Desk) (count : PumpCount) (p : Post) :
    (d.apply count p).count.total = count.total + 1 := by
  unfold apply PumpCount.total
  cases d.search? p.search with
  | none =>
      show count.delivered + (count.dropped + 1) + count.finished = _
      omega
  | some s =>
      cases p with
      | result =>
          show count.delivered + 1 + count.dropped + count.finished = _
          omega
      | finished =>
          show count.delivered + count.dropped + (count.finished + 1) = _
          omega

/-! ## Serving -/

/-- The open searches are what a log makes of fresh ones. -/
structure Serves (d : Desk) (log : List DeskEntry) : Prop extends d.Numbered where
  /-- Nothing is said to a search before it is opened. -/
  past : ∀ e ∈ log, e.search.val < d.nextSearch
  table : ∀ s ∈ d.searches,
    s.table = (Table.new d.options d.registry).after (commandsFor s.id log)
  finished : ∀ s ∈ d.searches, s.finished = true ↔ .taken (.finished s.id) ∈ log

theorem new_serves (options : Options) (registry : Registry) :
    (Desk.new options registry).Serves [] where
  increasing := .nil
  below _ hs := absurd hs List.not_mem_nil
  past _ he := absurd he List.not_mem_nil
  table _ hs := absurd hs List.not_mem_nil
  finished _ hs := absurd hs List.not_mem_nil

/-- The queue has no say in it. -/
theorem Serves.congr (h : d.Serves log) (searches : d'.searches = d.searches)
    (options : d'.options = d.options) (registry : d'.registry = d.registry)
    (next : d'.nextSearch = d.nextSearch) : d'.Serves log := by
  refine ⟨h.toNumbered.congr (congrArg (List.map _) searches) next, next ▸ h.past, ?_, ?_⟩
  · rw [searches, options, registry]
    exact h.table
  · rw [searches]
    exact h.finished

/-- When every search heeds an entry, the log with that entry is served. -/
theorem Serves.heed (h : d.Serves log) {e : DeskEntry} (known : e.search.val < d.nextSearch)
    (searches : d'.searches = d.searches.map (·.heed e)) (options : d'.options = d.options)
    (registry : d'.registry = d.registry) (next : d'.nextSearch = d.nextSearch) :
    d'.Serves (log ++ [e]) := by
  have names : d'.openIds = d.openIds := by
    rw [openIds, searches, List.map_map]
    rfl
  refine ⟨h.toNumbered.congr names next, ?_, ?_, ?_⟩
  · intro x hx
    rw [next]
    rcases List.mem_append.mp hx with hx | hx
    · exact h.past x hx
    · exact List.mem_singleton.mp hx ▸ known
  · intro s' hs'
    rw [searches] at hs'
    obtain ⟨s, hs, rfl⟩ := List.mem_map.mp hs'
    show s.table.after (e.command? s.id).toList = _
    rw [h.table s hs, ← Table.after_append, ← commandsFor_append, options, registry]
    rfl
  · intro s' hs'
    rw [searches] at hs'
    obtain ⟨s, hs, rfl⟩ := List.mem_map.mp hs'
    have said : e.post? = some (.finished s.id) ↔ .taken (.finished s.id) = e := by
      cases e with
      | call => exact iff_of_false nofun nofun
      | taken p => exact ⟨fun hp => by rw [Option.some.inj hp], fun hp => by cases hp; rfl⟩
    show (s.finished || e.post? == some (.finished s.id)) = true ↔ _
    rw [Bool.or_eq_true, beq_iff_eq, said, h.finished s hs, List.mem_append, List.mem_singleton]
    rfl

theorem Serves.apply (h : d.Serves log) (count : PumpCount) {p : Post}
    (known : p.search.val < d.nextSearch) : (d.apply count p).desk.Serves (log ++ [.taken p]) := by
  have keeps := d.apply_keeps count p
  exact h.heed (e := .taken p) known (h.apply_searches count p) (keeps ▸ rfl) (keeps ▸ rfl)
    (keeps ▸ rfl)

theorem Serves.call (h : d.Serves log) {s : Search} (hs : d.search? s.id = some s)
    (c : TableCommand) :
    (d.putSearch { s with table := (s.table.perform c).table }).Serves (log ++ [.call s.id c]) :=
  h.heed (h.below s (h.search?_eq_some_iff.mp hs).1) (h.call_searches hs) rfl rfl rfl

/-- Closing searches takes nothing from those that stay. -/
theorem Serves.fewer (h : d.Serves log) (searches : d'.searches.Sublist d.searches)
    (options : d'.options = d.options) (registry : d'.registry = d.registry)
    (next : d'.nextSearch = d.nextSearch) : d'.Serves log := by
  refine ⟨⟨h.increasing.sublist (searches.map _), fun s hs => ?_⟩, next ▸ h.past, ?_, ?_⟩
  · exact next ▸ h.below s (searches.subset hs)
  · rw [options, registry]
    exact fun s hs => h.table s (searches.subset hs)
  · exact fun s hs => h.finished s (searches.subset hs)

/-- A new search is named by a number that nothing was said to yet. -/
theorem Serves.openSearch (h : d.Serves log) (query : String) :
    (d.openSearch query).1.Serves log := by
  have fresh : ∀ e ∈ log, e.search ≠ ⟨d.nextSearch⟩ := by
    rintro e he heq
    exact absurd (h.past e he) (heq ▸ lt_irrefl _)
  have sub : (d.searches.drop (d.searches.length + 1 - d.limit)).Sublist d.searches :=
    List.drop_sublist _ _
  constructor
  · constructor
    · show (List.map _ (_ ++ [_])).Pairwise _
      rw [List.map_append, List.pairwise_append]
      refine ⟨h.increasing.sublist (sub.map _), List.pairwise_singleton _ _, ?_⟩
      rintro n hn m hm
      obtain ⟨s, hs, rfl⟩ := List.mem_map.mp hn
      rw [List.mem_singleton.mp hm]
      exact h.below s (sub.subset hs)
    · intro s hs
      rcases List.mem_append.mp hs with hs | hs
      · exact Nat.lt_succ_of_lt (h.below s (sub.subset hs))
      · rw [List.mem_singleton.mp hs]
        exact Nat.lt_succ_self _
  · exact fun e he => Nat.lt_succ_of_lt (h.past e he)
  · intro s hs
    rcases List.mem_append.mp hs with hs | hs
    · exact h.table s (sub.subset hs)
    · rw [List.mem_singleton.mp hs, commandsFor_eq_nil fresh]
      rfl
  · intro s hs
    rcases List.mem_append.mp hs with hs | hs
    · exact h.finished s (sub.subset hs)
    · rw [List.mem_singleton.mp hs]
      exact iff_of_false Bool.false_ne_true fun said => fresh _ said rfl

end Desk

end PeerSearch
