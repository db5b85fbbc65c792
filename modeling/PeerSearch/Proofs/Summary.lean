import PeerSearch.Group
import PeerSearch.Proofs.SortedMap

/-!
# PeerSearch.Proofs.Summary -- what a group says of its members

A summary is kept by taking one member after the other into account. `Summary.Describes` says what
it amounts to without that history: least and greatest values, sets, and who came first. A summary
of one result describes it, and taking one more into account keeps it so. What is described this way
does not depend on the order of the results, unless it is about who came first.
-/

namespace PeerSearch

/-! ## Scores in order -/

namespace Binary32

theorem le_iff {x y : Binary32} :
    x.le y = true ↔ x.isNaN = false ∧ y.isNaN = false ∧ x.numericKey ≤ y.numericKey := by
  simp [le, and_assoc]

theorem le_refl {x : Binary32} (h : x.isNaN = false) : x.le x = true :=
  le_iff.mpr ⟨h, h, Int.le_refl _⟩

theorem le_trans {x y z : Binary32} (hxy : x.le y = true) (hyz : y.le z = true) :
    x.le z = true := by
  obtain ⟨hx, -, hxy⟩ := le_iff.mp hxy
  obtain ⟨-, hz, hyz⟩ := le_iff.mp hyz
  exact le_iff.mpr ⟨hx, hz, Int.le_trans hxy hyz⟩

/-- Of two numbers one is the larger, and neither is above it. -/
theorem larger_spec {x y : Binary32} (hx : x.isNaN = false) (hy : y.isNaN = false) :
    (x.larger y = x ∨ x.larger y = y) ∧ x.le (x.larger y) = true ∧ y.le (x.larger y) = true := by
  unfold larger
  rw [hx, Bool.false_or]
  cases hlt : x.lt y with
  | true =>
      simp only [lt, hx, hy, Bool.not_false, Bool.true_and, decide_eq_true_eq] at hlt
      rw [if_pos rfl]
      exact ⟨.inr rfl, le_iff.mpr ⟨hx, hy, by omega⟩, le_refl hy⟩
  | false =>
      simp only [lt, hx, hy, Bool.not_false, Bool.true_and, decide_eq_false_iff_not] at hlt
      rw [if_neg Bool.false_ne_true]
      exact ⟨.inl rfl, le_refl hx, le_iff.mpr ⟨hy, hx, by omega⟩⟩

end Binary32

theorem SearchResult.spamScore_isNaN {r : SearchResult} (valid : r.isValid = true) :
    r.spamScore.isNaN = false := by
  have finite : r.spamScore.isFinite = true := by
    by_contra h
    rw [isValid, refusal?] at valid
    split at valid
    · cases valid
    · rw [if_pos (by simp [h])] at valid
      cases valid
  simp only [Binary32.isFinite, Binary32.isNaN, decide_eq_true_eq, decide_eq_false_iff_not]
    at finite ⊢
  omega

namespace Quality

theorem better_spec (p q : Quality) :
    (p.better q = p ∨ p.better q = q) ∧ p.rank ≤ (p.better q).rank ∧
      q.rank ≤ (p.better q).rank := by
  unfold better
  split
  · exact ⟨.inr rfl, by omega, by omega⟩
  · exact ⟨.inl rfl, by omega, by omega⟩

theorem rank_injective {p q : Quality} (h : p.rank = q.rank) : p = q := by
  cases p <;> cases q <;> simp_all [rank]

end Quality

/-! ## Documents and times -/

/-- Some field of the document is not blank. -/
def Document.Filled (d : Document) : Prop :=
  ∃ field text, d.value? field = some text ∧ Text.isBlankText text = false

theorem Document.isEmpty_eq_false_iff {d : Document} : d.isEmpty = false ↔ d.Filled := by
  rw [isEmpty, List.all_eq_false]
  constructor
  · rintro ⟨text, htext, hblank⟩
    obtain ⟨⟨field, text⟩, hmem, rfl⟩ := List.mem_map.mp htext
    exact ⟨field, text, (SortedMap.mem_entries_iff _).mp hmem, Bool.eq_false_of_not_eq_true hblank⟩
  · rintro ⟨field, text, hvalue, hblank⟩
    have hmem := (SortedMap.mem_entries_iff d.fields).mpr hvalue
    exact ⟨text, List.mem_map.mpr ⟨_, hmem, rfl⟩, by simp [hblank]⟩

namespace Summary

theorem documentOf_eq_some_iff {r : SearchResult} {d : Document} :
    documentOf r = some d ↔ r.document = some d ∧ d.Filled := by
  rw [documentOf, Option.filter_eq_some_iff, Bool.not_eq_true', Document.isEmpty_eq_false_iff]

theorem documentOf_eq_none_iff {r : SearchResult} :
    documentOf r = none ↔ ∀ d, r.document = some d → ¬ d.Filled := by
  rw [Option.eq_none_iff_forall_ne_some]
  exact forall_congr' fun d => by rw [ne_eq, documentOf_eq_some_iff, not_and]

theorem mem_withSource {sources : SortedSet String} {r : SearchResult} {host : String} :
    host ∈ (withSource sources r).toList ↔ host ∈ sources.toList ∨ r.source = some host := by
  unfold withSource
  cases r.source with
  | none => simp
  | some h => simp [or_comm, eq_comm]

/-- The times at which a file may have been created, as far as its results tell. -/
def knownTimes (results : List SearchResult) : Set Int :=
  {time | 0 < time ∧ ∃ r ∈ results, r.createdAt = some time}

theorem mem_creationTime {r : SearchResult} {time : Int} :
    r.creationTime = some time ↔ time ∈ knownTimes [r] := by
  simp [knownTimes, SearchResult.creationTime, Option.filter_eq_some_iff, and_comm]

/-- The known times are those that `time` says, which may be that there are none. -/
def Earliest (times : Set Int) (time : Option Int) : Prop :=
  (time = none ↔ times = ∅) ∧ ∀ t, time = some t ↔ IsLeast times t

theorem earliest_creationTime (r : SearchResult) : Earliest (knownTimes [r]) r.creationTime := by
  have only {s t : Int} (hs : s ∈ knownTimes [r]) (ht : t ∈ knownTimes [r]) : s = t := by
    rw [← mem_creationTime] at hs ht
    exact Option.some.inj (hs.symm.trans ht)
  constructor
  · rw [Option.eq_none_iff_forall_ne_some, Set.eq_empty_iff_forall_notMem]
    exact forall_congr' fun t => not_congr mem_creationTime
  · intro t
    rw [mem_creationTime]
    exact ⟨fun ht => ⟨ht, fun s hs => (only ht hs).le⟩, fun ht => ht.1⟩

/-- Of two collections of times the earlier of the two earliest is the earliest. -/
theorem Earliest.union {a b : Set Int} {s t : Option Int} (ha : Earliest a s) (hb : Earliest b t) :
    Earliest (a ∪ b) (earlier s t) := by
  cases s with
  | none =>
      rw [ha.1.mp rfl, Set.empty_union]
      cases t <;> exact hb
  | some x =>
      have hx := (ha.2 x).mp rfl
      cases t with
      | none =>
          rw [hb.1.mp rfl, Set.union_empty]
          exact ha
      | some y =>
          have hy := (hb.2 y).mp rfl
          have least := hx.union hy
          refine ⟨iff_of_false nofun (Set.Nonempty.ne_empty ⟨_, least.1⟩), fun u => ?_⟩
          rw [earlier, Option.some.injEq]
          exact ⟨fun heq => heq ▸ least, fun hu => least.unique hu⟩

/-! ## What a summary says -/

/-- What a summary says of the results that it sums up, given in the order in which they came. -/
structure Describes (s : Summary) (results : List SearchResult) : Prop where
  sources : ∀ host, host ∈ s.sources.toList ↔ ∃ r ∈ results, r.source = some host
  speed : ∀ r ∈ results, r.speed ≤ s.speed
  /-- Some result has that speed, and the first that has it says whether it was measured. -/
  fastest : ∃ r, results.find? (·.speed = s.speed) = some r ∧ r.measuredSpeed = s.measuredSpeed
  quality : (∃ r ∈ results, r.quality = s.quality) ∧ ∀ r ∈ results, r.quality.rank ≤ s.quality.rank
  spamScore : (∃ r ∈ results, r.spamScore = s.spamScore) ∧
    ∀ r ∈ results, r.spamScore.le s.spamScore = true
  secure : s.secure = true ↔ ∃ r ∈ results, r.secure = true
  multicast : s.multicast = true ↔ ∃ r ∈ results, r.kind = .multicast
  createdAt : Earliest (knownTimes results) s.createdAt
  document_none : s.document = none ↔ ∀ r ∈ results, ∀ d, r.document = some d → ¬ d.Filled
  /-- The document is that of the first result with a field that is not blank. -/
  document_some : ∀ d, s.document = some d ↔ ∃ front r back, results = front ++ r :: back ∧
    r.document = some d ∧ d.Filled ∧ ∀ q ∈ front, ∀ e, q.document = some e → ¬ e.Filled

variable {s s' : Summary} {results results' : List SearchResult}

/-- That a document is the first of those that carry something, said without a search. -/
theorem first_document {d : Document} :
    results.findSome? documentOf = some d ↔ ∃ front r back, results = front ++ r :: back ∧
      r.document = some d ∧ d.Filled ∧ ∀ q ∈ front, ∀ e, q.document = some e → ¬ e.Filled := by
  simp only [List.findSome?_eq_some_iff, documentOf_eq_none_iff, documentOf_eq_some_iff, and_assoc]

theorem no_document : results.findSome? documentOf = none ↔
    ∀ r ∈ results, ∀ d, r.document = some d → ¬ d.Filled := by
  simp only [List.findSome?_eq_none_iff, documentOf_eq_none_iff]

theorem Describes.document_eq (h : s.Describes results) :
    s.document = results.findSome? documentOf :=
  Option.ext fun d => (h.document_some d).trans first_document.symm

theorem describes_ofResult {r : SearchResult} (valid : r.isValid = true) :
    (ofResult r).Describes [r] := by
  constructor
  case sources =>
    intro host
    rw [ofResult, mem_withSource]
    simp [SortedSet.toList, SortedMap.keys, EmptyCollection.emptyCollection, SortedMap.empty]
  case fastest => exact ⟨r, by simp [ofResult], rfl⟩
  case spamScore =>
    refine ⟨⟨r, List.mem_singleton_self r, rfl⟩, fun q hq => ?_⟩
    rw [List.mem_singleton.mp hq]
    exact Binary32.le_refl (SearchResult.spamScore_isNaN valid)
  case createdAt => exact earliest_creationTime r
  case document_none =>
    rw [← no_document, ofResult, List.findSome?_singleton]
  case document_some =>
    intro d
    rw [← first_document, ofResult, List.findSome?_singleton]
  all_goals simp [ofResult]

theorem Describes.absorb_speed (h : s.Describes results) (r : SearchResult) :
    (∀ q ∈ results ++ [r], q.speed ≤ (s.absorb r).speed) ∧
      ∃ q, (results ++ [r]).find? (·.speed = (s.absorb r).speed) = some q ∧
        q.measuredSpeed = (s.absorb r).measuredSpeed := by
  obtain ⟨q, found, measured⟩ := h.fastest
  by_cases faster : s.speed < r.speed
  · -- None of the results before it is as fast.
    have slower : results.find? (·.speed = r.speed) = none := by
      rw [List.find?_eq_none]
      intro p hp heq
      have := h.speed p hp
      have := of_decide_eq_true heq
      omega
    simp only [absorb, if_pos faster, List.find?_append, slower, List.forall_mem_append,
      List.forall_mem_singleton]
    exact ⟨⟨fun p hp => (h.speed p hp).trans faster.le, le_rfl⟩, r, by simp, rfl⟩
  · simp only [absorb, if_neg faster, List.find?_append, found, List.forall_mem_append,
      List.forall_mem_singleton]
    exact ⟨⟨h.speed, by omega⟩, q, rfl, measured⟩

/-- Taking one more result into account. -/
theorem Describes.absorb (h : s.Describes results) {r : SearchResult} (valid : r.isValid = true) :
    (s.absorb r).Describes (results ++ [r]) := by
  -- Whatever some result has, some result has still, and the new one has its own.
  have some_of {p : SearchResult → Prop} :
      (∃ q ∈ results ++ [r], p q) ↔ (∃ q ∈ results, p q) ∨ p r := by
    simp only [List.mem_append, List.mem_singleton, or_and_right, exists_or, exists_eq_left]
  have document : (s.absorb r).document = (results ++ [r]).findSome? documentOf := by
    rw [List.findSome?_append, ← h.document_eq, List.findSome?_singleton]
    rfl
  constructor
  case sources =>
    intro host
    rw [some_of, ← h.sources]
    exact mem_withSource
  case speed => exact (h.absorb_speed r).1
  case fastest => exact (h.absorb_speed r).2
  case quality =>
    obtain ⟨⟨q, hq, hbest⟩, hle⟩ := h.quality
    obtain ⟨one, old, new⟩ := Quality.better_spec s.quality r.quality
    rw [some_of, List.forall_mem_append, List.forall_mem_singleton]
    refine ⟨one.imp (fun heq => ⟨q, hq, hbest.trans heq.symm⟩) Eq.symm, ?_, new⟩
    exact fun p hp => (hle p hp).trans old
  case spamScore =>
    obtain ⟨⟨q, hq, hworst⟩, hle⟩ := h.spamScore
    have number : s.spamScore.isNaN = false := (Binary32.le_iff.mp (hle q hq)).2.1
    obtain ⟨one, old, new⟩ := Binary32.larger_spec number (SearchResult.spamScore_isNaN valid)
    rw [some_of, List.forall_mem_append, List.forall_mem_singleton]
    refine ⟨one.imp (fun heq => ⟨q, hq, hworst.trans heq.symm⟩) Eq.symm, ?_, new⟩
    exact fun p hp => Binary32.le_trans (hle p hp) old
  case secure =>
    rw [some_of, ← h.secure]
    simp [Summary.absorb]
  case multicast =>
    rw [some_of, ← h.multicast]
    simp [Summary.absorb]
  case createdAt =>
    have times : knownTimes (results ++ [r]) = knownTimes results ∪ knownTimes [r] := by
      ext time
      simp only [knownTimes, Set.mem_ofPred_eq, Set.mem_union, some_of, List.mem_singleton,
        exists_eq_left, and_or_left]
    rw [times]
    exact h.createdAt.union (earliest_creationTime r)
  case document_none => rw [document, no_document]
  case document_some =>
    intro d
    rw [document, first_document]

/-- What is summed up from a first member and those after it describes them. -/
theorem describes_ofMembers {first : Member} {others : List Member}
    (valid : ∀ m ∈ first :: others, m.result.isValid = true) :
    (ofMembers first others).Describes ((first :: others).map (·.result)) := by
  -- By induction from the back, as members come.
  induction others using List.reverseRecOn with
  | nil => exact describes_ofResult (valid first List.mem_cons_self)
  | append_singleton others m ih =>
      have before : ∀ n ∈ first :: others, n.result.isValid = true := by
        intro n hn
        refine valid n ?_
        rw [← List.cons_append]
        exact List.mem_append_left _ hn
      have step := (ih before).absorb (valid m (by simp))
      rw [ofMembers, List.foldl_append, ← List.cons_append, List.map_append]
      exact step

/-! ## The order of the results -/

/-- The summaries say the same, who came first aside. Scores are compared as numbers, for which
there are two zeros. -/
structure Alike (s s' : Summary) : Prop where
  sources : s.sources = s'.sources
  speed : s.speed = s'.speed
  quality : s.quality = s'.quality
  spamScore : s.spamScore.sameValue s'.spamScore = true
  secure : s.secure = s'.secure
  multicast : s.multicast = s'.multicast
  createdAt : s.createdAt = s'.createdAt

theorem Earliest.unique {times : Set Int} {s t : Option Int} (hs : Earliest times s)
    (ht : Earliest times t) : s = t :=
  Option.ext fun x => (hs.2 x).trans (ht.2 x).symm

theorem Describes.alike_of_perm (h : s.Describes results) (h' : s'.Describes results')
    (perm : results.Perm results') : s.Alike s' := by
  have some_of {p : SearchResult → Prop} : (∃ q ∈ results, p q) ↔ ∃ q ∈ results', p q := by
    simp only [perm.mem_iff]
  have all_of {p : SearchResult → Prop} (hall : ∀ q ∈ results', p q) {q : SearchResult}
      (hq : q ∈ results) : p q := hall q (perm.mem_iff.mp hq)
  have all_of' {p : SearchResult → Prop} (hall : ∀ q ∈ results, p q) {q : SearchResult}
      (hq : q ∈ results') : p q := hall q (perm.mem_iff.mpr hq)
  constructor
  case sources =>
    refine SortedSet.eq_of_mem_iff fun host => ?_
    rw [h.sources, h'.sources, some_of]
  case speed =>
    obtain ⟨q, hq, -⟩ := h.fastest
    obtain ⟨q', hq', -⟩ := h'.fastest
    have attained : q.speed = s.speed := by simpa using List.find?_some hq
    have attained' : q'.speed = s'.speed := by simpa using List.find?_some hq'
    have le := all_of h'.speed (List.mem_of_find?_eq_some hq)
    have le' := all_of' h.speed (List.mem_of_find?_eq_some hq')
    omega
  case quality =>
    obtain ⟨⟨q, hq, attained⟩, le⟩ := h.quality
    obtain ⟨⟨q', hq', attained'⟩, le'⟩ := h'.quality
    refine Quality.rank_injective (Nat.le_antisymm ?_ ?_)
    · exact attained ▸ all_of le' hq
    · exact attained' ▸ all_of' le hq'
  case spamScore =>
    obtain ⟨⟨q, hq, attained⟩, le⟩ := h.spamScore
    obtain ⟨⟨q', hq', attained'⟩, le'⟩ := h'.spamScore
    rw [Binary32.sameValue, Bool.and_eq_true]
    exact ⟨attained ▸ all_of le' hq, attained' ▸ all_of' le hq'⟩
  case secure => rw [Bool.eq_iff_iff, h.secure, h'.secure, some_of]
  case multicast => rw [Bool.eq_iff_iff, h.multicast, h'.multicast, some_of]
  case createdAt =>
    have times : knownTimes results = knownTimes results' := by
      simp only [knownTimes, some_of]
    exact h.createdAt.unique (times ▸ h'.createdAt)

end Summary

end PeerSearch
