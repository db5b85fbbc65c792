import PeerSearch.Proofs.GroupIndex.OnePerKey

/-!
# PeerSearch.Proofs.GroupIndex.HashParts -- grouping by hash does not depend on arrival

While grouping is on, two results with a content hash are in one group exactly when hash and
extension are the same. So the results alone say how they are divided: there is one part for each
hash and extension, and it holds all results that have them. In what order they came, which groups
were there before and under what names has no say in it.
-/

namespace PeerSearch

/-! ## Keys of results -/

namespace SearchResult

/-- What a result with a content hash is grouped by. -/
def hashKey? (r : SearchResult) : Option HashKey :=
  HashKey.ofFingerprint? (.ofResult r)

theorem hashKey?_eq_some_iff {r : SearchResult} {key : HashKey} :
    r.hashKey? = some key ↔ r.hash = some key.hash ∧ Text.lower r.extension = key.extension :=
  HashKey.ofFingerprint?_eq_some_iff

theorem hashKey?_eq_none_iff {r : SearchResult} : r.hashKey? = none ↔ r.hash = none :=
  HashKey.ofFingerprint?_eq_none_iff

/-- The results with a content hash, divided by hash and extension. -/
def partsByKey (results : Multiset SearchResult) : Multiset (Multiset SearchResult) :=
  (results.filterMap hashKey?).dedup.map fun key => results.filter (·.hashKey? = some key)

end SearchResult

namespace GroupIndex

variable {ix : GroupIndex}

/-! ## Members with the same key -/

theorem Agreeing.members_agree (h : ix.Agreeing) {g : Group} (hg : g ∈ ix.groups) {m n : Member}
    (hm : m ∈ g.members) (hn : n ∈ g.members) : m.result.Agrees n.result :=
  (h g hg m hm).symm.trans (h g hg n hn)

/-- All results of a group have the key that it is found by. -/
theorem Agreeing.hashKey_of_result (h : ix.Agreeing) {g : Group} (hg : g ∈ ix.groups)
    {r : SearchResult} (hr : r ∈ g.results) : r.hashKey? = g.canonical.key? := by
  obtain ⟨m, hm, rfl⟩ := Group.mem_results_iff.mp hr
  exact (Member.key?_of_agrees (h g hg m hm)).symm

/-- A group is known by its name. -/
theorem Coherent.eq_of_id (h : ix.Coherent) {g k : Group} (hg : g ∈ ix.groups)
    (hk : k ∈ ix.groups) (name : g.id = k.id) : g = k :=
  List.inj_on_of_nodup_map h.ids_nodup hg hk name

theorem Exact.eq_of_key (h : ix.Exact) {g k : Group} (hg : g ∈ ix.groups) (hk : k ∈ ix.groups)
    {key : HashKey} (hgkey : g.canonical.key? = some key) (hkkey : k.canonical.key? = some key) :
    g = k := by
  obtain ⟨roster, filed⟩ := h.filed
  exact filed.coherent.eq_of_id hg hk (h.one g hg k hk key hgkey hkkey)

/-- Members with a content hash are in one group exactly when hash and extension are the same. -/
theorem Exact.same_group_iff (h : ix.Exact) {g k : Group} (hg : g ∈ ix.groups)
    (hk : k ∈ ix.groups) {m n : Member} (hm : m ∈ g.members) (hn : n ∈ k.members)
    (hashed : m.result.hash ≠ none) :
    g = k ↔ m.result.hash = n.result.hash ∧
      Text.lower m.result.extension = Text.lower n.result.extension := by
  constructor
  · rintro rfl
    have agree := h.agreeing.members_agree hg hm hn
    exact ⟨agree.hash, agree.extension⟩
  · rintro ⟨hash, extension⟩
    obtain ⟨key, hkey⟩ : ∃ key, m.result.hashKey? = some key := by
      rw [← Option.ne_none_iff_exists']
      exact fun hnone => hashed (SearchResult.hashKey?_eq_none_iff.mp hnone)
    have hkey' : n.result.hashKey? = some key := by
      obtain ⟨hm₁, hm₂⟩ := SearchResult.hashKey?_eq_some_iff.mp hkey
      exact SearchResult.hashKey?_eq_some_iff.mpr ⟨hash ▸ hm₁, extension ▸ hm₂⟩
    have here := h.agreeing.hashKey_of_result hg (Group.mem_results_iff.mpr ⟨m, hm, rfl⟩)
    have there := h.agreeing.hashKey_of_result hk (Group.mem_results_iff.mpr ⟨n, hn, rfl⟩)
    exact h.eq_of_key hg hk (here.symm.trans hkey) (there.symm.trans hkey')

/-! ## Parts -/

/-- The results of all groups. -/
def allResults (ix : GroupIndex) : List SearchResult :=
  ix.groups.flatMap Group.results

/-- The results of each group that is found by a content hash. -/
def hashedParts (ix : GroupIndex) : Multiset (Multiset SearchResult) :=
  ((ix.groups.filter (·.hash ≠ none)).map fun g => (g.results : Multiset SearchResult) : List _)

/-- The keys of the groups that are found by a content hash. -/
def groupKeys (ix : GroupIndex) : List HashKey :=
  ix.groups.filterMap (·.canonical.key?)

/-- A group with a key has all results with that key. -/
theorem Exact.results_eq (h : ix.Exact) {g : Group} (hg : g ∈ ix.groups) {key : HashKey}
    (hkey : g.canonical.key? = some key) :
    ix.allResults.filter (·.hashKey? = some key) = g.results := by
  obtain ⟨roster, filed⟩ := h.filed
  obtain ⟨front, back, split⟩ := List.append_of_mem hg
  have nodup : ix.groups.Nodup := .of_map Group.id filed.coherent.ids_nodup
  rw [split, List.nodup_middle, List.nodup_cons, List.mem_append, not_or] at nodup
  -- The other groups have no result with the key.
  have elsewhere {others : List Group} (sub : ∀ k ∈ others, k ∈ ix.groups) (hne : g ∉ others) :
      (others.flatMap Group.results).filter (·.hashKey? = some key) = [] := by
    rw [List.filter_eq_nil_iff]
    intro r hr hrkey
    obtain ⟨k, hk, hrk⟩ := List.mem_flatMap.mp hr
    have hkkey := (h.agreeing.hashKey_of_result (sub k hk) hrk).symm.trans
      (of_decide_eq_true hrkey)
    exact hne (h.eq_of_key hg (sub k hk) hkey hkkey ▸ hk)
  have here : g.results.filter (·.hashKey? = some key) = g.results := by
    rw [List.filter_eq_self]
    intro r hr
    exact decide_eq_true ((h.agreeing.hashKey_of_result hg hr).trans hkey)
  have hfront : ∀ k ∈ front, k ∈ ix.groups := fun k hk => by simp [split, hk]
  have hback : ∀ k ∈ back, k ∈ ix.groups := fun k hk => by simp [split, hk]
  rw [allResults, split, List.flatMap_append, List.flatMap_cons, List.filter_append,
    List.filter_append, here, elsewhere hfront nodup.1.1, elsewhere hback nodup.1.2,
    List.nil_append, List.append_nil]

theorem Exact.groupKeys_nodup (h : ix.Exact) : ix.groupKeys.Nodup := by
  obtain ⟨roster, filed⟩ := h.filed
  refine List.pairwise_filterMap.mpr ?_
  refine (List.pairwise_map.mp filed.coherent.ids_nodup).imp_of_mem ?_
  rintro g k hg hk hne key hgkey key' hkkey rfl
  exact hne (h.one g hg k hk key hgkey hkkey)

theorem Agreeing.mem_groupKeys (h : ix.Agreeing) {key : HashKey} :
    key ∈ ix.groupKeys ↔ ∃ r ∈ ix.allResults, r.hashKey? = some key := by
  simp only [groupKeys, List.mem_filterMap, allResults, List.mem_flatMap]
  constructor
  · rintro ⟨g, hg, hkey⟩
    have first : g.canonical.result ∈ g.results := List.mem_cons_self
    exact ⟨g.canonical.result, ⟨g, hg, first⟩, hkey⟩
  · rintro ⟨r, ⟨g, hg, hr⟩, hkey⟩
    exact ⟨g, hg, (h.hashKey_of_result hg hr).symm.trans hkey⟩

/-- The groups found by a content hash divide the results by hash and extension. -/
theorem Exact.hashedParts_eq (h : ix.Exact) :
    ix.hashedParts = SearchResult.partsByKey (ix.allResults : Multiset SearchResult) := by
  have keys : (ix.groupKeys : Multiset HashKey) =
      ((ix.allResults : Multiset SearchResult).filterMap SearchResult.hashKey?).dedup := by
    refine (Multiset.Nodup.ext (Multiset.coe_nodup.mpr h.groupKeys_nodup)
      (Multiset.nodup_dedup _)).mpr fun key => ?_
    rw [Multiset.mem_dedup, Multiset.mem_filterMap, Multiset.mem_coe, h.agreeing.mem_groupKeys]
    rfl
  rw [SearchResult.partsByKey, ← keys, Multiset.map_coe, hashedParts]
  congr 1
  rw [groupKeys, List.map_filterMap, ← List.filterMap_eq_map, List.filterMap_filter]
  refine List.filterMap_congr fun g hg => ?_
  cases hkey : g.canonical.key? with
  | none =>
      have unhashed : g.hash = none := SearchResult.hashKey?_eq_none_iff.mp hkey
      simp [unhashed]
  | some key =>
      have hashed : g.hash = some key.hash := (Group.key?_eq_some_iff.mp hkey).1
      simp [hashed, h.results_eq hg hkey]

/-! ## Inserting -/

/-- Replacing a group leaves those before it and those behind it as they are. -/
theorem Coherent.put_split (h : ix.Coherent) {g before : Group}
    (live : ix.group? g.id = some before) :
    ∃ front back, ix.groups = front ++ before :: back ∧
      (ix.putGroup g).groups = front ++ g :: back := by
  obtain ⟨front, back, split⟩ := List.append_of_mem (mem_of_group? live)
  have name : before.id = g.id := id_of_group? live
  have nodup := h.ids_nodup
  rw [ids, split, List.map_append, List.map_cons, List.nodup_middle, List.nodup_cons, name,
    List.mem_append, not_or] at nodup
  have others {l : List Group} (hne : g.id ∉ l.map Group.id) :
      (l.map fun k => if k.id = g.id then g else k) = l := by
    refine (List.map_congr_left fun k hk => if_neg ?_).trans (List.map_id l)
    exact fun heq => hne (heq ▸ List.mem_map_of_mem hk)
  refine ⟨front, back, split, ?_⟩
  rw [putGroup, split, List.map_append, List.map_cons, others nodup.1.1, others nodup.1.2,
    if_pos name]

/-- An accepted result comes to the results of all groups. -/
theorem Coherent.allResults_insert (h : ix.Coherent) {r : SearchResult} (valid : r.isValid = true) :
    (ix.perform (.insert r)).allResults.Perm (ix.allResults ++ [r]) := by
  simp only [GroupIndex.perform, insert_of_valid valid]
  cases home : ix.home? (.ofResult r) with
  | none =>
      rw [GroupIndex.place_of_homeless home, allResults, List.flatMap_append, ← allResults]
      exact .refl _
  | some g =>
      have live : ix.group? (g.push (ix.nextMember r)).id = some g := home?_spec home
      obtain ⟨front, back, split, put⟩ := h.put_split live
      have groups : (ix.place r).1.groups = front ++ g.push (ix.nextMember r) :: back := by
        rw [GroupIndex.place_of_home home]
        exact put
      rw [allResults, allResults, groups, split]
      simp only [List.flatMap_append, List.flatMap_cons, Group.results_push, List.append_assoc]
      -- The new result stands behind those of its group instead of behind them all.
      refine (List.Perm.append_left _ (List.Perm.append_left _ ?_))
      exact List.perm_append_comm

theorem Coherent.allResults_insertAll (h : ix.Coherent) {results : List SearchResult}
    (valid : ∀ r ∈ results, r.isValid = true) :
    (ix.after (results.map .insert)).allResults.Perm (ix.allResults ++ results) := by
  induction results generalizing ix with
  | nil =>
      rw [List.append_nil]
      exact .refl _
  | cons r rest ih =>
      have ⟨first, others⟩ := List.forall_mem_cons.mp valid
      have step := (h.allResults_insert first).append_right rest
      rw [List.append_assoc] at step
      exact (ih (h.perform (.insert r)) others).trans step

/-- Inserted into an empty index, results with a content hash are divided by hash and extension. -/
theorem hashedParts_insertAll {results : List SearchResult}
    (valid : ∀ r ∈ results, r.isValid = true) :
    ((empty true).after (results.map .insert)).hashedParts =
      SearchResult.partsByKey (results : Multiset SearchResult) := by
  have h : ((empty true).after (results.map .insert)).Exact := by
    refine empty_exact.after fun c hc => ?_
    obtain ⟨r, -, rfl⟩ := List.mem_map.mp hc
    exact IndexCommand.noConfusion
  have all := (coherent_empty true).allResults_insertAll valid
  rw [h.hashedParts_eq, Multiset.coe_eq_coe.mpr all]
  rfl

/-- While grouping is on, results with a content hash are in one group exactly when hash and
extension are the same, and never with one without a hash. So the order in which results are
inserted into an empty index has no say in how those with a hash are divided. -/
theorem hashed_results_grouped_by_content (commands : List IndexCommand)
    (on : ∀ c ∈ commands, c ≠ .setGrouping false) :
    let ix := (empty true).after commands
    (∀ g ∈ ix.groups, ∀ k ∈ ix.groups, ∀ m ∈ g.members, ∀ n ∈ k.members,
        m.result.hash ≠ none → n.result.hash ≠ none →
        (g.id = k.id ↔ m.result.hash = n.result.hash ∧
          Text.lower m.result.extension = Text.lower n.result.extension)) ∧
      (∀ g ∈ ix.groups, ∀ m ∈ g.members, ∀ n ∈ g.members,
        (m.result.hash = none ↔ n.result.hash = none)) ∧
      ∀ results results' : List SearchResult, (∀ r ∈ results, r.isValid = true) →
        results.Perm results' →
        ((empty true).after (results.map .insert)).hashedParts =
          ((empty true).after (results'.map .insert)).hashedParts := by
  intro ix
  have h : ix.Exact := empty_exact.after on
  obtain ⟨roster, filed⟩ := h.filed
  refine ⟨?_, ?_, ?_⟩
  · intro g hg k hk m hm n hn hashed _
    rw [← h.same_group_iff hg hk hm hn hashed]
    exact ⟨filed.coherent.eq_of_id hg hk, congrArg Group.id⟩
  · intro g hg m hm n hn
    rw [(h.agreeing.members_agree hg hm hn).hash]
  · intro results results' valid perm
    have valid' : ∀ r ∈ results', r.isValid = true := fun r hr => valid r (perm.mem_iff.mpr hr)
    rw [hashedParts_insertAll valid, hashedParts_insertAll valid', Multiset.coe_eq_coe.mpr perm]

/-- A group keeps its hash when its first result is taken out, and it is divided from a result of
the same name without a hash in either order. -/
theorem hashed_results_grouped_by_content_either_way :
    let hash : ContentHash := ⟨List.replicate 32 'A', rfl⟩
    let a : SearchResult := { fileName := "a.mp3", size := 1, hash := some hash }
    let b : SearchResult := { fileName := "b.MP3", size := 2, hash := some hash }
    let c : SearchResult := { fileName := "b.mp3", size := 2 }
    let commands : List IndexCommand := [.insert a, .insert c, .insert b, .remove ⟨0⟩]
    (∀ command ∈ commands, command ≠ .setGrouping false) ∧
      ((empty true).after commands).groups.map Group.results = [[b], [c]] ∧
      ((empty true).after ([a, c, b].map .insert)).hashedParts =
        ((empty true).after ([b, c, a].map .insert)).hashedParts := by
  intro hash a b c commands
  have on : ∀ command ∈ commands, command ≠ .setGrouping false := by simp [commands]
  have valid : ∀ r ∈ [a, c, b], r.isValid = true := by decide +kernel
  refine ⟨on, by decide +kernel, ?_⟩
  exact (hashed_results_grouped_by_content commands on).2.2 _ _ valid (List.reverse_perm _).symm

end GroupIndex

end PeerSearch
