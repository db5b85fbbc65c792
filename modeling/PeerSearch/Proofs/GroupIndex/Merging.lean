import PeerSearch.Proofs.GroupIndex.Register

/-!
# PeerSearch.Proofs.GroupIndex.Merging -- where a result without a hash ends up

A result without a content hash is compared with the canonical members of the groups without one.
It joins the first on the roster that is the same file, and starts a group when there is none. That
the search looks at one bucket only makes no difference: the same file has the same size.
-/

namespace PeerSearch

namespace GroupIndex

variable {ix : GroupIndex} {roster : List (GroupId × Member)}

/-- A search by size and name finds the first on the roster that is the same file. -/
theorem Filed.lookupSimilar?_eq (h : ix.Filed roster) (r : SearchResult) :
    ix.lookupSimilar? (.ofResult r) =
      (roster.find? fun e => e.2.result.hash = none ∧ e.2.result.compareTo r = .identical).map
        (·.1) := by
  have sameFile (e : GroupId × Member) :
      (e.2.inBucket r.size = true ∧ e.2.result.compareTo r = .identical) ↔
        e.2.result.hash = none ∧ e.2.result.compareTo r = .identical := by
    rw [Member.inBucket, decide_eq_true_eq]
    constructor
    · rintro ⟨⟨hash, -⟩, identical⟩
      exact ⟨hash, identical⟩
    · rintro ⟨hash, identical⟩
      exact ⟨⟨hash, (Fingerprint.agree_of_identical hash identical).1⟩, identical⟩
  unfold lookupSimilar?
  rw [h.tidy.find?_eq, h.files.bucket, List.find?_map, List.find?_filter, Option.map_map]
  simp only [Function.comp_apply, decide_eq_true_eq]
  show (roster.find? fun e =>
    e.2.inBucket r.size = true ∧ e.2.result.compareTo r = .identical).map (·.1) = _
  simp only [sameFile]

/-- While grouping is on, a result with a hash is at home in the group that its key leads to. -/
theorem home?_of_key (on : ix.grouping = true) {f : Fingerprint} {key : HashKey}
    (hkey : HashKey.ofFingerprint? f = some key) :
    ix.home? f = (ix.byHash.find? key).bind ix.group? := by
  rw [home?, if_pos on, lookup?, hkey]

/-- While grouping is on, a result without a hash is at home in the group that the search finds. -/
theorem Filed.home?_eq (h : ix.Filed roster) (on : ix.grouping = true) {r : SearchResult}
    (unhashed : r.hash = none) :
    ix.home? (.ofResult r) =
      (roster.find? fun e => e.2.result.hash = none ∧ e.2.result.compareTo r = .identical).bind
        fun e => ix.group? e.1 := by
  have noKey : HashKey.ofFingerprint? (.ofResult r) = none :=
    HashKey.ofFingerprint?_eq_none_iff.mpr unhashed
  rw [home?, if_pos on, lookup?, noKey]
  show (ix.lookupSimilar? (.ofResult r)).bind ix.group? = _
  rw [h.lookupSimilar?_eq r, Option.bind_map]
  rfl

/-- While grouping is on, a valid result without a hash is merged if and only if it is the same file
as the canonical member of some group without one. The group that it joins is then the one of these
that was registered first, a group counting as registered since it has its canonical member, and
that member agrees with the result in size and extension. Otherwise the result starts a new
group. -/
theorem unhashed_result_joins_first_registered (grouping : Bool) (commands : List IndexCommand)
    (r : SearchResult) (on : ((empty grouping).after commands).grouping = true)
    (valid : r.isValid = true) (unhashed : r.hash = none) :
    let ix := (empty grouping).after commands
    let roster := (empty grouping).rosterFrom [] commands
    roster.Perm ix.standing ∧
      ∃ ix' p, ix.insert r = .ok (ix', p) ∧ p.result = ⟨ix.nextResult⟩ ∧
        (p.created = false ↔
          ∃ g ∈ ix.groups, g.hash = none ∧ g.canonical.result.compareTo r = .identical) ∧
        (p.created = false →
          ∃ g ∈ ix.groups, p.group = g.id ∧
            roster.find? (fun e =>
              e.2.result.hash = none ∧ e.2.result.compareTo r = .identical) =
                some (g.id, g.canonical) ∧
            g.size = r.size ∧ Text.lower g.extension = Text.lower r.extension ∧
            ix'.groups = (ix.putGroup (g.push ⟨p.result, r⟩)).groups) ∧
        (p.created = true →
          p.group ∉ ix.ids ∧ ix'.groups = ix.groups ++ [.single p.group ⟨p.result, r⟩]) := by
  intro ix roster
  have h : ix.Filed roster := after_filed grouping commands
  have home := h.home?_eq on unhashed
  refine ⟨h.perm, (ix.place r).1, (ix.place r).2, insert_of_valid valid, ?_⟩
  cases hfind : roster.find? fun e =>
      e.2.result.hash = none ∧ e.2.result.compareTo r = .identical with
  | none =>
      rw [hfind, Option.bind_none] at home
      rw [place_of_homeless home]
      refine ⟨rfl, ?_, ?_, ?_⟩
      · -- Any group that is the same file is on the roster and would have been found there.
        refine iff_of_false Bool.noConfusion ?_
        rintro ⟨g, hg, hash, identical⟩
        have listed : (g.id, g.canonical) ∈ roster :=
          h.mem_roster.mpr ⟨g, h.coherent.group?_of_mem hg, rfl⟩
        exact List.find?_eq_none.mp hfind _ listed (decide_eq_true ⟨hash, identical⟩)
      · intro merged
        cases merged
      · intro _
        refine ⟨?_, rfl⟩
        rw [← group?_eq_none_iff]
        exact h.coherent.unused_group
  | some e =>
      obtain ⟨id, m⟩ := e
      have same := List.find?_some hfind
      obtain ⟨hash, identical⟩ := of_decide_eq_true same
      obtain ⟨g, hg, rfl⟩ := h.mem_roster.mp (List.mem_of_find?_eq_some hfind)
      obtain rfl : g.id = id := id_of_group? hg
      rw [hfind, Option.bind_some, hg] at home
      rw [place_of_home home]
      have live := mem_of_group? hg
      obtain ⟨size, extension⟩ := Fingerprint.agree_of_identical hash identical
      refine ⟨rfl, ?_, ?_, ?_⟩
      · exact iff_of_true rfl ⟨g, live, hash, identical⟩
      · intro _
        exact ⟨g, live, rfl, rfl, size, extension, rfl⟩
      · intro created
        cases created

/-- Two groups of one file are there; the first has lost its canonical member, so that the second
has been registered longer and takes the next result. -/
theorem unhashed_result_joins_second_group :
    let song : SearchResult := { fileName := "a.mp3", size := 1 }
    let commands : List IndexCommand :=
      [.insert song, .setGrouping false, .insert song, .setGrouping true, .insert song, .remove ⟨0⟩]
    ∃ ix' p, ((empty true).after commands).insert song = .ok (ix', p) ∧ p.created = false ∧
      p.group = ⟨1⟩ := by
  intro song commands
  obtain ⟨-, ix', p, inserted, -, merges, joins, -⟩ :=
    unhashed_result_joins_first_registered true commands song (by decide +kernel)
      (by decide +kernel) rfl
  have merged : p.created = false := merges.mpr (by decide +kernel)
  obtain ⟨g, -, group, first, -⟩ := joins merged
  have second : (((empty true).rosterFrom [] commands).find? fun e =>
      e.2.result.hash = none ∧ e.2.result.compareTo song = .identical).map (·.1) = some ⟨1⟩ := by
    decide +kernel
  rw [first] at second
  exact ⟨ix', p, inserted, merged, group.trans (Option.some.inj second)⟩

end GroupIndex

end PeerSearch
