import PeerSearch.Proofs.GroupIndex.Accepted
import PeerSearch.Proofs.GroupIndex.Merging

/-!
# PeerSearch.Proofs.GroupIndex.Identity -- what the members of a group agree in

A result joins a group by its canonical member only. Yet all members agree with one another in what
a group is found by, because agreement is an equivalence that every way of joining implies; so a
group is found by the same hash and extension, whichever member is the canonical one.
-/

namespace PeerSearch

/-! ## Agreement of results -/

namespace SearchResult

/-- The results have the same content hash and extension, or no hash and the same size and
extension. -/
structure Agrees (a b : SearchResult) : Prop where
  hash : a.hash = b.hash
  extension : Text.lower a.extension = Text.lower b.extension
  size : a.hash = none → a.size = b.size

theorem Agrees.refl (a : SearchResult) : a.Agrees a :=
  ⟨rfl, rfl, fun _ => rfl⟩

theorem Agrees.symm {a b : SearchResult} (h : a.Agrees b) : b.Agrees a :=
  ⟨h.hash.symm, h.extension.symm, fun hb => (h.size (h.hash.trans hb)).symm⟩

theorem Agrees.trans {a b c : SearchResult} (hab : a.Agrees b) (hbc : b.Agrees c) : a.Agrees c :=
  ⟨hab.hash.trans hbc.hash, hab.extension.trans hbc.extension,
    fun ha => (hab.size ha).trans (hbc.size (hab.hash ▸ ha))⟩

/-- The results are of one file, as far as groups tell files apart: all have one content hash and
one extension, or none has a hash and all have one size and one extension. -/
inductive OfOneFile (results : List SearchResult) : Prop where
  | hashed (hash : ContentHash) (extension : String)
      (all : ∀ r ∈ results, r.hash = some hash ∧ Text.lower r.extension = extension)
  | unhashed (size : Nat) (extension : String)
      (all : ∀ r ∈ results, r.hash = none ∧ r.size = size ∧ Text.lower r.extension = extension)

theorem OfOneFile.of_agrees {a : SearchResult} {results : List SearchResult}
    (agree : ∀ r ∈ results, a.Agrees r) : OfOneFile results := by
  cases known : a.hash with
  | some hash =>
      refine .hashed hash (Text.lower a.extension) fun r hr => ?_
      have same := agree r hr
      exact ⟨same.hash.symm.trans known, same.extension.symm⟩
  | none =>
      refine .unhashed a.size (Text.lower a.extension) fun r hr => ?_
      have same := agree r hr
      exact ⟨same.hash.symm.trans known, (same.size known).symm, same.extension.symm⟩

end SearchResult

theorem Member.key?_of_agrees {m n : Member} (h : m.result.Agrees n.result) : m.key? = n.key? := by
  unfold key? fingerprint HashKey.ofFingerprint?
  show m.result.hash.map _ = n.result.hash.map _
  rw [h.hash]
  show n.result.hash.map (HashKey.mk · (Text.lower m.result.extension)) =
    n.result.hash.map (HashKey.mk · (Text.lower n.result.extension))
  rw [h.extension]

namespace GroupIndex

variable {ix ix' : GroupIndex} {roster : List (GroupId × Member)}

/-! ## Joining -/

/-- A result agrees with the canonical member of the group that it is at home in. -/
theorem Filed.home_agrees (h : ix.Filed roster) {r : SearchResult} {g : Group}
    (home : ix.home? (.ofResult r) = some g) : g.canonical.result.Agrees r := by
  have on : ix.grouping = true := by
    by_contra off
    rw [home?, if_neg off] at home
    cases home
  cases hkey : HashKey.ofFingerprint? (.ofResult r) with
  | some key =>
      -- The key leads to a group that has it, and that says all there is to agree in.
      rw [home?_of_key on hkey] at home
      obtain ⟨id, hid, hg⟩ := Option.bind_eq_some_iff.mp home
      obtain ⟨k, hk, sameKey⟩ := h.group_of_key hid
      obtain rfl : k = g := Option.some.inj (hk.symm.trans hg)
      obtain ⟨hash, extension⟩ := HashKey.ofFingerprint?_eq_some_iff.mp sameKey
      obtain ⟨hash', extension'⟩ := HashKey.ofFingerprint?_eq_some_iff.mp hkey
      refine ⟨hash.trans hash'.symm, extension.trans extension'.symm, ?_⟩
      intro unhashed
      cases hash.symm.trans unhashed
  | none =>
      -- The search finds an identical file, and the same file has the same size and extension.
      have unhashed : r.hash = none := HashKey.ofFingerprint?_eq_none_iff.mp hkey
      rw [h.home?_eq on unhashed] at home
      obtain ⟨e, he, hg⟩ := Option.bind_eq_some_iff.mp home
      have same := List.find?_some he
      obtain ⟨hash, identical⟩ := of_decide_eq_true same
      obtain ⟨k, hk, canonical⟩ := h.mem_roster.mp (List.mem_of_find?_eq_some he)
      obtain rfl : k = g := Option.some.inj (hk.symm.trans hg)
      obtain ⟨size, extension⟩ := Fingerprint.agree_of_identical hash identical
      rw [canonical]
      exact ⟨hash.trans unhashed.symm, extension, fun _ => size⟩

/-! ## All members of a group -/

/-- The members of each group agree with its canonical member. -/
def Agreeing (ix : GroupIndex) : Prop :=
  ∀ g ∈ ix.groups, ∀ m ∈ g.members, g.canonical.result.Agrees m.result

theorem Agreeing.put (h : ix.Agreeing) {g : Group}
    (here : ∀ m ∈ g.members, g.canonical.result.Agrees m.result)
    (groups : ix'.groups = (ix.putGroup g).groups) : ix'.Agreeing := by
  intro k hk
  rw [groups] at hk
  rcases mem_putGroup hk with rfl | hk
  · exact here
  · exact h k hk

theorem Agreeing.effect (h : ix.Agreeing) (filed : ix.Filed roster) {new : List Member}
    (e : ix.Effect new ix') : ix'.Agreeing := by
  cases e with
  | kept grouping => exact h
  | joined r g valid home =>
      have live := mem_of_group? (home?_spec home)
      refine h.put (g := g.push (ix.nextMember r)) ?_ rfl
      intro m hm
      rw [Group.members_push, List.mem_append, List.mem_singleton] at hm
      rcases hm with hm | rfl
      · exact h g live m hm
      · have agrees := filed.home_agrees home
        exact agrees
  | started r valid homeless =>
      intro k hk m hm
      rcases List.mem_append.mp hk with hk | hk
      · exact h k hk m hm
      · rw [List.mem_singleton.mp hk, Group.members_single, List.mem_singleton] at hm
        rw [List.mem_singleton.mp hk, hm]
        exact .refl _
  | marked g junk live => exact h.put (g := g.mark junk) (h g (mem_of_group? live)) rfl
  | left id g g' live member other rest =>
      refine h.put (g := g') ?_ rfl
      intro m hm
      rw [Group.canonical_of_detach rest other]
      exact h g (mem_of_group? live) m (Group.mem_members_of_detach rest hm)
  | succeeded g g' live rest =>
      refine h.put (g := g') ?_ rfl
      intro m hm
      -- The new canonical member was one of the members, and so were those that are left.
      have old := h g (mem_of_group? live)
      have first := old g'.canonical (Group.mem_members_of_detach rest List.mem_cons_self)
      exact first.symm.trans (old m (Group.mem_members_of_detach rest hm))
  | dropped g live =>
      intro k hk
      exact h k (List.mem_of_mem_filter hk)
  | cleared =>
      intro k hk
      cases hk

theorem after_agreeing (grouping : Bool) (commands : List IndexCommand) :
    ((empty grouping).after commands).Agreeing := by
  have run (ix : GroupIndex) : ((∃ roster, ix.Filed roster) ∧ ix.Agreeing) →
      ∀ c, (∃ roster, (ix.perform c).Filed roster) ∧ (ix.perform c).Agreeing := by
    rintro ⟨⟨roster, filed⟩, agreeing⟩ c
    exact ⟨⟨_, filed.perform c⟩, agreeing.effect filed (perform_effect filed.coherent c)⟩
  refine (after_keeps (P := fun ix => (∃ roster, ix.Filed roster) ∧ ix.Agreeing) ?_
    (fun ix c h => run ix h c) commands).2
  refine ⟨⟨[], empty_filed grouping⟩, ?_⟩
  intro g hg
  cases hg

theorem Agreeing.ofOneFile (h : ix.Agreeing) {g : Group} (hg : g ∈ ix.groups) :
    SearchResult.OfOneFile g.results := by
  refine .of_agrees (a := g.canonical.result) fun r hr => ?_
  obtain ⟨m, hm, rfl⟩ := Group.mem_results_iff.mp hr
  exact h g hg m hm

/-- A group keeps the hash and the extension that it is found by. -/
theorem Agreeing.same_key (h : ix.Agreeing) {new : List Member} (e : ix.Effect new ix')
    {g k : Group} (hg : ix.group? g.id = some g) (hk : ix'.group? g.id = some k) :
    k.canonical.key? = g.canonical.key? := by
  have kept (before after : Group) (live : ix.group? after.id = some before)
      (groups : ix'.groups = (ix.putGroup after).groups)
      (agrees : before.canonical.result.Agrees after.canonical.result) :
      k.canonical.key? = g.canonical.key? := by
    rw [group?_of_put live groups] at hk
    split at hk
    · next name =>
      obtain rfl := Option.some.inj hk
      rw [name] at live
      obtain rfl := Option.some.inj (live.symm.trans hg)
      exact (Member.key?_of_agrees agrees).symm
    · rw [Option.some.inj (hk.symm.trans hg)]
  cases e with
  | kept grouping => rw [Option.some.inj (hk.symm.trans hg)]
  | joined r before valid home =>
      exact kept before (before.push _) (home?_spec home) rfl (.refl _)
  | started r valid homeless =>
      rw [group?_append rfl, hg, Option.some_or] at hk
      rw [Option.some.inj hk]
  | marked before junk live => exact kept before (before.mark junk) live rfl (.refl _)
  | left id before after live member other rest =>
      have name : after.id = before.id := (Group.detach?_spec rest).1
      refine kept before after (name.symm ▸ live) rfl ?_
      rw [Group.canonical_of_detach rest other]
      exact .refl _
  | succeeded before after live rest =>
      have name : after.id = before.id := (Group.detach?_spec rest).1
      refine kept before after (name.symm ▸ live) rfl ?_
      exact h before (mem_of_group? live) _ (Group.mem_members_of_detach rest List.mem_cons_self)
  | dropped gone live =>
      change (ix.dropGroup gone.id).group? g.id = some k at hk
      rw [group?_dropGroup] at hk
      split at hk
      · cases hk
      · rw [Option.some.inj (hk.symm.trans hg)]
  | cleared => cases hk

/-! ## Succession -/

/-- When the canonical member of a group leaves, the next one takes its place and is not compared
with the others. -/
theorem Coherent.succession (h : ix.Coherent) {g : Group} (hg : g ∈ ix.groups) {next : Member}
    {rest : List Member} (others : g.others = next :: rest) :
    ∃ g', (ix.remove g.canonical.id).1.group? g.id = some g' ∧ g'.members = next :: rest := by
  have live := h.group?_of_mem hg
  have member : g.canonical.id ∈ g.memberIds := List.mem_cons_self
  have hid := (h.membership g.canonical.id g.id).mpr ⟨g, live, member⟩
  obtain ⟨r, hr⟩ := Option.isSome_iff_exists.mp ((g.result?_isSome_iff _).mpr member)
  have left : g.detach? g.canonical.id = g.withMembers? (next :: rest) := by
    rw [Group.detach?, Group.members, List.eraseP_cons_of_pos (by simp), others]
  obtain ⟨g', hd⟩ : ∃ g', g.detach? g.canonical.id = some g' := ⟨_, left⟩
  have name : g'.id = g.id := (Group.detach?_spec hd).1
  have members : g'.members = next :: rest := by
    rw [hd] at left
    rw [Option.some.inj left, Group.members]
  obtain ⟨ix', hrem, groups, -⟩ := GroupIndex.remove_of_shared hid live hr hd
  refine ⟨g', ?_, members⟩
  rw [hrem, group?_of_put (name.symm ▸ live) groups, if_pos name]

/-- All members of a group are of one file. They still are when the canonical member has left and
the next one has taken its place, with which the others were never compared. -/
theorem members_of_group_are_of_one_file (grouping : Bool) (commands : List IndexCommand) :
    let ix := (empty grouping).after commands
    ∀ g ∈ ix.groups, SearchResult.OfOneFile g.results ∧
      ∀ next rest, g.others = next :: rest →
        ∃ g', (ix.remove g.canonical.id).1.group? g.id = some g' ∧
          g'.members = next :: rest ∧ SearchResult.OfOneFile g'.results := by
  intro ix g hg
  have agreeing : ix.Agreeing := after_agreeing grouping commands
  refine ⟨agreeing.ofOneFile hg, ?_⟩
  intro next rest others
  obtain ⟨g', live, members⟩ := (after_coherent grouping commands).succession hg others
  -- Taking the canonical member out is one more command of the run.
  have later : (ix.remove g.canonical.id).1.Agreeing := by
    have run := after_agreeing grouping (commands ++ [.remove g.canonical.id])
    rw [after, List.foldl_append] at run
    exact run
  exact ⟨g', live, members, later.ofOneFile (mem_of_group? live)⟩

/-- Two names can each be one edit away from a third and two edits apart. The group that the third
one started holds all of them, and one of the two follows it. -/
theorem members_of_group_are_of_one_file_of_three :
    let a : SearchResult := { fileName := "alpha.txt", size := 5 }
    let b : SearchResult := { fileName := "blpha.TXT", size := 5 }
    let c : SearchResult := { fileName := "alphc.txt", size := 5 }
    let ix := (empty true).after [.insert a, .insert b, .insert c]
    b.compareTo c = .sameSizeDifferentName ∧
      ∃ g ∈ ix.groups, SearchResult.OfOneFile g.results ∧
        ∃ g', (ix.remove g.canonical.id).1.group? g.id = some g' ∧ g'.results = [b, c] ∧
          SearchResult.OfOneFile g'.results := by
  intro a b c ix
  obtain ⟨g, live, others⟩ : ∃ g ∈ ix.groups, g.others = [⟨⟨1⟩, b⟩, ⟨⟨2⟩, c⟩] := by
    decide +kernel
  have keeps := members_of_group_are_of_one_file true [.insert a, .insert b, .insert c] g live
  obtain ⟨g', after, members, one⟩ := keeps.2 _ _ others
  refine ⟨by decide +kernel, g, live, keeps.1, g', after, ?_, one⟩
  rw [Group.results, members]
  rfl

end GroupIndex

end PeerSearch
