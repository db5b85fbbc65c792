import PeerSearch.GroupIndex.Command
import PeerSearch.Proofs.GroupIndex

/-!
# PeerSearch.Proofs.GroupIndex.Effect -- what a command can do to an index

`Effect` lists all that a command can do, each case with the index that it leaves and the members
that it has made. Invariants of an index are proved case by case over it, and `after_keeps` carries
them over any run.
-/

namespace PeerSearch

namespace GroupIndex

variable {ix ix' : GroupIndex}

/-! ## The cases -/

/-- All that a command can do: the members that it makes and the index that it leaves. -/
inductive Effect (ix : GroupIndex) : List Member → GroupIndex → Prop
  /-- No group changes. -/
  | kept (grouping : Bool) : Effect ix [] { ix with grouping }
  /-- A result has joined its home. -/
  | joined (r : SearchResult) (g : Group) (valid : r.isValid = true)
      (home : ix.home? (.ofResult r) = some g) :
      Effect ix [ix.nextMember r]
        { ix.putGroup (g.push (ix.nextMember r)) with
          membership := ix.membership.insert ⟨ix.nextResult⟩ g.id
          nextResult := ix.nextResult + 1 }
  /-- A result has started a group. -/
  | started (r : SearchResult) (valid : r.isValid = true)
      (homeless : ix.home? (.ofResult r) = none) :
      Effect ix [ix.nextMember r]
        { ix.register ⟨ix.nextGroup⟩ (.ofResult r) with
          groups := ix.groups ++ [.single ⟨ix.nextGroup⟩ (ix.nextMember r)]
          membership := ix.membership.insert ⟨ix.nextResult⟩ ⟨ix.nextGroup⟩
          nextGroup := ix.nextGroup + 1
          nextResult := ix.nextResult + 1 }
  | marked (g : Group) (junk : Bool) (live : ix.group? g.id = some g) :
      Effect ix [] (ix.putGroup (g.mark junk))
  /-- A member has left that its group is not named after. -/
  | left (id : ResultId) (g g' : Group) (live : ix.group? g.id = some g) (member : id ∈ g.memberIds)
      (other : g.canonical.id ≠ id) (rest : g.detach? id = some g') :
      Effect ix [] { ix.putGroup g' with membership := ix.membership.erase id }
  /-- The canonical member has left, and the next one has taken its place. -/
  | succeeded (g g' : Group) (live : ix.group? g.id = some g)
      (rest : g.detach? g.canonical.id = some g') :
      Effect ix []
        { (ix.unregister g.id (fingerprintOf g)).register g.id (fingerprintOf g') with
          groups := (ix.putGroup g').groups
          membership := ix.membership.erase g.canonical.id }
  /-- A group has gone with all its members. -/
  | dropped (g : Group) (live : ix.group? g.id = some g) :
      Effect ix []
        { ix.unregister g.id (fingerprintOf g) with
          groups := (ix.dropGroup g.id).groups
          membership := g.members.foldl (fun m member => m.erase member.id) ix.membership }
  | cleared : Effect ix [] ix.clear

/-! ## The operations, case by case -/

theorem refusal?_eq_none_iff {r : SearchResult} : r.refusal? = none ↔ r.isValid = true := by
  rw [SearchResult.isValid, Option.isNone_iff_eq_none]

theorem insert_of_valid {r : SearchResult} (valid : r.isValid = true) :
    ix.insert r = .ok (ix.place r) := by
  rw [insert, refusal?_eq_none_iff.mpr valid]

theorem insert_of_invalid (ix : GroupIndex) {r : SearchResult} (invalid : r.isValid = false) :
    ∃ refusal, ix.insert r = .error refusal := by
  cases hr : r.refusal? with
  | none =>
      rw [refusal?_eq_none_iff.mp hr] at invalid
      cases invalid
  | some refusal =>
      refine ⟨refusal, ?_⟩
      rw [insert, hr]

theorem insert_effect (ix : GroupIndex) (r : SearchResult) :
    ix.Effect (ix.acceptedBy (.insert r)) (ix.perform (.insert r)) := by
  cases valid : r.isValid with
  | false =>
      obtain ⟨refusal, hinsert⟩ := insert_of_invalid ix valid
      simp only [acceptedBy, perform, hinsert]
      exact .kept ix.grouping
  | true =>
      simp only [acceptedBy, perform, insert_of_valid valid]
      cases hh : ix.home? (.ofResult r) with
      | some g =>
          rw [place_of_home hh]
          exact .joined r g valid hh
      | none =>
          rw [place_of_homeless hh]
          exact .started r valid hh

/-- Making a group findable has nothing to do with groups and members. -/
theorem register_frame (ix : GroupIndex) (groups : List Group)
    (membership : SortedMap ResultId GroupId) (id : GroupId) (f : Fingerprint) :
    { ix with groups, membership }.register id f =
      { ix.register id f with groups, membership } := by
  unfold register
  cases HashKey.ofFingerprint? f with
  | none => rfl
  | some key => rfl

/-- Nor has taking it off the lookups. -/
theorem unregister_frame (ix : GroupIndex) (groups : List Group)
    (membership : SortedMap ResultId GroupId) (id : GroupId) (f : Fingerprint) :
    { ix with groups, membership }.unregister id f =
      { ix.unregister id f with groups, membership } := by
  unfold unregister
  cases HashKey.ofFingerprint? f with
  | none => rfl
  | some key =>
      dsimp only
      by_cases held : ix.byHash.find? key = some id
      · rw [if_pos held, if_pos held]
      · rw [if_neg held, if_neg held]

theorem detach_canonical_unique {g : Group} {id : ResultId} (member : id ∈ g.memberIds)
    (last : g.detach? id = none) : g.members = [g.canonical] ∧ id = g.canonical.id := by
  have alone := Group.memberIds_of_last member last
  have others : g.others = [] := by
    have := congrArg List.length alone
    rw [← Group.sourceCount_eq_length, Group.sourceCount, List.length_singleton] at this
    exact List.length_eq_zero_iff.mp (Nat.succ_inj.mp this)
  have members : g.members = [g.canonical] := by rw [Group.members, others]
  rw [Group.memberIds, members] at alone
  exact ⟨members, (List.cons.inj alone).1.symm⟩

section Removal

variable {id : ResultId} {g g' : Group} {r : SearchResult}

/-- A member leaves that its group is not named after. -/
theorem remove_of_other (hid : ix.groupOf? id = some g.id) (hg : ix.group? g.id = some g)
    (hr : g.result? id = some r) (hd : g.detach? id = some g') (other : g.canonical.id ≠ id) :
    ix.remove id =
      ({ ix.putGroup g' with membership := ix.membership.erase id }, some ⟨r, g.id, false⟩) := by
  simp only [remove, hid, hg, hr, hd, if_neg other]
  rfl

/-- The canonical member leaves and another one takes its place. -/
theorem remove_of_canonical (hid : ix.groupOf? g.canonical.id = some g.id)
    (hg : ix.group? g.id = some g) (hr : g.result? g.canonical.id = some r)
    (hd : g.detach? g.canonical.id = some g') :
    ix.remove g.canonical.id =
      ({ (ix.unregister g.id (fingerprintOf g)).register g.id (fingerprintOf g') with
          groups := (ix.putGroup g').groups
          membership := ix.membership.erase g.canonical.id },
        some ⟨r, g.id, false⟩) := by
  have off := unregister_frame ix (ix.putGroup g').groups (ix.membership.erase g.canonical.id) g.id
    (fingerprintOf g)
  have on := register_frame (ix.unregister g.id (fingerprintOf g)) (ix.putGroup g').groups
    (ix.membership.erase g.canonical.id) g.id (fingerprintOf g')
  simp only [remove, hid, hg, hr, hd, if_true]
  rw [← on, ← off]
  rfl

/-- The only member leaves, and the group goes. -/
theorem remove_of_only (hid : ix.groupOf? id = some g.id) (hg : ix.group? g.id = some g)
    (hr : g.result? id = some r) (hmem : id ∈ g.memberIds) (hd : g.detach? id = none) :
    ix.remove id =
      ({ ix.unregister g.id (fingerprintOf g) with
          groups := (ix.dropGroup g.id).groups
          membership := g.members.foldl (fun m member => m.erase member.id) ix.membership },
        some ⟨r, g.id, true⟩) := by
  obtain ⟨members, rfl⟩ := detach_canonical_unique hmem hd
  have off := unregister_frame ix ix.groups (ix.membership.erase g.canonical.id) g.id
    (fingerprintOf g)
  rw [remove_of_last hid hg hr hd, members, List.foldl_cons, List.foldl_nil, off]
  rfl

end Removal

theorem remove_effect (h : ix.Coherent) (id : ResultId) : ix.Effect [] (ix.remove id).1 := by
  cases hid : ix.groupOf? id with
  | none =>
      rw [remove_of_unknown hid]
      exact .kept ix.grouping
  | some gid =>
      -- Coherence rules out that the map sends the result to a group that does not list it.
      obtain ⟨g, r, rfl, hg, hmem, hr⟩ := h.known_result hid
      cases hd : g.detach? id with
      | none =>
          rw [remove_of_only hid hg hr hmem hd]
          exact .dropped g hg
      | some g' =>
          by_cases hc : g.canonical.id = id
          · subst hc
            rw [remove_of_canonical hid hg hr hd]
            exact .succeeded g g' hg hd
          · rw [remove_of_other hid hg hr hd hc]
            exact .left id g g' hg hmem hc hd

/-- A whole group is taken off the lookups, and the map forgets its members. -/
theorem removeGroup_of_live {g : Group} (hg : ix.group? g.id = some g) :
    ix.removeGroup g.id =
      ({ ix.unregister g.id (fingerprintOf g) with
          groups := (ix.dropGroup g.id).groups
          membership := g.members.foldl (fun m member => m.erase member.id) ix.membership },
        some g) := by
  have off := unregister_frame ix (ix.dropGroup g.id).groups ix.membership g.id (fingerprintOf g)
  rw [removeGroup_of_known hg, dropGroup]
  rw [dropGroup] at off
  rw [off]

theorem removeGroup_effect (ix : GroupIndex) (id : GroupId) :
    ix.Effect [] (ix.removeGroup id).1 := by
  cases hg : ix.group? id with
  | none =>
      rw [removeGroup_of_unknown hg]
      exact .kept ix.grouping
  | some g =>
      obtain rfl := id_of_group? hg
      rw [removeGroup_of_live hg]
      exact .dropped g hg

theorem perform_effect (h : ix.Coherent) (c : IndexCommand) :
    ix.Effect (ix.acceptedBy c) (ix.perform c) := by
  cases c with
  | insert r => exact insert_effect ix r
  | remove id => exact remove_effect h id
  | removeGroup id => exact removeGroup_effect ix id
  | mark id junk =>
      simp only [acceptedBy, perform]
      cases hg : ix.group? id with
      | none => exact .kept ix.grouping
      | some g =>
          obtain rfl := id_of_group? hg
          exact .marked g junk hg
  | setGrouping grouping => exact .kept grouping
  | clear => exact .cleared

/-! ## Runs -/

/-- What every command keeps holds after every run. -/
theorem after_keeps {P : GroupIndex → Prop} (start : P ix) (step : ∀ ix c, P ix → P (ix.perform c))
    (commands : List IndexCommand) : P (ix.after commands) := by
  induction commands generalizing ix with
  | nil => exact start
  | cons c rest ih => exact ih (step ix c start)

/-- A run that is one command longer ends with that command. -/
theorem after_take_add_one (ix : GroupIndex) {commands : List IndexCommand} {n : Nat}
    {c : IndexCommand} (hc : commands[n]? = some c) :
    ix.after (commands.take (n + 1)) = (ix.after (commands.take n)).perform c := by
  rw [List.take_add_one, hc, after, List.foldl_append]
  rfl

theorem Coherent.perform (h : ix.Coherent) (c : IndexCommand) : (ix.perform c).Coherent := by
  cases c with
  | insert r =>
      cases valid : r.isValid with
      | false =>
          obtain ⟨refusal, hinsert⟩ := insert_of_invalid ix valid
          simp only [GroupIndex.perform, hinsert]
          exact h
      | true =>
          simp only [GroupIndex.perform, insert_of_valid valid]
          exact h.place r
  | remove id => exact h.remove id
  | removeGroup id => exact h.removeGroup id
  | mark id junk =>
      simp only [GroupIndex.perform]
      cases hg : ix.group? id with
      | none => exact h
      | some g =>
          obtain rfl := id_of_group? hg
          exact h.mark hg junk
  | setGrouping grouping => exact h.congr rfl rfl rfl rfl
  | clear => exact .clear

theorem after_coherent (grouping : Bool) (commands : List IndexCommand) :
    ((empty grouping).after commands).Coherent :=
  after_keeps (coherent_empty grouping) (fun _ c h => h.perform c) commands

end GroupIndex

end PeerSearch
