import PeerSearch.Proofs.Table.Names
import PeerSearch.Proofs.Table.Visibility

/-!
# PeerSearch.Proofs.Table.Verdict -- the user's verdict is permanent

A group keeps the verdict of the user while results join and leave it, the one that it is named
after included, though all else that it shows is summed up again. Its name is not handed out to
another group, so a verdict stays with a name until the user gives another one, and classifiers ask
for it before they look at anything else.
-/

namespace PeerSearch

/-- A verdict decides whatever the threshold is and whatever is in the group. -/
theorem JunkFilter.isJunk_of_verdict (junk : JunkFilter) {g : Group} {verdict : Bool}
    (given : g.userJunk = some verdict) : junk.isJunk g = verdict := by
  rw [isJunk, given]

/-! ## Verdicts in an index -/

namespace GroupIndex

variable {ix ix' : GroupIndex} {id : GroupId}

/-- The group of that name has the verdict that it had, if it is still there. -/
def KeepsVerdict (ix ix' : GroupIndex) (id : GroupId) : Prop :=
  ∀ g', ix'.group? id = some g' → ∃ g, ix.group? id = some g ∧ g.userJunk = g'.userJunk

theorem keepsVerdict_refl (ix : GroupIndex) (id : GroupId) : ix.KeepsVerdict ix id :=
  fun g live => ⟨g, live, rfl⟩

theorem keepsVerdict_of_put {before g : Group} (live : ix.group? g.id = some before)
    (same : g.userJunk = before.userJunk) (groups : ix'.groups = (ix.putGroup g).groups) :
    ix.KeepsVerdict ix' id := by
  intro g' live'
  rw [group?_of_put live groups] at live'
  split at live'
  · next here =>
    obtain rfl := Option.some.inj live'
    exact ⟨before, here ▸ live, same.symm⟩
  · exact ⟨g', live', rfl⟩

theorem keepsVerdict_of_drop {dropped : GroupId}
    (groups : ix'.groups = (ix.dropGroup dropped).groups) : ix.KeepsVerdict ix' id := by
  intro g' live'
  rw [group?_of_drop groups] at live'
  split at live'
  · cases live'
  · exact ⟨g', live', rfl⟩

/-- A result that joins a group leaves its verdict alone, and one that starts a group gives it a
name that is new. -/
theorem keepsVerdict_place (ix : GroupIndex) (r : SearchResult) (old : id.val < ix.nextGroup) :
    ix.KeepsVerdict (ix.place r).1 id := by
  cases home : ix.home? (.ofResult r) with
  | some g =>
      have groups : (ix.place r).1.groups = (ix.putGroup (g.push (ix.nextMember r))).groups := by
        rw [place_of_home home]
      have live : ix.group? g.id = some g := home?_spec home
      exact keepsVerdict_of_put (g := g.push (ix.nextMember r)) live rfl groups
  | none =>
      have groups : (ix.place r).1.groups =
          ix.groups ++ [.single ⟨ix.nextGroup⟩ (ix.nextMember r)] := by
        rw [place_of_homeless home]
      have other : (⟨ix.nextGroup⟩ : GroupId) ≠ id := by
        rintro rfl
        exact lt_irrefl _ old
      intro g' live'
      rw [group?_append groups, Group.id_single, if_neg other, Option.or_none] at live'
      exact ⟨g', live', rfl⟩

theorem Coherent.keepsVerdict_remove (h : ix.Coherent) (r : ResultId) (id : GroupId) :
    ix.KeepsVerdict (ix.remove r).1 id := by
  cases hr : ix.groupOf? r with
  | none =>
      rw [remove_of_unknown hr]
      exact ix.keepsVerdict_refl id
  | some gid =>
      obtain ⟨g, result, rfl, live, member, hresult⟩ := h.known_result hr
      cases hd : g.detach? r with
      | none =>
          have groups : (ix.remove r).1.groups = (ix.dropGroup g.id).groups := by
            rw [remove_of_only hr live hresult member hd]
          exact keepsVerdict_of_drop groups
      | some rest =>
          obtain ⟨name, same, -⟩ := Group.detach?_spec hd
          obtain ⟨ix', hremove, groups, -⟩ := GroupIndex.remove_of_shared hr live hresult hd
          rw [hremove]
          exact keepsVerdict_of_put (name.symm ▸ live) same groups

theorem keepsVerdict_removeGroup (ix : GroupIndex) (gone id : GroupId) :
    ix.KeepsVerdict (ix.removeGroup gone).1 id := by
  cases hg : ix.group? gone with
  | none =>
      rw [removeGroup_of_unknown hg]
      exact ix.keepsVerdict_refl id
  | some g =>
      obtain rfl := id_of_group? hg
      rw [removeGroup_of_live hg]
      exact keepsVerdict_of_drop rfl

/-- What is found after a verdict on a group. -/
theorem group?_mark {g : Group} (live : ix.group? g.id = some g) (junk : Bool) (id : GroupId) :
    (ix.perform (.mark g.id junk)).group? id =
      if g.id = id then some (g.mark junk) else ix.group? id := by
  rw [GroupIndex.perform, live]
  exact group?_of_put (g := g.mark junk) live rfl id

/-- A verdict on one group is none on another. -/
theorem keepsVerdict_mark (ix : GroupIndex) {marked : GroupId} (other : marked ≠ id) (junk : Bool) :
    ix.KeepsVerdict (ix.perform (.mark marked junk)) id := by
  cases hg : ix.group? marked with
  | none =>
      rw [GroupIndex.perform, hg]
      exact ix.keepsVerdict_refl id
  | some g =>
      obtain rfl := id_of_group? hg
      intro g' live'
      rw [group?_mark hg, if_neg other] at live'
      exact ⟨g', live', rfl⟩

/-- No command but a verdict on the group itself changes the verdict of a group from before. -/
theorem Coherent.keepsVerdict (h : ix.Coherent) (old : id.val < ix.nextGroup) {c : IndexCommand}
    (other : ∀ junk, c ≠ .mark id junk) : ix.KeepsVerdict (ix.perform c) id := by
  cases c with
  | insert r =>
      rcases ix.perform_insert r with ⟨-, same⟩ | placed
      · rw [same]
        exact ix.keepsVerdict_refl id
      · rw [placed]
        exact ix.keepsVerdict_place r old
  | remove r => exact h.keepsVerdict_remove r id
  | removeGroup gone => exact ix.keepsVerdict_removeGroup gone id
  | mark marked junk =>
      refine ix.keepsVerdict_mark ?_ junk
      rintro rfl
      exact other junk rfl
  | setGrouping grouping => exact ix.keepsVerdict_refl id
  | clear => exact fun g' live' => absurd live' (Option.some_ne_none g').symm

end GroupIndex

/-! ## Verdicts in a table -/

namespace Table

variable {t : Table} {id : GroupId} {v : Bool}

/-- The group of that name has the verdict, if it is still there. No other will get the name. -/
structure Verdict (t : Table) (id : GroupId) (v : Bool) : Prop where
  old : id.val < t.index.nextGroup
  given : ∀ g, t.group? id = some g → g.userJunk = some v

/-- Commands that give no verdict on the group give none to the index. -/
theorem indexCommand?_ne_mark {c : TableCommand} (other : ∀ junk, c ≠ .markJunk id junk)
    {command : IndexCommand} (hc : t.indexCommand? c = some command) (junk : Bool) :
    command ≠ .mark id junk := by
  rintro rfl
  cases c with
  | removeRow row =>
      obtain ⟨k, -, hk⟩ := Option.map_eq_some_iff.mp hc
      cases hk
  | markJunk k b =>
      cases hc
      exact other junk rfl
  | _ => cases hc

theorem Balanced.verdict_markJunk (h : t.Balanced) (marked : (t.markJunk id v).answer = true) :
    (t.perform (.markJunk id v)).table.Verdict id v := by
  cases live : t.index.group? id with
  | none =>
      rw [markJunk_of_unknown live] at marked
      cases marked
  | some g =>
      obtain rfl := GroupIndex.id_of_group? live
      have named := h.coherent.below g.id (GroupIndex.mem_ids_of_group? live)
      refine ⟨named.trans_le (groupNaming.grows t h _), fun g' live' => ?_⟩
      rw [group?, perform_index h.toPlaced] at live'
      have found := (GroupIndex.group?_mark live v g.id).symm.trans live'
      rw [if_pos rfl] at found
      exact Option.some.inj found ▸ rfl

theorem Verdict.perform (verdict : t.Verdict id v) (h : t.Balanced) {c : TableCommand}
    (other : ∀ junk, c ≠ .markJunk id junk) : (t.perform c).table.Verdict id v := by
  refine ⟨verdict.old.trans_le (groupNaming.grows t h c), fun g' live' => ?_⟩
  rw [group?, perform_index h.toPlaced] at live'
  cases hc : t.indexCommand? c with
  | none =>
      rw [hc] at live'
      exact verdict.given g' live'
  | some command =>
      rw [hc] at live'
      obtain ⟨g, live, same⟩ := h.coherent.keepsVerdict verdict.old
        (indexCommand?_ne_mark other hc) g' live'
      exact same ▸ verdict.given g live

theorem Verdict.after {commands : List TableCommand} (verdict : t.Verdict id v) (h : t.Balanced)
    (other : ∀ junk, .markJunk id junk ∉ commands) : (t.after commands).Verdict id v := by
  refine (after_keeps (P := fun t => t.Balanced ∧ t.Verdict id v) ⟨h, verdict⟩ ?_).2
  rintro t ⟨h, verdict⟩ c hc
  refine ⟨h.perform c, verdict.perform h fun junk same => ?_⟩
  exact other junk (same ▸ hc)

/-- After a verdict of the user that was heeded, the group is there until a command takes it. As long
as no other verdict is given on it, it has this one, whatever else has been done, and every
classifier takes it for junk exactly if the verdict says so. Unless the filter has changed its mind,
the group is in a row exactly when the filter lets it through and it is not junk by the verdict
under a policy that hides junk. -/
theorem verdict_is_permanent (options : Options) (registry : Registry)
    (before later : List TableCommand)
    (marked : (((new options registry).after before).markJunk id v).answer = true)
    (last : ∀ junk, .markJunk id junk ∉ later) :
    let commands := before ++ .markJunk id v :: later
    let t := (new options registry).after commands
    let wishes := commands.foldl Wishes.heed (.ofOptions options)
    ((t.group? id).isSome ↔ ¬ (new options registry).LosesGroup commands id) ∧
      ∀ g, t.group? id = some g →
        g.userJunk = some v ∧ (∀ junk : JunkFilter, junk.isJunk g = v) ∧
          ((∀ filter, .driftFilter filter ∉ commands) →
            (id ∈ t.rows ↔
              wishes.filter g = true ∧ ¬ (v = true ∧ wishes.junkPolicy = .hide))) := by
  intro commands t wishes
  have start : ((new options registry).after before).Balanced :=
    after_keeps (new_balanced options registry) fun _ h c _ => h.perform c
  have run : t = (((new options registry).after before).perform (.markJunk id v)).table.after
      later :=
    List.foldl_append
  have verdict : t.Verdict id v :=
    run ▸ (start.verdict_markJunk marked).after (start.perform _) last
  have gone : ¬ (t.group? id).isSome ↔ (new options registry).LosesGroup commands id :=
    (groupNaming.not_live_iff (new_balanced options registry) (Nat.zero_le id.val)).trans
      (or_iff_right (not_le.mpr verdict.old))
  refine ⟨(not_iff_comm.mp gone).symm, fun g live => ?_⟩
  have junk (junk : JunkFilter) : junk.isJunk g = v :=
    junk.isJunk_of_verdict (verdict.given g live)
  refine ⟨verdict.given g live, junk, fun told => ?_⟩
  have h : t.Current wishes := (new_current options registry).after told
  rw [h.judged id g live, h.heeds.shows_iff, Wishes.Allow, junk, and_comm (a := v = true)]

/-- A sponsored group without a spam rating that the user has called junk stays hidden under the
highest threshold, after another result has joined it and the first has left. -/
theorem verdict_is_permanent_for_sponsored_group :
    let song : SearchResult := { fileName := "a.mp3", size := 1, kind := .promoted }
    let later : List TableCommand := [.setSpamThreshold .one, .add song, .removeResult ⟨0⟩]
    let t := (new {} .empty).after ([.add song] ++ .markJunk ⟨0⟩ true :: later)
    ∃ g, t.group? ⟨0⟩ = some g ∧ g.isPromoted = true ∧ g.memberIds = [⟨1⟩] ∧
      (∀ junk : JunkFilter, junk.isJunk g = true) ∧ ⟨0⟩ ∉ t.rows := by
  intro song later t
  have there : (t.group? ⟨0⟩).any (fun g => g.isPromoted ∧ g.memberIds = [⟨1⟩]) = true := by
    decide +kernel
  obtain ⟨g, live, said⟩ := (Option.any_eq_true _ _).mp there
  obtain ⟨promoted, members⟩ := of_decide_eq_true said
  obtain ⟨-, junk, shown⟩ := (verdict_is_permanent {} .empty [.add song] later
    (by decide +kernel) (by simp [later])).2 g live
  refine ⟨g, live, promoted, members, junk, fun row => ?_⟩
  exact ((shown (by simp [later])).mp row).2 ⟨rfl, rfl⟩

end Table

end PeerSearch
