import PeerSearch.Proofs.GroupIndex.Names
import PeerSearch.Proofs.Runs
import PeerSearch.Proofs.Table.Apart

/-!
# PeerSearch.Proofs.Table.Names -- stale names are not heeded

Whoever shows a table keeps names of groups and results, and may come back with one after the group
or the result has gone. Nothing is named so again, not even after the table has been cleared, and a
name that is not in use stands nowhere: not in the rows, the hidden groups, the selection, the
facets or the membership of any result. So every operation that is asked for by such a name does
nothing, then and ever after.
-/

namespace PeerSearch

/-! ## Names that are handed out -/

/-- The name that is new with a placement, if the result has started a group. -/
def Placement.newGroup? (p : Placement) : Option GroupId :=
  if p.created then some p.group else none

namespace Table

variable {t : Table} {registry : Registry} {c : TableCommand} {id : GroupId} {r : ResultId}

/-- The names that some commands give to groups, the earliest first. -/
def namedGroups (t : Table) (commands : List TableCommand) : List GroupId :=
  (t.placements commands).filterMap (·.bind Placement.newGroup?)

/-- The names that some commands give to results, the earliest first. -/
def namedResults (t : Table) (commands : List TableCommand) : List ResultId :=
  (t.placements commands).filterMap (·.map Placement.result)

/-- Commands other than an addition make no member. -/
theorem acceptedBy_of_other (noAddition : ∀ r, c ≠ .add r) {command : IndexCommand}
    (hc : t.indexCommand? c = some command) : t.index.acceptedBy command = [] := by
  cases c with
  | add r => exact absurd rfl (noAddition r)
  | removeRow row =>
      obtain ⟨id, -, rfl⟩ := Option.map_eq_some_iff.mp hc
      rfl
  | removeResult | removeGroup | markJunk | setGrouping | clear =>
      obtain rfl := Option.some.inj hc
      rfl
  | _ => cases hc

/-- A command hands out no name, or those that the answer to an added result tells of. -/
theorem Placed.hands_out (h : t.Placed) (c : TableCommand) :
    ((∀ p ∈ t.placedBy c, p = none) ∧
        (t.perform c).table.index.nextGroup = t.index.nextGroup ∧
        (t.perform c).table.index.nextResult = t.index.nextResult) ∨
      ∃ p, t.placedBy c = [some p] ∧ t.index.HandsOut (t.perform c).table.index p := by
  by_cases addition : ∃ r, c = .add r
  · obtain ⟨r, rfl⟩ := addition
    rw [placedBy, add_answer]
    cases hr : r.refusal? with
    | some refusal =>
        have index : (t.perform (.add r)).table.index = t.index := by
          rw [Table.perform, add_of_refused hr]
          rfl
        rw [index, GroupIndex.insert, hr]
        exact .inl ⟨fun p hp => List.mem_singleton.mp hp, rfl, rfl⟩
    | none =>
        have index : (t.perform (.add r)).table.index = (t.index.place r).1 := add_index h hr
        rw [index, GroupIndex.insert_of_valid (GroupIndex.refusal?_eq_none_iff.mp hr)]
        exact .inr ⟨_, rfl, t.index.place_handsOut r⟩
  · have noAddition (r : SearchResult) : c ≠ .add r := fun here => addition ⟨r, here⟩
    have nothing : t.placedBy c = [] := by
      cases c with
      | add r => exact absurd rfl (noAddition r)
      | _ => rfl
    rw [nothing, perform_index h]
    refine .inl ⟨fun p hp => absurd hp List.not_mem_nil, ?_⟩
    cases hc : t.indexCommand? c with
    | none => exact ⟨rfl, rfl⟩
    | some command =>
        have effect := GroupIndex.perform_effect h.coherent command
        rw [acceptedBy_of_other noAddition hc] at effect
        exact effect.counters

/-- Names that each command hands out from `next` on are those up to where `next` is in the end. -/
theorem Balanced.counts_up {ι : Type} {name : Option Placement → Option ι} {number : ι → Nat}
    {next : Table → Nat}
    (step : ∀ t : Table, t.Placed → ∀ c, ∃ k,
      ((t.placedBy c).filterMap name).map number = List.range' (next t) k ∧
        next (t.perform c).table = next t + k)
    (h : t.Balanced) (commands : List TableCommand) : ∃ k,
      ((t.placements commands).filterMap name).map number = List.range' (next t) k ∧
        next (t.after commands) = next t + k := by
  induction commands generalizing t with
  | nil => exact ⟨0, rfl, rfl⟩
  | cons c rest ih =>
      obtain ⟨k, first, here⟩ := step t h.toPlaced c
      obtain ⟨n, later, there⟩ := ih (h.perform c)
      refine ⟨k + n, ?_, ?_⟩
      · rw [placements, List.filterMap_append, List.map_append, first, later, here,
          List.range'_append_1]
      · exact there.trans (by rw [here, Nat.add_assoc])

theorem Placed.namedGroup (h : t.Placed) (c : TableCommand) : ∃ k,
    ((t.placedBy c).filterMap (·.bind Placement.newGroup?)).map GroupId.val =
        List.range' t.index.nextGroup k ∧
      (t.perform c).table.index.nextGroup = t.index.nextGroup + k := by
  rcases h.hands_out c with ⟨nowhere, same, -⟩ | ⟨p, placed, out⟩
  · refine ⟨0, ?_, same⟩
    rw [List.filterMap_eq_nil_iff.mpr fun p hp => by rw [nowhere p hp]; rfl]
    rfl
  · rw [placed, out.nextGroup]
    cases created : p.created with
    | true =>
        refine ⟨1, ?_, rfl⟩
        simp [Placement.newGroup?, created, out.group created]
    | false =>
        refine ⟨0, ?_, rfl⟩
        simp [Placement.newGroup?, created]

theorem Placed.namedResult (h : t.Placed) (c : TableCommand) : ∃ k,
    ((t.placedBy c).filterMap (·.map Placement.result)).map ResultId.val =
        List.range' t.index.nextResult k ∧
      (t.perform c).table.index.nextResult = t.index.nextResult + k := by
  rcases h.hands_out c with ⟨nowhere, -, same⟩ | ⟨p, placed, out⟩
  · refine ⟨0, ?_, same⟩
    rw [List.filterMap_eq_nil_iff.mpr fun p hp => by rw [nowhere p hp]; rfl]
    rfl
  · refine ⟨1, ?_, out.nextResult⟩
    rw [placed]
    simp [out.result]

/-- In a run from the start, all groups get names of their own, and the named ones are those below
the next. -/
theorem namedGroups_iff (options : Options) (registry : Registry) (commands : List TableCommand) :
    let start := new options registry
    (start.namedGroups commands).Nodup ∧
      ∀ id, id ∈ start.namedGroups commands ↔ id.val < (start.after commands).index.nextGroup := by
  intro start
  obtain ⟨k, counted, next⟩ := (new_balanced options registry).counts_up
    (fun t h c => h.namedGroup c) commands
  rw [next, show start.index.nextGroup = 0 from rfl, Nat.zero_add]
  exact mem_iff_of_counted (fun _ _ same => GroupId.eq_of_val same) counted

theorem namedResults_iff (options : Options) (registry : Registry)
    (commands : List TableCommand) :
    let start := new options registry
    (start.namedResults commands).Nodup ∧
      ∀ r, r ∈ start.namedResults commands ↔ r.val < (start.after commands).index.nextResult := by
  intro start
  obtain ⟨k, counted, next⟩ := (new_balanced options registry).counts_up
    (fun t h c => h.namedResult c) commands
  rw [next, show start.index.nextResult = 0 from rfl, Nat.zero_add]
  exact mem_iff_of_counted (fun _ _ same => congrArg ResultId.mk same) counted

/-! ## Names that are taken -/

/-- The group goes with the command: its only result leaves, or the group itself, by its name or by
its row, or everything. -/
def TakesGroup (t : Table) (id : GroupId) : TableCommand → Prop
  | .removeResult r => t.index.membersOf id = [r]
  | .removeGroup gone => gone = id
  | .removeRow row => t.rows[row]? = some id
  | .clear => True
  | _ => False

/-- The result goes with the command: it leaves itself, or its group, or everything. -/
def TakesResult (t : Table) (r : ResultId) : TableCommand → Prop
  | .removeResult gone => gone = r
  | .removeGroup id => t.index.groupOf? r = some id
  | .removeRow row => ∃ id, t.rows[row]? = some id ∧ t.index.groupOf? r = some id
  | .clear => True
  | _ => False

theorem takesGroup_iff :
    t.TakesGroup id c ↔
      ∃ command, t.indexCommand? c = some command ∧ t.index.TakesGroup id command := by
  cases c with
  | removeRow row => simp [TakesGroup, indexCommand?, GroupIndex.TakesGroup]
  | _ => simp [TakesGroup, indexCommand?, GroupIndex.TakesGroup]

theorem takesResult_iff :
    t.TakesResult r c ↔
      ∃ command, t.indexCommand? c = some command ∧ t.index.TakesResult r command := by
  cases c with
  | removeRow row => simp [TakesResult, indexCommand?, GroupIndex.TakesResult]
  | _ => simp [TakesResult, indexCommand?, GroupIndex.TakesResult]

/-- Some command of a run takes the group. -/
def LosesGroup (start : Table) (commands : List TableCommand) (id : GroupId) : Prop :=
  ∃ n c, commands[n]? = some c ∧ ((start.after (commands.take n)).group? id).isSome ∧
    (start.after (commands.take n)).TakesGroup id c

/-- Some command of a run takes the result. -/
def LosesResult (start : Table) (commands : List TableCommand) (r : ResultId) : Prop :=
  ∃ n c, commands[n]? = some c ∧ ((start.after (commands.take n)).index.groupOf? r).isSome ∧
    (start.after (commands.take n)).TakesResult r c

/-! ## Names in use -/

theorem Placed.isSome_group?_perform (h : t.Placed) (c : TableCommand) (id : GroupId) :
    ((t.perform c).table.group? id).isSome ↔ (t.group? id).isSome ∧ ¬ t.TakesGroup id c ∨
      t.index.nextGroup ≤ id.val ∧ id.val < (t.perform c).table.index.nextGroup := by
  rw [takesGroup_iff, group?, group?, GroupIndex.group?_isSome_iff, GroupIndex.group?_isSome_iff,
    perform_index h]
  cases t.indexCommand? c with
  | none => simp
  | some command => simpa using h.coherent.mem_ids_perform command id

theorem Placed.isSome_groupOf?_perform (h : t.Placed) (c : TableCommand) (r : ResultId) :
    ((t.perform c).table.index.groupOf? r).isSome ↔
      (t.index.groupOf? r).isSome ∧ ¬ t.TakesResult r c ∨
        t.index.nextResult ≤ r.val ∧ r.val < (t.perform c).table.index.nextResult := by
  rw [takesResult_iff, perform_index h]
  cases t.indexCommand? c with
  | none => simp
  | some command => simpa using h.coherent.isSome_groupOf?_perform command r

/-- How names of groups come into use and go out of it. -/
def groupNaming : Naming (fun (t : Table) c => (t.perform c).table) GroupId where
  inv := Balanced
  number := GroupId.val
  next t := t.index.nextGroup
  live t id := (t.group? id).isSome
  takes := TakesGroup
  keeps _ h c := h.perform c
  below t h id live := h.coherent.below id ((t.index.group?_isSome_iff id).mp live)
  grows _ h c := by
    obtain ⟨k, -, next⟩ := h.toPlaced.namedGroup c
    exact next ▸ Nat.le_add_right _ k
  step _ h c id := h.toPlaced.isSome_group?_perform c id

/-- How names of results come into use and go out of it. -/
def resultNaming : Naming (fun (t : Table) c => (t.perform c).table) ResultId where
  inv := Balanced
  number := ResultId.val
  next t := t.index.nextResult
  live t r := (t.index.groupOf? r).isSome
  takes := TakesResult
  keeps _ h c := h.perform c
  below t h r live := by
    obtain ⟨gid, hr⟩ := Option.isSome_iff_exists.mp live
    obtain ⟨g, hg, member⟩ := (h.coherent.membership r gid).mp hr
    exact h.coherent.membersBelow gid g hg r member
  grows _ h c := by
    obtain ⟨k, -, next⟩ := h.toPlaced.namedResult c
    exact next ▸ Nat.le_add_right _ k
  step _ h c r := h.toPlaced.isSome_groupOf?_perform c r

/-! ## What is done with a name that is not in use -/

/-- The table knows no group of that name, and whatever it is asked to do with it does nothing. -/
structure IgnoresGroup (t : Table) (id : GroupId) : Prop where
  group : t.group? id = none
  row : t.rowOf? id = none
  hidden : t.isHidden id = false
  selected : t.isSelected id = false
  facets : t.facets.contains id = false
  members : ∀ r, t.index.groupOf? r ≠ some id
  removeGroup : t.removeGroup id = t.ignored
  markJunk : ∀ junk, t.markJunk id junk = t.ignored
  select : t.select id = (t, false)
  deselect : t.deselect id = (t, false)

/-- The table knows no result of that name, and removing it does nothing. -/
structure IgnoresResult (t : Table) (r : ResultId) : Prop where
  groupOf : t.index.groupOf? r = none
  members : ∀ g ∈ t.index.groups, r ∉ g.memberIds
  removeResult : t.removeResult r = t.ignored

theorem Sound.ignoresGroup_iff (h : t.Sound registry) :
    t.IgnoresGroup id ↔ ¬ (t.group? id).isSome := by
  rw [Option.not_isSome_iff_eq_none]
  refine ⟨IgnoresGroup.group, fun gone => ?_⟩
  have nowhere := h.nowhere gone
  have row : t.rowOf? id = none := by
    refine List.findIdx?_eq_none_iff.mpr fun k hk => beq_eq_false_iff_ne.mpr ?_
    rintro rfl
    exact nowhere.1 hk
  have selected : t.isSelected id = false :=
    Bool.eq_false_iff.mpr fun selected => nowhere.1 (h.visible id selected)
  have unselected : t.selection.erase id = t.selection := (h.apartFrom_view gone).2.2
  refine ⟨gone, row, ?_, selected, ?_, ?_, removeGroup_of_unknown h.toPlaced gone,
    markJunk_of_unknown gone, ?_, ?_⟩
  · rw [isHidden, List.contains_eq_mem, decide_eq_false_iff_not]
    exact nowhere.2
  · rw [FacetModel.contains, SortedMap.contains_eq_isSome, h.facets_unrecorded gone]
    rfl
  · intro r hr
    obtain ⟨g, live, -⟩ := (h.coherent.membership r id).mp hr
    cases gone.symm.trans live
  · rw [select, row]
  · rw [deselect, unselected, selected]

theorem Sound.ignoresResult_iff (h : t.Sound registry) :
    t.IgnoresResult r ↔ ¬ (t.index.groupOf? r).isSome := by
  rw [Option.not_isSome_iff_eq_none]
  refine ⟨IgnoresResult.groupOf, fun gone => ⟨gone, ?_, removeResult_of_unknown gone⟩⟩
  intro g hg member
  have here := (h.coherent.membership r g.id).mpr ⟨g, h.coherent.group?_of_mem hg, member⟩
  cases gone.symm.trans here

/-- No name of a group or of a result is given twice in a run, clearing or not. At its end the table
ignores exactly those names that it has not given yet and those whose group or result some command
of the run has taken; and the latter it ignores after any further commands. -/
theorem stale_names_are_ignored (options : Options) (registry : Registry)
    (commands : List TableCommand) :
    let start := new options registry
    let t := start.after commands
    (start.namedGroups commands).Nodup ∧ (start.namedResults commands).Nodup ∧
      (∀ id, t.IgnoresGroup id ↔
        id ∉ start.namedGroups commands ∨ start.LosesGroup commands id) ∧
      (∀ r, t.IgnoresResult r ↔
        r ∉ start.namedResults commands ∨ start.LosesResult commands r) ∧
      ∀ later,
        (∀ id, start.LosesGroup commands id → (t.after later).IgnoresGroup id) ∧
          ∀ r, start.LosesResult commands r → (t.after later).IgnoresResult r := by
  intro start t
  have balanced : start.Balanced := new_balanced options registry
  have here : t.Sound registry := after_sound options registry commands
  have sound (later : List TableCommand) : (t.after later).Sound registry :=
    after_keeps (P := fun t => t.Sound registry) here fun _ h c _ => h.perform c
  obtain ⟨groupsOnce, namedGroup⟩ := namedGroups_iff options registry commands
  obtain ⟨resultsOnce, namedResult⟩ := namedResults_iff options registry commands
  refine ⟨groupsOnce, resultsOnce, fun id => ?_, fun r => ?_, fun later => ⟨fun id lost => ?_,
    fun r lost => ?_⟩⟩
  · rw [here.ignoresGroup_iff, namedGroup, not_lt]
    exact groupNaming.not_live_iff balanced (Nat.zero_le id.val)
  · rw [here.ignoresResult_iff, namedResult, not_lt]
    exact resultNaming.not_live_iff balanced (Nat.zero_le r.val)
  · rw [(sound later).ignoresGroup_iff]
    have lost : groupNaming.Loses start commands id := lost
    exact ((lost.spent balanced).run here.toBalanced later).1
  · rw [(sound later).ignoresResult_iff]
    have lost : resultNaming.Loses start commands r := lost
    exact ((lost.spent balanced).run here.toBalanced later).1

/-- A group loses its two results one by one; the same file comes again and gets another group under
another name. -/
theorem stale_names_are_ignored_of_returning_file :
    let song : SearchResult := { fileName := "a.mp3", size := 1 }
    let commands : List TableCommand :=
      [.add song, .add song, .removeResult ⟨0⟩, .removeResult ⟨1⟩, .add song]
    let t := (new {} .empty).after commands
    (new {} .empty).namedGroups commands = [⟨0⟩, ⟨1⟩] ∧
      (new {} .empty).namedResults commands = [⟨0⟩, ⟨1⟩, ⟨2⟩] ∧
      t.rows = [⟨1⟩] ∧ t.IgnoresGroup ⟨0⟩ ∧ (t.after [.clear, .add song]).IgnoresGroup ⟨0⟩ := by
  intro song commands t
  obtain ⟨-, -, groups, -, later⟩ := stale_names_are_ignored {} .empty commands
  have lost : (new {} .empty).LosesGroup commands ⟨0⟩ := by
    refine ⟨3, .removeResult ⟨1⟩, rfl, by decide +kernel, ?_⟩
    show ((new {} .empty).after (commands.take 3)).index.membersOf ⟨0⟩ = [⟨1⟩]
    decide +kernel
  exact ⟨by decide +kernel, by decide +kernel, by decide +kernel, (groups ⟨0⟩).mpr (.inr lost),
    (later [.clear, .add song]).1 ⟨0⟩ lost⟩

end Table

end PeerSearch
