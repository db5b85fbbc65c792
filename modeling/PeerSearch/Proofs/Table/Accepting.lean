import PeerSearch.Proofs.GroupIndex.Accepted
import PeerSearch.Proofs.GroupIndex.Names
import PeerSearch.Proofs.Table.Sound

/-!
# PeerSearch.Proofs.Table.Accepting -- a result is accepted or put aside, and never lost

A table checks a result before its index does, and for the same reasons, so that nothing is refused
by the index alone. A result that there is a reason to refuse is put aside and leaves everything
else as it was; any other is placed, counted and held by the group that is answered. So in the long
run every result that was added has been accepted, handed out as refused, or waits to be.
-/

namespace PeerSearch

/-! ## The index -/

namespace GroupIndex

variable {ix : GroupIndex} {r : SearchResult} {refusal : SearchResult.Refusal}

/-- The index refuses what there is a reason to refuse, and names the reason. -/
theorem insert_eq_error_iff : ix.insert r = .error refusal ↔ r.refusal? = some refusal := by
  unfold insert
  cases r.refusal? with
  | none => exact iff_of_false nofun nofun
  | some reason => rw [Except.error.injEq, Option.some_inj]

/-- A refused result leaves the index as it was. -/
theorem perform_of_refused (refused : ix.insert r = .error refusal) :
    ix.perform (.insert r) = ix := by
  simp only [perform, refused]

/-- A result that is placed is in the group that is answered, under the name that is answered. -/
theorem Coherent.place_holds (h : ix.Coherent) (r : SearchResult) :
    (ix.place r).1.groupOf? (ix.place r).2.result = some (ix.place r).2.group ∧
      ∃ g, (ix.place r).1.group? (ix.place r).2.group = some g ∧
        g.result? (ix.place r).2.result = some r := by
  rw [(ix.place_handsOut r).result]
  constructor
  · rw [groupOf?, membership_place]
    exact (SortedMap.find?_insert _ _ _ _).trans (if_pos rfl)
  · cases home : ix.home? (.ofResult r) with
    | some g =>
        set g' := g.push (ix.nextMember r) with hg'
        have live : ix.group? g'.id = some g := home?_spec home
        have groups : (ix.place r).1.groups = (ix.putGroup g').groups := by
          rw [GroupIndex.place_of_home home]
        have group : (ix.place r).2.group = g'.id := by rw [GroupIndex.place_of_home home, hg']; rfl
        rw [group]
        refine ⟨g', (group?_of_put live groups g'.id).trans (if_pos rfl), ?_⟩
        exact Group.result?_push (m := ix.nextMember r) (h.unused_result live)
    | none =>
        set g' := Group.single ⟨ix.nextGroup⟩ (ix.nextMember r) with hg'
        have groups : (ix.place r).1.groups = ix.groups ++ [g'] := by
          rw [GroupIndex.place_of_homeless home]
        have group : (ix.place r).2.group = g'.id := by
          rw [GroupIndex.place_of_homeless home, hg', Group.id_single]
        rw [group]
        refine ⟨g', (group?_of_append h.unused_group groups g'.id).trans (if_pos rfl), ?_⟩
        exact Group.result?_single ⟨ix.nextGroup⟩ (ix.nextMember r)

end GroupIndex

/-! ## One result -/

namespace Table

variable {t : Table} {r : SearchResult}

/-- What has become of a table in which a result is placed. -/
structure Accepts (t : Table) (r : SearchResult) (p : Placement) (t' : Table) : Prop where
  rejected : t'.rejected = t.rejected
  totalSources : t'.totalSources = t.totalSources + 1
  resultCount : t'.index.resultCount = t.index.resultCount + 1
  groupOf : t'.index.groupOf? p.result = some p.group
  /-- The group has the result under the name that is answered. -/
  holds : ∃ g, t'.group? p.group = some g ∧ g.result? p.result = some r

/-- A valid result is placed, and the index has no objection of its own. -/
theorem Balanced.add_accepts (h : t.Balanced) (valid : r.refusal? = none) :
    ∃ index p, t.index.insert r = .ok (index, p) ∧ (t.add r).answer = some p ∧
      t.Accepts r p (t.add r).change.table := by
  have inserted := t.index.insert_of_valid (GroupIndex.refusal?_eq_none_iff.mp valid)
  have index := add_index h.toPlaced valid
  have unrefused : r.refused? = none := by rw [SearchResult.refused?, valid, Option.map_none]
  have rejected := add_rejected h.toPlaced r
  have total := h.add_total r
  obtain ⟨groupOf, holds⟩ := h.coherent.place_holds r
  rw [unrefused] at rejected total
  refine ⟨(t.index.place r).1, (t.index.place r).2, inserted, ?_, ?_⟩
  · rw [add_answer, inserted]
    rfl
  · constructor
    · exact rejected.trans (List.append_nil _)
    · exact total
    · rw [index, h.coherent.resultCount_place]
    · rw [index, groupOf]
    · rw [group?, index]
      exact holds

end Table

/-! ## Runs -/

/-- The result that a command adds. -/
def TableCommand.added? : TableCommand → Option SearchResult
  | .add r => some r
  | _ => none

/-- The results that some commands add, the earliest first. -/
def addedResults (commands : List TableCommand) : List SearchResult :=
  commands.flatMap (·.added?.toList)

namespace Table

variable {t : Table}

/-- The refused results that a command hands out. -/
def handedBy (t : Table) : TableCommand → List Rejected
  | .takeRejected => t.takeRejected.2
  | _ => []

/-- The refused results that some commands hand out, the earliest first. -/
def handedOut (t : Table) : List TableCommand → List Rejected
  | [] => []
  | c :: rest => t.handedBy c ++ (t.perform c).table.handedOut rest

/-- What a command hands out and what then waits is what waited and what the command adds. -/
theorem Placed.handedBy_append (h : t.Placed) (c : TableCommand) :
    t.handedBy c ++ (t.perform c).table.rejected =
      t.rejected ++ c.added?.toList.filterMap SearchResult.refused? := by
  rw [perform_rejected h]
  cases c with
  | add r =>
      show t.rejected ++ r.refused?.toList = t.rejected ++ [r].filterMap SearchResult.refused?
      rw [List.filterMap_cons]
      cases r.refused? <;> rfl
  | takeRejected => rfl
  | _ => exact (List.append_nil _).symm

/-- An added result is placed or refused. -/
theorem placedBy_or_refused (t : Table) (c : TableCommand) :
    (t.placedBy c).reduceOption.length +
        (c.added?.toList.filterMap SearchResult.refused?).length = c.added?.toList.length := by
  cases c with
  | add r =>
      rw [placedBy, add_answer, GroupIndex.insert, TableCommand.added?, Option.toList_some,
        List.filterMap_cons, SearchResult.refused?]
      cases r.refusal? <;> rfl
  | _ => rfl

theorem Balanced.handedOut_append (h : t.Balanced) (commands : List TableCommand) :
    t.handedOut commands ++ (t.after commands).rejected =
      t.rejected ++ (addedResults commands).filterMap SearchResult.refused? := by
  induction commands generalizing t with
  | nil => exact (List.append_nil _).symm
  | cons c rest ih =>
      rw [addedResults, List.flatMap_cons, List.filterMap_append, ← List.append_assoc,
        ← h.handedBy_append c, List.append_assoc, ← addedResults, ← ih (h.perform c),
        ← List.append_assoc]
      rfl

theorem placements_or_refused (t : Table) (commands : List TableCommand) :
    (t.placements commands).reduceOption.length +
        ((addedResults commands).filterMap SearchResult.refused?).length =
      (addedResults commands).length := by
  induction commands generalizing t with
  | nil => rfl
  | cons c rest ih =>
      have one := t.placedBy_or_refused c
      have others := ih (t.perform c).table
      rw [placements, List.reduceOption_append, addedResults, List.flatMap_cons,
        List.filterMap_append, List.length_append, List.length_append, List.length_append,
        ← addedResults]
      omega

/-- In every state, a result that there is a reason to refuse goes to the end of those put aside,
with that reason: nothing else changes, nobody is told, and no name is answered. An index refuses
just the same results and stays as it was. Any other result is accepted: it counts once, and the
group that is answered has it. In a run the results put aside are handed out or still wait, each
once and in their order, and together with the accepted ones they are as many as were added. -/
theorem adding_all_or_nothing (options : Options) (registry : Registry)
    (commands : List TableCommand) :
    let start := new options registry
    let t := start.after commands
    (∀ r refusal, r.refusal? = some refusal →
      t.add r = ⟨⟨{ t with rejected := t.rejected ++ [⟨r, refusal⟩] }, []⟩, none⟩) ∧
    (∀ r, r.refusal? = none → ∃ index p, t.index.insert r = .ok (index, p) ∧
      (t.add r).answer = some p ∧ t.Accepts r p (t.add r).change.table) ∧
    (∀ (ix : GroupIndex) r refusal, ix.insert r = .error refusal →
      r.refusal? = some refusal ∧ ix.perform (.insert r) = ix) ∧
    start.handedOut commands ++ t.rejected =
      (addedResults commands).filterMap SearchResult.refused? ∧
    (addedResults commands).length = (start.placements commands).reduceOption.length +
      (start.handedOut commands).length + t.rejected.length := by
  intro start t
  have h : t.Balanced := after_balanced options registry commands
  have refused : start.handedOut commands ++ t.rejected =
      (addedResults commands).filterMap SearchResult.refused? :=
    (new_balanced options registry).handedOut_append commands
  refine ⟨fun _ _ hr => add_of_refused hr, fun _ valid => h.add_accepts valid, ?_, refused, ?_⟩
  · intro ix r refusal hr
    exact ⟨GroupIndex.insert_eq_error_iff.mp hr, GroupIndex.perform_of_refused hr⟩
  · have total := start.placements_or_refused commands
    rw [← refused, List.length_append] at total
    omega

/-- Of four results two have a blank name. One of these has been handed out when the other comes. -/
theorem adding_all_or_nothing_of_blank_names :
    let named : SearchResult := { fileName := "a", size := 1 }
    let blank : SearchResult := { fileName := " ", size := 1 }
    let commands : List TableCommand :=
      [.add named, .add blank, .takeRejected, .add named, .add blank]
    let start := new {} .empty
    let t := start.after commands
    (start.placements commands).reduceOption.length = 2 ∧
      start.handedOut commands = [⟨blank, .emptyFileName⟩] ∧
      t.rejected = [⟨blank, .emptyFileName⟩] ∧
      t.add blank =
        ⟨⟨{ t with rejected := t.rejected ++ [⟨blank, .emptyFileName⟩] }, []⟩, none⟩ ∧
      ∃ p, (t.add named).answer = some p ∧ t.Accepts named p (t.add named).change.table := by
  intro named blank commands start t
  have laws := adding_all_or_nothing {} .empty commands
  obtain ⟨-, p, -, answer, accepts⟩ := laws.2.1 named (by decide +kernel)
  exact ⟨by decide +kernel, by decide +kernel, by decide +kernel,
    laws.1 blank .emptyFileName (by decide +kernel), p, answer, accepts⟩

end Table

end PeerSearch
