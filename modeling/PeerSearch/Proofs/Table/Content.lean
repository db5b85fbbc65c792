import PeerSearch.Proofs.Facet.Answers
import PeerSearch.Proofs.Table.Sound
import PeerSearch.Proofs.Table.Visibility

/-!
# PeerSearch.Proofs.Table.Content -- how a table is shown has no say in what it holds

The filter, the treatment of junk, the sort order and the selection decide which groups stand in
which rows and which are hidden. Where a result is placed and what becomes of a group is up to the
index, and nothing leads back to it from the rows, unless a group is removed by its row. So commands
about how a table is shown can be taken out of a run, put in or exchanged, and it holds the same
groups at the end. What choosers are told depends on the treatment of junk as it is then, and not on
what it has been, nor on any filter.
-/

namespace PeerSearch

/-! ## Commands about how a table is shown -/

namespace TableCommand

/-- Whether a command is about how a table is shown. -/
def isView : TableCommand → Bool
  | .setFilter _ | .filtersChanged | .driftFilter _ | .setJunkPolicy _ | .setSpamThreshold _
  | .setSort _ _ | .clearSort | .setRealTimeSort _ | .select _ | .deselect _ | .clearSelection =>
    true
  | _ => false

/-- The commands that are about what a table holds. -/
def aboutContent (commands : List TableCommand) : List TableCommand :=
  commands.filter fun c => !c.isView

theorem aboutContent_of_view {c : TableCommand} (view : c.isView = true)
    (rest : List TableCommand) : aboutContent (c :: rest) = aboutContent rest :=
  List.filter_cons_of_neg (by rw [view]; exact Bool.false_ne_true)

theorem aboutContent_of_content {c : TableCommand} (content : c.isView = false)
    (rest : List TableCommand) : aboutContent (c :: rest) = c :: aboutContent rest :=
  List.filter_cons_of_pos (by rw [content]; rfl)

end TableCommand

open TableCommand (aboutContent)

namespace Table

variable {t t' : Table} {registry : Registry} {commands commands' : List TableCommand}

/-! ## What a table holds -/

/-- The tables hold the same, however they show it. -/
structure SameContent (t t' : Table) : Prop where
  index : t'.index = t.index
  rejected : t'.rejected = t.rejected

theorem SameContent.refl (t : Table) : t.SameContent t :=
  ⟨rfl, rfl⟩

theorem SameContent.symm (h : t.SameContent t') : t'.SameContent t :=
  ⟨h.index.symm, h.rejected.symm⟩

theorem SameContent.trans {t'' : Table} (h : t.SameContent t') (h' : t'.SameContent t'') :
    t.SameContent t'' :=
  ⟨h'.index.trans h.index, h'.rejected.trans h.rejected⟩

/-! ### One command -/

theorem perform_view (placed : t.Placed) {c : TableCommand} (view : c.isView = true) :
    t.SameContent (t.perform c).table := by
  have index : t.indexCommand? c = none := by
    cases c <;> first | rfl | cases view
  have rejected : rejectedAfter t.rejected c = t.rejected := by
    cases c <;> first | rfl | cases view
  refine ⟨?_, (perform_rejected placed c).trans rejected⟩
  rw [perform_index placed, index]
  rfl

/-- A command that does not go by a row does the same to what both tables hold. -/
theorem SameContent.perform (h : t.SameContent t') (placed : t.Placed) (placed' : t'.Placed)
    {c : TableCommand} (noRow : ∀ row, c ≠ .removeRow row) :
    (t.perform c).table.SameContent (t'.perform c).table := by
  have command : t'.indexCommand? c = t.indexCommand? c := by
    cases c with
    | removeRow row => exact absurd rfl (noRow row)
    | _ => rfl
  constructor
  · rw [perform_index placed, perform_index placed', command, h.index]
  · rw [perform_rejected placed, perform_rejected placed', h.rejected]

theorem SameContent.placedBy (h : t.SameContent t') (c : TableCommand) :
    t'.placedBy c = t.placedBy c := by
  cases c with
  | add r => rw [Table.placedBy, Table.placedBy, add_answer, add_answer, h.index]
  | _ => rfl

theorem placedBy_view (t : Table) {c : TableCommand} (view : c.isView = true) :
    t.placedBy c = [] := by
  cases c <;> first | rfl | cases view

/-! ### Runs -/

/-- What is left of a run without the commands about how the table is shown places results in the
same way and ends with the same content. -/
theorem SameContent.after_aboutContent (h : t.SameContent t') (balanced : t.Balanced)
    (balanced' : t'.Balanced) (noRow : ∀ row, .removeRow row ∉ commands) :
    (t.after commands).SameContent (t'.after (aboutContent commands)) ∧
      t'.placements (aboutContent commands) = t.placements commands := by
  -- By induction on the commands, for every pair of tables to start from.
  induction commands generalizing t t' with
  | nil => exact ⟨h, rfl⟩
  | cons c rest ih =>
      have noRowHere (row : Nat) : c ≠ .removeRow row := fun here =>
        noRow row (here ▸ List.mem_cons_self)
      have noRowLater (row : Nat) : .removeRow row ∉ rest := fun later =>
        noRow row (List.mem_cons_of_mem c later)
      have step := balanced.perform c
      cases view : c.isView with
      | true =>
          rw [TableCommand.aboutContent_of_view view, placements, placedBy_view t view]
          have same := (perform_view balanced.toPlaced view).symm.trans h
          exact ih same step balanced' noRowLater
      | false =>
          rw [TableCommand.aboutContent_of_content view, placements, placements, h.placedBy c]
          have same := h.perform balanced.toPlaced balanced'.toPlaced noRowHere
          obtain ⟨run, placed⟩ := ih same step (balanced'.perform c) noRowLater
          exact ⟨run, congrArg _ placed⟩

/-- Runs that agree in the commands about content place results in the same way and end with the
same content. -/
theorem SameContent.after (h : t.SameContent t') (balanced : t.Balanced) (balanced' : t'.Balanced)
    (noRow : ∀ row, .removeRow row ∉ commands)
    (same : aboutContent commands = aboutContent commands') :
    (t.after commands).SameContent (t'.after commands') ∧
      t'.placements commands' = t.placements commands := by
  have noRow' (row : Nat) : .removeRow row ∉ commands' := by
    intro later
    have content : .removeRow row ∈ aboutContent commands' := List.mem_filter.mpr ⟨later, rfl⟩
    rw [← same] at content
    exact noRow row (List.mem_of_mem_filter content)
  -- Both are compared with the run of those commands alone.
  obtain ⟨run, placed⟩ := (SameContent.refl t).after_aboutContent balanced balanced noRow
  obtain ⟨run', placed'⟩ := h.symm.after_aboutContent balanced' balanced noRow'
  rw [← same] at run' placed'
  exact ⟨run.trans run'.symm, placed'.symm.trans placed⟩

/-! ## What choosers are told -/

/-- Tables that hold the same and take the same groups for junk tell choosers of the same groups. -/
theorem SameContent.groupsFor? (h : t.SameContent t') (faceted : t.Faceted registry)
    (faceted' : t'.Faceted registry) (hides : t'.hidesAsJunk = t.hidesAsJunk) (axis : Axis)
    (value : FacetValue) : t'.facets.groupsFor? axis value = t.facets.groupsFor? axis value := by
  have entries : t'.entries? registry = t.entries? registry := by
    funext g
    rw [entries?, hides, entries?]
  have indexed : t'.facets.indexed = t.facets.indexed := by
    refine SortedMap.ext_find? fun id => ?_
    rw [faceted'.current, faceted.current, entries, group?, h.index, ← group?]
  exact faceted'.consistent.groupsFor?_congr faceted.consistent indexed axis value

/-- Take two tables that group alike and runs on them that differ in the commands about how the
tables are shown, and in nothing else. Both place every result in the same way and hold the same
groups, refused results and number of sources. If they also treat junk alike in the end, choosers
are told the same groups for every value, whatever was filtered, sorted or selected in between and
however junk was treated before. What begins such runs are such runs, so the tables agree at all
points that correspond, and not at their ends only. -/
theorem view_has_no_say_in_content (options options' : Options) (registry : Registry)
    (commands commands' : List TableCommand)
    (grouping : options.groupResults = options'.groupResults)
    (noRow : ∀ row, .removeRow row ∉ commands)
    (same : aboutContent commands = aboutContent commands') :
    let t := (new options registry).after commands
    let t' := (new options' registry).after commands'
    (new options' registry).placements commands' = (new options registry).placements commands ∧
      t'.index = t.index ∧ t'.rejected = t.rejected ∧ t'.totalSources = t.totalSources ∧
      (t'.junkPolicy = t.junkPolicy → t'.junk.same t.junk = true →
        ∀ axis value, t'.facets.groupsFor? axis value = t.facets.groupsFor? axis value) := by
  intro t t'
  have start : (new options registry).SameContent (new options' registry) :=
    ⟨congrArg GroupIndex.empty grouping.symm, rfl⟩
  obtain ⟨content, placed⟩ := start.after (new_balanced options registry)
    (new_balanced options' registry) noRow same
  have h : t.Sound registry := after_sound options registry commands
  have h' : t'.Sound registry := after_sound options' registry commands'
  refine ⟨placed, content.index, content.rejected, ?_, ?_⟩
  · rw [h.totalSources_eq, h'.totalSources_eq, content.index]
  · intro policy threshold axis value
    have hides : t'.hidesAsJunk = t.hidesAsJunk := by
      funext g
      rw [hidesAsJunk, policy, JunkFilter.isJunk_of_same threshold, hidesAsJunk]
    exact content.groupsFor? h.toFaceted h'.toFaceted hides axis value

/-- The one table filters everything out and hides junk for a while; the other one shows all the
time what the user calls junk, and the user has it selected. -/
theorem view_has_no_say_in_content_of_two_sources :
    let song : SearchResult := { fileName := "a.mp3", size := 1 }
    let t := (new {} .empty).after
      [.setFilter fun _ => false, .add song, .add song, .markJunk ⟨0⟩ true, .setJunkPolicy .ignore]
    let t' := (new { junkPolicy := .ignore } .empty).after
      [.add song, .select ⟨0⟩, .setSort .size .ascending, .add song, .markJunk ⟨0⟩ true]
    t.rows = [] ∧ t'.selected = [⟨0⟩] ∧ t'.index = t.index ∧ t'.totalSources = t.totalSources ∧
      t'.facets.groupsFor? (.property .type) (.text "mp3") =
        t.facets.groupsFor? (.property .type) (.text "mp3") := by
  intro song t t'
  obtain ⟨-, index, -, total, told⟩ :=
    view_has_no_say_in_content {} { junkPolicy := .ignore } .empty
      [.setFilter fun _ => false, .add song, .add song, .markJunk ⟨0⟩ true, .setJunkPolicy .ignore]
      [.add song, .select ⟨0⟩, .setSort .size .ascending, .add song, .markJunk ⟨0⟩ true] rfl
      (by simp) rfl
  refine ⟨by decide +kernel, by decide +kernel, index, total, ?_⟩
  exact told (by decide +kernel) (by decide +kernel) _ _

end Table

end PeerSearch
