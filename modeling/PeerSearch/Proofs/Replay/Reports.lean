import PeerSearch.Proofs.Replay.Threads
import PeerSearch.Proofs.Settings.Resolved
import PeerSearch.Proofs.Table.Adding
import PeerSearch.Proofs.Table.Sorted

/-!
# PeerSearch.Proofs.Replay.Reports -- what the reports of a replay say

`TellsOf` says of a report, without the function that makes it, which table it is about: it has a row
for each of the first visible groups, and the counts of the table. `AccountsFor` says which table that
is, namely a new one that was filtered and then given the results of one file, and what is said of the
lines that are no results. Every report of a replay accounts for its input, whoever has been quicker.
-/

namespace PeerSearch

/-! ## Rows -/

/-- A row has the name, size, vendor and hash of the canonical member, and otherwise what all members
of the group amount to. -/
structure RowReport.TellsOf (row : RowReport) (g : Group) : Prop where
  name : row.name = g.canonical.result.fileName
  size : row.size = g.canonical.result.size
  sources : row.sources = g.members.length
  quality : row.quality = g.summary.quality
  speedClass : row.speedClass = .ofKbps g.summary.speed
  vendor : row.vendor = g.canonical.result.vendor
  spamScore : row.spamScore = g.spamScore
  hash : row.hash = g.canonical.result.hash

theorem RowReport.ofGroup_tellsOf (g : Group) : (RowReport.ofGroup g).TellsOf g :=
  ⟨rfl, rfl, rfl, rfl, rfl, rfl, rfl, rfl⟩

/-! ## Reports of a table -/

namespace SearchReport

/-- A report has the first rows of a table, all of them without a limit, and the counts of the
table. -/
structure TellsOf (report : SearchReport) (limit : Option Nat) (t : Table) : Prop where
  rows : List.Forall₂ (fun id (row : RowReport) => ∃ g, t.index.group? id = some g ∧ row.TellsOf g)
    (t.rows.take (limit.getD t.rows.length)) report.rows
  groupCount : report.groupCount = t.index.groups.length
  hiddenRows : report.hiddenRows = t.hidden.length
  totalSources : report.totalSources = t.filteredSources + t.hiddenSources
  filteredSources : report.filteredSources = t.filteredSources
  hiddenSources : report.hiddenSources = t.hiddenSources

theorem firstOf_eq_take {α : Type} (limit : Option Nat) (l : List α) :
    firstOf limit l = l.take (limit.getD l.length) := by
  cases limit with
  | none => exact List.take_length.symm
  | some n => rfl

theorem ofTable_tellsOf (wording : Wording) (query : String) (limit : Option Nat)
    (badLines : List BadLine) {t : Table} (placed : t.Placed) :
    (ofTable wording query limit badLines t).TellsOf limit t where
  rows := by
    show List.Forall₂ _ _ (firstOf limit (t.visibleGroups.map RowReport.ofGroup))
    rw [firstOf_eq_take, ← placed.visibleGroups_ids, List.length_map, List.length_map,
      ← List.map_take, ← List.map_take, List.forall₂_map_left_iff, List.forall₂_map_right_iff,
      List.forall₂_same]
    intro g hg
    have live := Table.live_of_visible (List.mem_of_mem_take hg)
    exact ⟨g, live, RowReport.ofGroup_tellsOf g⟩
  groupCount := rfl
  hiddenRows := rfl
  totalSources := rfl
  filteredSources := rfl
  hiddenSources := rfl

end SearchReport

/-! ## The filter of a replay -/

namespace Settings

/-- A group is of the vendor asked for, and of one of the extensions if any are asked for, ASCII case
aside. -/
def LetsThrough (s : Settings) (g : Group) : Prop :=
  (∀ vendor ∈ s.vendor, Text.sameIgnoringAsciiCase vendor (Text.trim g.vendor) = true) ∧
    (s.extensions = [] ∨ ∃ e ∈ s.extensions, Text.sameIgnoringAsciiCase e g.extension = true)

theorem shows_iff (s : Settings) (g : Group) : s.shows g = true ↔ s.LetsThrough g := by
  rw [shows, Bool.and_eq_true, Bool.or_eq_true, Option.all_eq_true, List.isEmpty_iff, List.any_eq_true]
  rfl

end Settings

namespace Replay

/-! ## Reports of an input -/

/-- Reading all inputs reads each of them. -/
theorem forall₂_of_mapM {α β ε : Type} {f : α → Except ε β} {l : List α} {read : List β}
    (h : l.mapM f = .ok read) : List.Forall₂ (fun a b => f a = .ok b) l read := by
  induction l generalizing read with
  | nil =>
      obtain rfl := Except.ok.inj h
      exact .nil
  | cons a l ih =>
      rw [List.mapM_cons] at h
      obtain ⟨b, first, h⟩ := bind_eq_ok h
      obtain ⟨others, later, h⟩ := bind_eq_ok h
      obtain rfl := Except.ok.inj h
      exact .cons first (ih later)

/-- What there is to report of an input whose lines are these texts. -/
structure AccountsFor (wording : Wording) (s : Settings) (path : String) (texts : List String)
    (report : SearchReport) : Prop where
  query : report.query = query path
  /-- One new table has been filtered and then given the results in the order of their lines. -/
  table : report.TellsOf s.limit
    (((Table.new s.options .common).setFilter s.shows).table.after ((resultsIn texts).map .add))
  /-- Bad lines come first, by their numbers, and then refused results, by their names. -/
  rejected : report.rejected =
    (badLinesIn 1 texts).map
        (fun l => "line " ++ toString l.number ++ ": " ++ wording l.line l.error) ++
      ((resultsIn texts).filterMap SearchResult.refused?).map
        fun r => r.result.fileName ++ ": " ++ r.refusal.message
  /-- Every line that is not blank is a source or is rejected. -/
  total : report.totalSources + report.rejected.length =
    (texts.filter fun text => !Text.isBlankText text).length

theorem alone_accountsFor (wording : Wording) (s : Settings) (path : String)
    (texts : List String) :
    AccountsFor wording s path texts
      (alone wording s path ⟨resultsIn texts, badLinesIn 1 texts⟩) := by
  -- A new table is empty, so what it has in the end has come with the lines.
  set t := ((Table.new s.options .common).perform (.setFilter s.shows)).table with ht
  have balanced : t.Balanced := (Table.new_balanced s.options .common).perform _
  have placed : (t.after ((resultsIn texts).map .add)).Placed :=
    (Table.after_balanced s.options .common
      (.setFilter s.shows :: (resultsIn texts).map .add)).toPlaced
  obtain ⟨rejected, total⟩ := balanced.after_adds (resultsIn texts)
  have none_before : t.rejected = [] := rfl
  have empty : t.totalSources = 0 := rfl
  rw [none_before, List.nil_append] at rejected
  rw [empty] at total
  have said : (alone wording s path ⟨resultsIn texts, badLinesIn 1 texts⟩).rejected =
      (badLinesIn 1 texts).map (BadLine.text wording) ++
        ((resultsIn texts).filterMap SearchResult.refused?).map Rejected.text := by
    rw [← rejected]
    rfl
  refine ⟨rfl, SearchReport.ofTable_tellsOf _ _ _ _ placed, said, ?_⟩
  have sources : (alone wording s path ⟨resultsIn texts, badLinesIn 1 texts⟩).totalSources =
    (t.after ((resultsIn texts).map .add)).totalSources := rfl
  rw [said, sources, List.length_append, List.length_map, List.length_map, ← lines_shared 1 texts]
  omega

/-! ## Reports of a replay -/

/-- When all inputs can be read, there is a report for each of the last ones that accounts for it. -/
theorem accounts_of_reported {wording : Wording} {s : Settings} {inputs : List Input}
    {reports : List SearchReport} (h : reported wording s inputs = .ok reports) :
    List.Forall₂
      (fun input report => ∃ texts, Readable input.2 texts ∧
        AccountsFor wording s input.1 texts report)
      (lastOnes s inputs) reports := by
  cases hread : inputs.mapM readAs with
  | error e =>
      rw [reported, hread] at h
      cases h
  | ok recordings =>
      rw [reported, hread] at h
      obtain rfl : (lastOnes s recordings).map (fun x => alone wording s x.1 x.2) = reports :=
        Except.ok.inj h
      have each := forall₂_of_mapM hread
      rw [lastOnes, lastOnes, each.length_eq, List.forall₂_map_right_iff]
      refine (List.forall₂_drop _ each).imp ?_
      rintro input ⟨path, r⟩ read
      obtain ⟨r', hr, same⟩ := bind_eq_ok (f := fun r => .ok (input.1, r)) read
      obtain ⟨rfl, rfl⟩ := Prod.mk.inj (Except.ok.inj same)
      obtain ⟨texts, readable, rfl⟩ := ofFile_eq_ok hr
      exact ⟨texts, readable, alone_accountsFor wording s input.1 texts⟩

/-- Whatever the order in which producers post and the player takes, once the player has ended the
outcome is that of a replay in order. When it is no error, there is one report for each of the last
inputs, as many as there may be searches, in the order of the inputs. It tells of one new table to
which the results in the lines of the file were added in turn, lets through what the settings ask
for, lists the bad lines and then the refused results in the order of the file, and with the sources
it makes up all lines that are not blank. -/
theorem reports_whoever_is_quicker {raw : RawSettings} {s : Settings}
    (resolved : Settings.resolve raw = .ok s) (wording : Wording) (inputs : List Input)
    (steps : List PlayStep) {outcome : Except Recording.ReplayError (List SearchReport)}
    (ended : ((Player.new wording s inputs).run steps).outcome? = some outcome) :
    (∀ files : String → FileContent, (∀ input ∈ inputs, input.2 = files input.1) →
      run wording s files (inputs.map (·.1)) = outcome) ∧
    (∀ g, s.shows g = true ↔ s.LetsThrough g) ∧
    ∀ reports, outcome = .ok reports →
      reports.length = min inputs.length s.options.maxSearches ∧
      List.Forall₂
        (fun input report => ∃ texts, Readable input.2 texts ∧
          AccountsFor wording s input.1 texts report)
        (inputs.drop (inputs.length - s.options.maxSearches)) reports := by
  have known : outcome = reported wording s inputs := by
    have stage := Player.stage_of_outcome ended
    rcases run_played (.inl ⟨[], new_playing wording s inputs⟩) steps with ⟨log, playing⟩ | done
    · exact absurd stage (playing.notEnded outcome)
    · exact Stage.ended.inj (stage.symm.trans done)
  refine ⟨fun files found => known ▸ run_eq_reported wording s found, s.shows_iff,
    fun reports ok => ?_⟩
  -- Settings in effect allow one search at least, so there are as many as they say.
  have limit : max 1 s.options.maxSearches = s.options.maxSearches :=
    max_eq_right (Settings.resolve_maxSearches resolved)
  have accounts := accounts_of_reported (known.symm.trans ok)
  rw [lastOnes, limit] at accounts
  refine ⟨?_, accounts⟩
  rw [← accounts.length_eq, List.length_drop]
  omega

/-- One search may be open, and the second input evicts the first, whose producer is still at work
when its posts are dropped. The lines of the second file are a result, a blank one, a bad one, a
result that the filter hides, one beyond the limit of rows, and one that is refused. -/
theorem reports_whoever_is_quicker_of_two :
    let s : Settings := ⟨{ maxSearches := 1 }, ["mp3"], none, some 1⟩
    let wording : Wording := fun line _ => "no record: " ++ line
    let a := "\x7b\"file_name\":\"a.mp3\",\"size\":1\x7d\n"
    let b := "\x7b\"file_name\":\"b.ogg\",\"size\":2\x7d\n"
    let c := "\x7b\"file_name\":\"c.mp3\",\"size\":3\x7d\n"
    let d := "\x7b\"file_name\":\"\",\"size\":4\x7d\n"
    let first : FileContent := .bytes a.toUTF8.toList
    let second : FileContent := .bytes (a ++ " \nx\n" ++ b ++ c ++ d).toUTF8.toList
    let inputs : List Input := [("1.txt", first), ("2.txt", second)]
    let steps : List PlayStep :=
      [.openNext, .send 0, .openNext, .openNext, .send 1, .receive, .receive, .endPumping,
        .check true, .send 1, .send 0, .send 1, .receive, .receive, .send 1, .receive, .endPumping,
        .check false, .send 1, .receive, .receive, .endPumping, .check false, .join, .join, .join]
    let report : SearchReport :=
      { query := "2", rows := [⟨"a.mp3", 1, 1, .poor, .modem, "", .zero, none⟩]
        groupCount := 3, hiddenRows := 1, totalSources := 3, filteredSources := 2
        hiddenSources := 1
        rejected := ["line 3: no record: x", ": search result has an empty file name"] }
    Settings.resolve { maxSearches := some 1, extensions := some ["mp3"], limit := some 1 } =
        .ok s ∧
      ((Player.new wording s inputs).run steps).outcome? = some (.ok [report]) ∧
      run wording s (fun path => if path = "1.txt" then first else second) ["1.txt", "2.txt"] =
        .ok [report] ∧
      ∃ texts, Readable second texts ∧ AccountsFor wording s "2.txt" texts report := by
  intro s wording a b c d first second inputs steps report
  have resolved : Settings.resolve
      { maxSearches := some 1, extensions := some ["mp3"], limit := some 1 } = .ok s := rfl
  have shown : ((Player.new wording s inputs).run steps).outcome?.bind Except.toOption =
      some [report] := by
    decide +kernel
  obtain ⟨outcome, ended, ok⟩ := Option.bind_eq_some_iff.mp shown
  cases outcome with
  | error e => cases ok
  | ok found =>
      obtain rfl := Option.some.inj ok
      obtain ⟨same, -, all⟩ := reports_whoever_is_quicker resolved wording inputs steps ended
      obtain ⟨-, each⟩ := all _ rfl
      refine ⟨resolved, ended, same _ fun input mem => ?_, (List.forall₂_cons.mp each).1⟩
      rcases List.mem_cons.mp mem with rfl | mem
      · exact (if_pos rfl).symm
      · rw [List.mem_singleton.mp mem]
        exact (if_neg (by decide)).symm

end Replay

end PeerSearch
