import PeerSearch.Proofs.Table.Counts

/-!
# PeerSearch.Proofs.Table.Checked -- no count and no row number is ever out of range

The operations of a table take sources off counts and look at rows by their number. Here are the
operations again, with a check at each of these steps: they have no outcome where more is taken off
than is there, or where a row number is out of range. On a balanced table they always have one, and
it is that of the operations without checks.
-/

namespace PeerSearch

/-! ## Steps that can fail -/

/-- A count less what is taken off, if it is that large. -/
def takeOff? (count taken : Nat) : Option Nat :=
  if taken ≤ count then some (count - taken) else none

theorem takeOff?_eq {count taken : Nat} (h : taken ≤ count) :
    takeOff? count taken = some (count - taken) :=
  if_pos h

namespace Table

/-! ## Operations with checks -/

def showGroup? (t : Table) (g : Group) : Option Change := do
  let row := t.insertionRow g
  let rows ← insertAt? t.rows row g.id
  return ⟨{ t with rows, filteredSources := t.filteredSources + g.sourceCount },
    [.inserted row g.id]⟩

def relocate? (t : Table) (g : Group) (start : Nat) : Option Change := do
  let _ ← t.rows[start]?
  let target := t.destination g start
  if target = start then return ⟨t, [.updated start g.id]⟩
  else
    let rows ← insertAt? (← removeAt? t.rows start) target g.id
    return ⟨{ t with rows }, [.moved start target g.id]⟩

def hideRow? (t : Table) (g : Group) (row : Nat) : Option Change := do
  let rows ← removeAt? t.rows row
  let filteredSources ← takeOff? t.filteredSources g.sourceCount
  return ⟨{ t with
      rows
      hidden := t.hidden ++ [g.id]
      filteredSources
      hiddenSources := t.hiddenSources + g.sourceCount
      selection := t.selection.erase g.id },
    [.removed row g.id]⟩

def unhide? (t : Table) (g : Group) : Option Change := do
  let hiddenSources ← takeOff? t.hiddenSources g.sourceCount
  { t with hidden := t.hidden.erase g.id, hiddenSources }.showGroup? g

def settle? (t : Table) (g : Group) : Option Change :=
  let t' := { t with facets := t.refreshFacets g }
  match t.slot? g.id, t.shows g with
  | some (.visible row), true =>
    if t.realTimeSort || t.sinks g then t'.relocate? g row
    else some ⟨t', [.updated row g.id]⟩
  | some (.visible row), false => t'.hideRow? g row
  | some .hidden, true => t'.unhide? g
  | _, _ => some t'.quietly

def settleId? (t : Table) (id : GroupId) : Option Change :=
  match t.group? id with
  | some g => t.settle? g
  | none => some t.quietly

def placeNew? (t : Table) (g : Group) : Option Change :=
  if t.hidesAsJunk g then
    some { t with
      hidden := t.hidden ++ [g.id]
      hiddenSources := t.hiddenSources + g.sourceCount }.quietly
  else
    let t' := { t with facets := t.facets.add g }
    if t.filter g then t'.showGroup? g
    else
      some { t' with
        hidden := t.hidden ++ [g.id]
        hiddenSources := t.hiddenSources + g.sourceCount }.quietly

def add? (t : Table) (r : SearchResult) : Option Change :=
  match t.index.insert r with
  | .error refusal => some (t.reject ⟨r, refusal⟩).quietly
  | .ok (index, placement) =>
    let t' := { t with index }
    if placement.created then
      match t'.group? placement.group with
      | some g => t'.placeNew? g
      | none => some t'.quietly
    else (t'.countSource placement.group).settleId? placement.group

def dropFromView? (t : Table) (id : GroupId) (slot : Option Slot) (count : Nat) :
    Option Change := do
  let t' := { t with facets := t.facets.remove id, selection := t.selection.erase id }
  match slot with
  | some (.visible row) =>
    let filteredSources ← takeOff? t.filteredSources count
    let rows ← removeAt? t.rows row
    return ⟨{ t' with rows, filteredSources }, [.removed row id]⟩
  | some .hidden =>
    let hiddenSources ← takeOff? t.hiddenSources count
    return { t' with hidden := t.hidden.erase id, hiddenSources }.quietly
  | none => return t'.quietly

def discountSource? (t : Table) (slot : Option Slot) : Option Table := do
  match slot with
  | some (.visible _) =>
    let filteredSources ← takeOff? t.filteredSources 1
    return { t with filteredSources }
  | some .hidden =>
    let hiddenSources ← takeOff? t.hiddenSources 1
    return { t with hiddenSources }
  | none => return t

def removeResult? (t : Table) (id : ResultId) : Option Change :=
  match t.index.groupOf? id with
  | none => some t.quietly
  | some groupId =>
    match t.index.remove id with
    | (index, none) => some { t with index }.quietly
    | (index, some detached) => do
      let t' := { t with index }
      if detached.groupRemoved then t'.dropFromView? groupId (t.slot? groupId) 1
      else (← t'.discountSource? (t.slot? groupId)).settleId? groupId

def removeGroup? (t : Table) (id : GroupId) : Option Change :=
  match t.slot? id with
  | none => some t.quietly
  | some slot =>
    match t.index.removeGroup id with
    | (index, none) => some { t with index }.quietly
    | (index, some g) => { t with index }.dropFromView? id (some slot) g.sourceCount

def removeRow? (t : Table) (row : Nat) : Option Change :=
  match t.rows[row]? with
  | some id => t.removeGroup? id
  | none => some t.quietly

def markJunk? (t : Table) (id : GroupId) (junk : Bool) : Option Change :=
  match t.group? id with
  | none => some t.quietly
  | some g =>
    let g := g.mark junk
    { t with index := t.index.putGroup g }.settle? g

/-- The change that a command leaves, with checks. The commands that are not about one group take
nothing off and look at no row by its number. -/
def perform? (t : Table) : TableCommand → Option Change
  | .add r => t.add? r
  | .removeResult id => t.removeResult? id
  | .removeGroup id => t.removeGroup? id
  | .removeRow row => t.removeRow? row
  | .markJunk id junk => t.markJunk? id junk
  | c => some (t.perform c)

/-! ## On balanced tables every check succeeds -/

variable {t : Table}

theorem showGroup?_eq (t : Table) (g : Group) : t.showGroup? g = some (t.showGroup g) := by
  simp only [showGroup?, insertAt?_eq (t.insertionRow_le g)]
  rfl

theorem relocate?_eq {g : Group} {row : Nat} (hrow : t.rows[row]? = some g.id) :
    t.relocate? g row = some (t.relocate g row) := by
  obtain ⟨hlt, -⟩ := List.getElem?_eq_some_iff.mp hrow
  have hinsert := destination_le (g := g) hlt
  simp only [relocate?, relocate, hrow, removeAt?_eq hlt]
  by_cases htarget : t.destination g row = row
  · simp only [htarget, if_true]
    rfl
  · simp only [htarget, if_false, Option.bind_eq_bind, Option.bind_some, insertAt?_eq hinsert]
    rfl

theorem hideRow?_eq (h : t.Balanced) {g : Group} (hg : t.index.group? g.id = some g) {row : Nat}
    (hrow : t.rows[row]? = some g.id) : t.hideRow? g row = some (t.hideRow g row) := by
  obtain ⟨hlt, -⟩ := List.getElem?_eq_some_iff.mp hrow
  simp only [hideRow?, removeAt?_eq hlt, takeOff?_eq (h.takeRow hg hrow).1]
  rfl

theorem unhide?_eq (h : t.Balanced) {g : Group} (hg : t.index.group? g.id = some g)
    (hid : g.id ∈ t.hidden) : t.unhide? g = some (t.unhide g) := by
  simp only [unhide?, takeOff?_eq (h.takeHidden hg hid).1]
  exact showGroup?_eq _ g

theorem settle?_eq (h : t.Balanced) {g : Group} (hg : t.index.group? g.id = some g) :
    t.settle? g = some (t.settle g) := by
  have h' : { t with facets := t.refreshFacets g }.Balanced :=
    ⟨⟨h.coherent, h.placed⟩, h.filteredSum, h.hiddenSum⟩
  rcases t.slot?_cases g.id with ⟨row, hs, hrow⟩ | ⟨hs, -, hhid⟩ | ⟨hs, -, -⟩
  · cases hshows : t.shows g with
    | true =>
        simp only [settle?, settle, hs, hshows]
        split
        · exact relocate?_eq hrow
        · rfl
    | false =>
        simp only [settle?, settle, hs, hshows]
        exact hideRow?_eq h' hg hrow
  · cases hshows : t.shows g with
    | true =>
        simp only [settle?, settle, hs, hshows]
        exact unhide?_eq h' hg hhid
    | false => simp only [settle?, settle, hs, hshows]
  · simp only [settle?, settle, hs]

theorem settleId?_eq (h : t.Balanced) (id : GroupId) : t.settleId? id = some (t.settleId id) := by
  cases hg : t.group? id with
  | none => simp only [settleId?, settleId, hg]
  | some g =>
      obtain rfl := GroupIndex.id_of_group? hg
      simp only [settleId?, settleId, hg]
      exact settle?_eq h hg

theorem placeNew?_eq (t : Table) (g : Group) : t.placeNew? g = some (t.placeNew g) := by
  unfold placeNew? placeNew
  split
  · rfl
  · dsimp only
    split
    · exact showGroup?_eq _ g
    · rfl

theorem dropFromView?_eq (h : t.Balanced) {g : Group} (live : t.index.group? g.id = some g)
    (ix : GroupIndex) :
    { t with index := ix }.dropFromView? g.id (t.slot? g.id) g.sourceCount =
      some ({ t with index := ix }.dropFromView g.id (t.slot? g.id) g.sourceCount) := by
  rcases h.slot?_of_live live with ⟨row, hs, hrow⟩ | ⟨hs, -, hhid⟩
  · obtain ⟨hlt, -⟩ := List.getElem?_eq_some_iff.mp hrow
    simp only [dropFromView?, dropFromView, hs, takeOff?_eq (h.takeRow live hrow).1,
      removeAt?_eq hlt]
    rfl
  · simp only [dropFromView?, dropFromView, hs, takeOff?_eq (h.takeHidden live hhid).1]
    rfl

/-- One source can be taken off where a group stands, since the whole group counts there. -/
theorem discountSource?_eq (h : t.Balanced) {g : Group} (live : t.index.group? g.id = some g)
    (ix : GroupIndex) :
    { t with index := ix }.discountSource? (t.slot? g.id) =
      some ({ t with index := ix }.discountSource (t.slot? g.id)) := by
  have hpos := g.sourceCount_pos
  rcases h.slot?_of_live live with ⟨row, hs, hrow⟩ | ⟨hs, -, hhid⟩
  · have hle := (h.takeRow live hrow).1
    simp only [discountSource?, discountSource, hs,
      takeOff?_eq (show 1 ≤ t.filteredSources by omega)]
    rfl
  · have hle := (h.takeHidden live hhid).1
    simp only [discountSource?, discountSource, hs,
      takeOff?_eq (show 1 ≤ t.hiddenSources by omega)]
    rfl

/-! ### Commands -/

theorem add?_eq (h : t.Balanced) (r : SearchResult) : t.add? r = some (t.add r).change := by
  cases hr : r.refusal? with
  | some refusal => simp only [add?, add, GroupIndex.insert, hr]
  | none =>
      simp only [add?, add, GroupIndex.insert, hr]
      cases hh : t.index.home? (.ofResult r) with
      | some g =>
          -- The counts are balanced again before the group is decided over.
          have hbalanced : ({ t with index := (t.index.place r).1 }.countSource g.id).Balanced := by
            rw [counted_of_home h.toPlaced hh]
            refine h.recounted (h.coherent.place r) (GroupIndex.home?_spec hh) ?_
            rw [GroupIndex.place_of_home hh]
          have hcreated : (t.index.place r).2.created = false := by
            rw [GroupIndex.place_of_home hh]
          have hgroup : (t.index.place r).2.group = g.id := by
            rw [GroupIndex.place_of_home hh]
          simp only [hcreated, hgroup, Bool.false_eq_true, if_false]
          exact settleId?_eq hbalanced g.id
      | none =>
          have hcreated : (t.index.place r).2.created = true := by
            rw [GroupIndex.place_of_homeless hh]
          simp only [hcreated, if_true]
          cases hg : { t with index := (t.index.place r).1 }.group? (t.index.place r).2.group with
          | some g => exact placeNew?_eq _ g
          | none => rfl

theorem removeResult?_eq (h : t.Balanced) (id : ResultId) :
    t.removeResult? id = some (t.removeResult id).change := by
  cases hid : t.index.groupOf? id with
  | none =>
      simp only [removeResult?, removeResult, hid]
      rfl
  | some gid =>
      obtain ⟨g, r, rfl, hg, hmem, hr⟩ := h.coherent.known_result hid
      cases hd : g.detach? id with
      | none =>
          -- The one source that is taken off is all that the group counts.
          have alone := Group.sourceCount_of_last hmem hd
          simp only [removeResult?, removeResult, hid, GroupIndex.remove_of_last hid hg hr hd,
            if_true, ← alone]
          exact dropFromView?_eq h hg _
      | some g' =>
          have one := Group.sourceCount_of_detach hmem hd
          obtain ⟨ix', hrem, groups, -⟩ := GroupIndex.remove_of_shared hid hg hr hd
          have coherent : ix'.Coherent := by
            have := h.coherent.remove id
            rwa [hrem] at this
          have hbalanced :
              ({ t with index := ix' }.discountSource (t.slot? g.id)).Balanced := by
            rw [discounted_of_shared h.toPlaced hg hd one]
            exact h.recounted coherent ((Group.detach?_spec hd).1 ▸ hg) groups
          simp only [removeResult?, removeResult, hid, hrem, Bool.false_eq_true, if_false,
            discountSource?_eq h hg, Option.bind_eq_bind, Option.bind_some]
          exact settleId?_eq hbalanced g.id

theorem removeGroup?_eq (h : t.Balanced) (id : GroupId) :
    t.removeGroup? id = some (t.removeGroup id).change := by
  cases hs : t.slot? id with
  | none =>
      simp only [removeGroup?, removeGroup, hs]
      rfl
  | some slot =>
      cases hg : t.index.group? id with
      | none =>
          simp only [removeGroup?, removeGroup, hs, GroupIndex.removeGroup_of_unknown hg]
          rfl
      | some g =>
          -- The slot was read before the index forgot the group, and it is the same over either.
          obtain rfl := GroupIndex.id_of_group? hg
          simp only [removeGroup?, removeGroup, hs, GroupIndex.removeGroup_of_known hg]
          rw [← hs]
          exact dropFromView?_eq h hg _

theorem markJunk?_eq (h : t.Balanced) (id : GroupId) (junk : Bool) :
    t.markJunk? id junk = some (t.markJunk id junk).change := by
  cases hg : t.group? id with
  | none =>
      simp only [markJunk?, markJunk, hg]
      rfl
  | some g =>
      obtain rfl := GroupIndex.id_of_group? hg
      simp only [markJunk?, markJunk, hg]
      have hbalanced := h.recounted (g := g.mark junk) (h.coherent.mark hg junk) hg rfl
      rw [recounted_same _ (Group.sourceCount_mark g junk)] at hbalanced
      have marked := GroupIndex.group?_of_put (g := g.mark junk) hg rfl g.id
      exact settle?_eq hbalanced (marked.trans (if_pos rfl))

/-- No command takes more off a count than is there, or looks at a row that there is not. -/
theorem perform?_eq (h : t.Balanced) (c : TableCommand) : t.perform? c = some (t.perform c) := by
  cases c with
  | add r => exact add?_eq h r
  | removeResult id => exact removeResult?_eq h id
  | removeGroup id => exact removeGroup?_eq h id
  | removeRow row =>
      simp only [perform?, perform, removeRow?, removeRow]
      cases hrow : t.rows[row]? with
      | some id => exact removeGroup?_eq h id
      | none => rfl
  | markJunk id junk => exact markJunk?_eq h id junk
  | _ => rfl

/-! ## Every state that commands lead to -/

/-- In every state of a table, whatever its filters have answered on the way, each group of the
index is either a row or hidden, and just once; the counts are those of the groups that stand there;
and whatever is done next takes no more off a count than is there and looks at no row that there is
not. -/
theorem groups_counted_once (options : Options) (registry : Registry)
    (commands : List TableCommand) :
    let t := (new options registry).after commands
    (t.rows.Nodup ∧ t.hidden.Nodup ∧ t.rows.Disjoint t.hidden) ∧
      (∀ id, (id ∈ t.rows ∨ id ∈ t.hidden) ↔ ∃ g ∈ t.index.groups, g.id = id) ∧
      t.filteredSources = sourcesOf t.visibleGroups ∧
      t.hiddenSources = sourcesOf t.hiddenGroups ∧
      t.totalSources = t.index.resultCount ∧
      ∀ c, t.perform? c = some (t.perform c) := by
  intro t
  have h : t.Balanced := after_balanced options registry commands
  refine ⟨⟨h.rows_nodup, h.hidden_nodup, h.disjoint⟩, ?_, ?_, ?_, h.totalSources_eq,
    perform?_eq h⟩
  · intro id
    rw [← h.mem_ids_iff, GroupIndex.ids, List.mem_map]
  · rw [h.filteredSum, GroupIndex.sourcesIn_eq]
    rfl
  · rw [h.hiddenSum, GroupIndex.sourcesIn_eq]
    rfl

end Table

end PeerSearch
