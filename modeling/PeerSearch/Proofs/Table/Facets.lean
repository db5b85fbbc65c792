import PeerSearch.Proofs.Facet.Consistent
import PeerSearch.Proofs.Table.Counts

/-!
# PeerSearch.Proofs.Table.Facets -- choosers follow the groups

A table keeps the facets of its groups beside the rows. They are current when every group that is
not hidden as junk is recorded as it is now and nothing else is recorded; whether the user's filter
shows a group makes no difference. An operation on one group records it anew or forgets it, and one
that decides over all groups records them all from the start.
-/

namespace PeerSearch

namespace Table

variable {t : Table} {registry : Registry}

/-! ## The facets of one table -/

/-- What is to be recorded of a group: nothing when it is hidden as junk. -/
def entries? (t : Table) (registry : Registry) (g : Group) : Option (List FacetEntry) :=
  if t.hidesAsJunk g then none else some (g.facetEntries registry)

/-- The facets are those of the groups as they are now. -/
structure Faceted (t : Table) (registry : Registry) : Prop where
  classed : t.facets.registry = registry
  consistent : t.facets.Consistent
  current : ∀ id, t.facets.indexed.find? id = (t.group? id).bind (t.entries? registry)

theorem SameSettings.entries? {t' : Table} (h : t.SameSettings t') :
    t'.entries? = t.entries? := by
  funext registry g
  have hides : t'.hidesAsJunk g = t.hidesAsJunk g := by
    rw [hidesAsJunk, h.junkPolicy, h.junk, hidesAsJunk]
  rw [Table.entries?, hides, Table.entries?]

/-- After a group has been recorded anew or forgotten, the facets are current again if nothing else
has changed. -/
theorem Faceted.one {t' : Table} (h : t.Faceted registry) (id : GroupId)
    (settings : t.SameSettings t') (kept : t'.facets.registry = t.facets.registry)
    (consistent : t'.facets.Consistent)
    (others : ∀ k, k ≠ id → t'.group? k = t.group? k ∧
      t'.facets.indexed.find? k = t.facets.indexed.find? k)
    (here : t'.facets.indexed.find? id = (t'.group? id).bind (t.entries? registry)) :
    t'.Faceted registry := by
  refine ⟨kept.trans h.classed, consistent, fun k => ?_⟩
  rw [settings.entries?]
  by_cases same : k = id
  · rw [same, here]
  · obtain ⟨group, facets⟩ := others k same
    rw [facets, group, h.current]

/-! ### Recording one group -/

theorem refreshFacets_registry (t : Table) (g : Group) :
    (t.refreshFacets g).registry = t.facets.registry := by
  unfold refreshFacets
  split
  · exact t.facets.remove_registry g.id
  · exact t.facets.replace_registry g.id _

theorem find?_refreshFacets (t : Table) (g : Group) (k : GroupId) :
    (t.refreshFacets g).indexed.find? k =
      if k = g.id then t.entries? t.facets.registry g else t.facets.indexed.find? k := by
  unfold refreshFacets entries?
  cases t.hidesAsJunk g with
  | true => exact t.facets.find?_remove g.id k
  | false => exact t.facets.find?_add g k

theorem refreshFacets_consistent (h : t.facets.Consistent) (g : Group) :
    (t.refreshFacets g).Consistent := by
  unfold refreshFacets
  split
  · exact h.remove g.id
  · exact h.add g

/-! ## Operations on one group -/

/-- A new group is recorded as it is, unless it is hidden as junk. -/
theorem Faceted.started {t' : Table} {g : Group} (h : t.Faceted registry)
    (settings : t.SameSettings t') (unused : t.group? g.id = none)
    (group : ∀ k, t'.group? k = if g.id = k then some g else t.group? k)
    (facets : t'.facets = if t.hidesAsJunk g then t.facets else t.facets.add g) :
    t'.Faceted registry := by
  have others (k : GroupId) (hk : k ≠ g.id) : t'.group? k = t.group? k :=
    (group k).trans (if_neg (Ne.symm hk))
  have live : t'.group? g.id = some g := (group g.id).trans (if_pos rfl)
  cases hides : t.hidesAsJunk g with
  | true =>
      rw [hides, if_pos rfl] at facets
      -- Nothing has been recorded under a name that was not in use.
      have unrecorded : t.facets.indexed.find? g.id = none := by
        rw [h.current, unused, Option.bind_none]
      refine h.one g.id settings (by rw [facets]) (facets ▸ h.consistent)
        (fun k hk => ⟨others k hk, by rw [facets]⟩) ?_
      rw [facets, unrecorded, live, Option.bind_some, entries?, if_pos hides]
  | false =>
      rw [hides, if_neg Bool.false_ne_true] at facets
      refine h.one g.id settings ?_ (facets ▸ h.consistent.add g) (fun k hk => ⟨others k hk, ?_⟩) ?_
      · rw [facets]
        exact t.facets.replace_registry g.id _
      · rw [facets, FacetModel.find?_add, if_neg hk]
      · rw [facets, FacetModel.find?_add, if_pos rfl, live, Option.bind_some, entries?, hides,
          if_neg Bool.false_ne_true, h.classed]

theorem Faceted.changed {t' : Table} {g : Group} (h : t.Faceted registry)
    (settings : t.SameSettings t')
    (group : ∀ k, t'.group? k = if g.id = k then some g else t.group? k)
    (facets : t'.facets = t.refreshFacets g) : t'.Faceted registry := by
  refine h.one g.id settings ?_ (facets ▸ refreshFacets_consistent h.consistent g)
    (fun k hk => ⟨(group k).trans (if_neg (Ne.symm hk)), ?_⟩) ?_
  · rw [facets, refreshFacets_registry]
  · rw [facets, find?_refreshFacets, if_neg hk]
  · rw [facets, find?_refreshFacets, if_pos rfl, group, if_pos rfl, Option.bind_some, h.classed]

theorem Faceted.dropped {t' : Table} {id : GroupId} (h : t.Faceted registry)
    (settings : t.SameSettings t')
    (group : ∀ k, t'.group? k = if id = k then none else t.group? k)
    (facets : t'.facets = t.facets.remove id) : t'.Faceted registry := by
  refine h.one id settings ?_ (facets ▸ h.consistent.remove id)
    (fun k hk => ⟨(group k).trans (if_neg (Ne.symm hk)), ?_⟩) ?_
  · rw [facets, FacetModel.remove_registry]
  · rw [facets, FacetModel.find?_remove, if_neg hk]
  · rw [facets, FacetModel.find?_remove, if_pos rfl, group, if_pos rfl, Option.bind_none]

theorem Faceted.localChange (h : t.Faceted registry) {change : Change}
    (hc : t.LocalChange change) : change.table.Faceted registry := by
  have settings := hc.settings
  cases hc with
  | kept rejected => exact ⟨h.classed, h.consistent, h.current⟩
  | started ix g coherent unused alone groups =>
      obtain ⟨index, facets, -⟩ := placeNew_keeps { t with index := ix } g
      refine h.started settings unused (fun k => ?_) facets
      rw [group?, index]
      exact GroupIndex.group?_of_append unused groups k
  | changed ix before g coherent live groups =>
      obtain ⟨index, facets, -⟩ := settle_keeps (t.recounted ix before g) g
      refine h.changed settings (fun k => ?_) facets
      rw [group?, index]
      exact GroupIndex.group?_of_put live groups k
  | dropped ix g coherent live groups =>
      obtain ⟨index, facets, -⟩ :=
        dropFromView_keeps { t with index := ix } g.id (t.slot? g.id) g.sourceCount
      refine h.dropped settings (fun k => ?_) facets
      rw [group?, index]
      exact GroupIndex.group?_of_drop groups k

/-! ## Operations on all groups -/

/-- Deciding over every group anew records the groups from the start. -/
theorem rebuild_faceted (coherent : t.index.Coherent) (classed : t.facets.registry = registry) :
    t.rebuild.table.Faceted registry := by
  set browsable := t.index.groups.filter fun g => !t.hidesAsJunk g with hbrowsable
  have facets : t.rebuild.table.facets = browsable.foldl FacetModel.add t.facets.clear := rfl
  have distinct : (browsable.map Group.id).Nodup :=
    coherent.ids_nodup.sublist (List.filter_sublist.map _)
  refine ⟨?_, facets ▸ (FacetModel.empty_consistent t.facets.registry).addAll browsable,
    fun id => ?_⟩
  · rw [facets, FacetModel.addAll_registry]
    exact classed
  · show t.rebuild.table.facets.indexed.find? id = (t.group? id).bind (t.entries? registry)
    rw [facets]
    -- A name that no browsable group has is one that nothing has been recorded under.
    have unrecorded (unnamed : id ∉ browsable.map Group.id) :
        (browsable.foldl FacetModel.add t.facets.clear).indexed.find? id = none :=
      FacetModel.find?_addAll_of_not_mem _ unnamed
    cases hg : t.group? id with
    | none =>
        rw [Option.bind_none]
        refine unrecorded fun named => ?_
        exact (t.index.group?_eq_none_iff id).mp hg ((List.filter_sublist.map _).subset named)
    | some g =>
        rw [Option.bind_some, entries?]
        obtain rfl := GroupIndex.id_of_group? hg
        cases hides : t.hidesAsJunk g with
        | true =>
            rw [if_pos rfl]
            refine unrecorded fun named => ?_
            obtain ⟨k, hk, same⟩ := List.mem_map.mp named
            obtain ⟨mem, shown⟩ := List.mem_filter.mp hk
            have hkg : some k = some g := by
              rw [← coherent.group?_of_mem mem, same]
              exact hg
            rw [Option.some.inj hkg, hides] at shown
            cases shown
        | false =>
            have hmem : g ∈ browsable :=
              List.mem_filter.mpr ⟨GroupIndex.mem_of_group? hg, by rw [hides]; rfl⟩
            rw [if_neg Bool.false_ne_true, FacetModel.find?_addAll_of_mem _ distinct hmem,
              ← classed]
            rfl

theorem Faceted.globalChange (h : t.Faceted registry) (coherent : t.index.Coherent)
    {c : TableCommand} {change : Change} (hc : t.GlobalChange c change) :
    change.table.Faceted registry := by
  cases hc with
  | rebuilt filter junkPolicy junk => exact rebuild_faceted coherent h.classed
  | resorted sort rows same => exact ⟨h.classed, h.consistent, h.current⟩
  | cleared =>
      exact ⟨h.classed, FacetModel.empty_consistent t.facets.registry, fun _ => rfl⟩
  | adjusted filter realTimeSort grouping selection rejected =>
      exact ⟨h.classed, h.consistent, h.current⟩

/-! ## Runs -/

theorem new_faceted (options : Options) (registry : Registry) :
    (new options registry).Faceted registry :=
  ⟨rfl, FacetModel.empty_consistent registry, fun _ => rfl⟩

theorem Faceted.perform (h : t.Faceted registry) (placed : t.Placed) (c : TableCommand) :
    (t.perform c).table.Faceted registry := by
  cases hc : c.isLocal with
  | true => exact h.localChange (perform_local placed hc)
  | false => exact h.globalChange placed.coherent (perform_global placed hc)

theorem after_faceted (options : Options) (registry : Registry) (commands : List TableCommand) :
    ((new options registry).after commands).Faceted registry := by
  suffices h : ((new options registry).after commands).Balanced ∧
      ((new options registry).after commands).Faceted registry from h.2
  refine after_keeps (P := fun t => t.Balanced ∧ t.Faceted registry)
    ⟨new_balanced options registry, new_faceted options registry⟩ ?_
  rintro t ⟨balanced, faceted⟩ c -
  exact ⟨balanced.perform c, faceted.perform balanced.toPlaced c⟩

/-! ## What choosers are told -/

/-- The group of that name, which is not hidden as junk; the user's filter may keep it out. -/
def Browsable (t : Table) (id : GroupId) (g : Group) : Prop :=
  t.group? id = some g ∧ ¬ (t.junkPolicy = .hide ∧ t.junk.isJunk g = true)

theorem Faceted.find?_eq_some_iff (h : t.Faceted registry) {id : GroupId}
    {entries : List FacetEntry} : t.facets.indexed.find? id = some entries ↔
      ∃ g, t.Browsable id g ∧ g.facetEntries registry = entries := by
  rw [h.current, Option.bind_eq_some_iff]
  refine exists_congr fun g => ?_
  rw [Browsable, and_assoc, entries?, Option.ite_none_left_eq_some, Option.some.injEq, hidesAsJunk,
    Bool.and_eq_true, beq_iff_eq]

theorem Faceted.recorded_eq (h : t.Faceted registry) {id : GroupId} {g : Group}
    (hg : t.Browsable id g) : t.facets.recorded id = g.facetEntries registry := by
  rw [FacetModel.recorded, h.find?_eq_some_iff.mpr ⟨g, hg, rfl⟩, Option.getD_some]

theorem Faceted.mem_recorded_iff (h : t.Faceted registry) {id : GroupId} {e : FacetEntry} :
    e ∈ t.facets.recorded id ↔ ∃ g, t.Browsable id g ∧ e ∈ g.facetEntries registry := by
  constructor
  · intro he
    rw [FacetModel.recorded] at he
    cases hf : t.facets.indexed.find? id with
    | none =>
        rw [hf] at he
        cases he
    | some entries =>
        obtain ⟨g, hg, rfl⟩ := h.find?_eq_some_iff.mp hf
        rw [hf] at he
        exact ⟨g, hg, he⟩
  · rintro ⟨g, hg, he⟩
    rwa [h.recorded_eq hg]

/-- In every state, the groups that are indexed are those that are not hidden as junk, whether or
not the user's filter shows them. What is recorded of each is what it is then, and a value lists the
groups that have it then. -/
theorem facets_follow_groups (options : Options) (registry : Registry)
    (commands : List TableCommand) :
    let t := (new options registry).after commands
    (∀ id, t.facets.contains id = true ↔ ∃ g, t.Browsable id g) ∧
      (∀ id g, t.Browsable id g → t.facets.recorded id = g.facetEntries registry) ∧
      ∀ axis value id,
        (∃ groups, t.facets.groupsFor? axis value = some groups ∧ id ∈ groups.toList) ↔
          ∃ g, t.Browsable id g ∧
            ∃ v, (axis, v) ∈ g.facetEntries registry ∧ v.folded = value.folded := by
  intro t
  have h : t.Faceted registry := after_faceted options registry commands
  refine ⟨fun id => ?_, fun id g hg => h.recorded_eq hg, fun axis value id => ?_⟩
  · rw [FacetModel.contains, SortedMap.contains_eq_isSome, Option.isSome_iff_exists]
    simp only [h.find?_eq_some_iff]
    exact ⟨fun ⟨_, g, hg, _⟩ => ⟨g, hg⟩, fun ⟨g, hg⟩ => ⟨_, g, hg, rfl⟩⟩
  · rw [h.consistent.mem_groupsFor?_iff]
    simp only [h.mem_recorded_iff]
    constructor
    · rintro ⟨v, ⟨g, hg, hv⟩, folds⟩
      exact ⟨g, hg, v, hv, folds⟩
    · rintro ⟨g, hg, v, hv, folds⟩
      exact ⟨v, ⟨g, hg, hv⟩, folds⟩

end Table

end PeerSearch
