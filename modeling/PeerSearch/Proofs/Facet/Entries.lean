import Mathlib
import PeerSearch.Facet.Model
import PeerSearch.Proofs.SortedMap
import PeerSearch.Proofs.Text.Blank
import PeerSearch.Proofs.Text.LowerCase

/-!
# PeerSearch.Proofs.Facet.Entries -- what a group says on an axis

A group says at most one thing on an axis, in one spelling. What is recorded of it is that spelling,
in lower case for a file extension; what filters look at is the spelling itself.
-/

namespace PeerSearch

/-! ## Spellings -/

/-- The text of a field of the document, without white space at its ends; no text for a field that
is blank or of another family. -/
def Document.spelling? (d : Document) (media : MediaType) (name : String) : Option FacetValue :=
  if MediaType.ofSchema d.schema = media then
    ((d.value? name).map Text.trim).bind fun text => if text = "" then none else some (.text text)
  else none

/-- What the group says on an axis, as it is written there. -/
def Group.spelling? (g : Group) (registry : Registry) : Axis → Option FacetValue
  | .media => some (.media (g.mediaType registry))
  | .field media name => g.summary.document.bind fun d => d.spelling? media name
  | .property .type => if g.extension = "" then none else some (.text g.extension)
  | .property .speed => Property.speed.valueOf? g
  | .property .vendor => Property.vendor.valueOf? g

/-- The form in which a spelling is recorded. -/
def Axis.recordsAs (axis : Axis) (spelling : FacetValue) : FacetValue :=
  if axis = .property .type then spelling.folded else spelling

theorem Document.spelling?_eq_some_iff {d : Document} {media : MediaType} {name : String}
    {v : FacetValue} : d.spelling? media name = some v ↔
      MediaType.ofSchema d.schema = media ∧
        ∃ text, d.value? name = some text ∧ Text.trim text ≠ "" ∧ v = .text (Text.trim text) := by
  unfold spelling?
  split
  · next same =>
    rw [Option.bind_eq_some_iff]
    simp only [Option.map_eq_some_iff, same, true_and]
    constructor
    · rintro ⟨_, ⟨text, found, rfl⟩, h⟩
      split at h
      · cases h
      · next nonempty => exact ⟨text, found, nonempty, (Option.some.inj h).symm⟩
    · rintro ⟨text, found, nonempty, rfl⟩
      exact ⟨_, ⟨text, found, rfl⟩, if_neg nonempty⟩
  · next other =>
    constructor
    · intro h
      cases h
    · exact fun h => absurd h.1 other

theorem FacetValue.folded_folded (v : FacetValue) : v.folded.folded = v.folded := by
  cases v with
  | text s => exact congrArg text (Text.lower_lower s)
  | media | speed => rfl

theorem Axis.folded_recordsAs (axis : Axis) (v : FacetValue) :
    (axis.recordsAs v).folded = v.folded := by
  unfold recordsAs
  split
  · exact v.folded_folded
  · rfl

/-! ## Entries -/

theorem Document.mem_facetEntries_iff {d : Document} {axis : Axis} {v : FacetValue} :
    (axis, v) ∈ d.facetEntries ↔
      ∃ media name, axis = .field media name ∧ d.spelling? media name = some v := by
  simp only [facetEntries, List.mem_filterMap, spelling?_eq_some_iff]
  constructor
  · rintro ⟨⟨name, text⟩, hentry, h⟩
    simp only [String.isEmpty_iff] at h
    split at h
    · cases h
    · next nonempty =>
      obtain ⟨rfl, rfl⟩ := Prod.mk.inj (Option.some.inj h)
      exact ⟨_, name, rfl, rfl, text, (SortedMap.mem_entries_iff _).mp hentry, nonempty, rfl⟩
  · rintro ⟨_, name, rfl, rfl, text, found, nonempty, rfl⟩
    refine ⟨(name, text), (SortedMap.mem_entries_iff _).mpr found, ?_⟩
    simp [String.isEmpty_iff, nonempty]

theorem Group.valueOf?_eq (g : Group) (registry : Registry) (p : Property) :
    p.valueOf? g = (g.spelling? registry (.property p)).map (Axis.recordsAs (.property p)) := by
  cases p with
  | type =>
      rw [Property.valueOf?, spelling?]
      by_cases empty : g.extension = ""
      · simp [empty]
      · simp [empty, String.isEmpty_iff, Axis.recordsAs, FacetValue.folded]
  | speed | vendor =>
      rw [spelling?]
      exact (Option.map_id' ..).symm

theorem Property.mem_all (p : Property) : p ∈ all := by
  cases p <;> decide

/-- What is recorded of a group on an axis is the spelling there. -/
theorem Group.mem_facetEntries_iff {g : Group} {registry : Registry} {axis : Axis}
    {v : FacetValue} : (axis, v) ∈ g.facetEntries registry ↔
      ∃ w, g.spelling? registry axis = some w ∧ v = axis.recordsAs w := by
  rw [facetEntries, List.mem_cons, List.mem_append, List.mem_filterMap]
  have inDocument : (axis, v) ∈ (g.summary.document.map Document.facetEntries).getD [] ↔
      ∃ media name, axis = .field media name ∧ g.spelling? registry axis = some v := by
    cases hd : g.summary.document with
    | none =>
        refine iff_of_false List.not_mem_nil ?_
        rintro ⟨media, name, rfl, h⟩
        rw [spelling?, hd] at h
        cases h
    | some d =>
        rw [Option.map_some, Option.getD_some, Document.mem_facetEntries_iff]
        refine exists_congr fun media => exists_congr fun name => and_congr_right ?_
        rintro rfl
        rw [spelling?, hd, Option.bind_some]
  rw [inDocument]
  cases axis with
  | media => simp [spelling?, Axis.recordsAs]
  | field media name => simp [Axis.recordsAs]
  | property p =>
      simp only [valueOf?_eq g registry, Option.map_map, Prod.mk.injEq, reduceCtorEq, false_and,
        exists_const, false_or, exists_false]
      constructor
      · rintro ⟨q, -, h⟩
        obtain ⟨w, hw, heq⟩ := Option.map_eq_some_iff.mp h
        obtain ⟨hp, rfl⟩ := Prod.mk.inj heq
        obtain rfl : q = p := Axis.property.inj hp
        exact ⟨w, hw, rfl⟩
      · rintro ⟨w, hw, rfl⟩
        refine ⟨p, p.mem_all, ?_⟩
        rw [hw]
        rfl

/-- A list of entries with one for each axis at most. -/
def OneEach (entries : List FacetEntry) : Prop :=
  (entries.map (·.1)).Nodup

theorem OneEach.nodup {entries : List FacetEntry} (h : OneEach entries) : entries.Nodup :=
  List.Nodup.of_map _ h

theorem OneEach.unique {entries : List FacetEntry} (h : OneEach entries) {axis : Axis}
    {v w : FacetValue} (hv : (axis, v) ∈ entries) (hw : (axis, w) ∈ entries) : v = w :=
  (Prod.mk.inj (List.inj_on_of_nodup_map h hv hw rfl)).2

theorem Document.facetEntries_oneEach (d : Document) : OneEach d.facetEntries := by
  have names := List.pairwise_map.mp d.fields.keys_nodup
  refine List.pairwise_map.mpr (names.filterMap _ ?_)
  intro a b other e he e' he' same
  simp only [Option.ite_none_left_eq_some, Option.some.injEq] at he he'
  rw [← he.2, ← he'.2] at same
  exact other (Axis.field.inj same).2

theorem Group.properties_oneEach (g : Group) :
    OneEach (Property.all.filterMap fun p => (p.valueOf? g).map (.property p, ·)) := by
  have names : Property.all.Pairwise (· ≠ ·) := by decide
  refine List.pairwise_map.mpr (names.filterMap _ ?_)
  intro p q other e he e' he' same
  obtain ⟨_, -, rfl⟩ := Option.map_eq_some_iff.mp he
  obtain ⟨_, -, rfl⟩ := Option.map_eq_some_iff.mp he'
  exact other (Axis.property.inj same)

theorem Group.facetEntries_oneEach (g : Group) (registry : Registry) :
    OneEach (g.facetEntries registry) := by
  have document : OneEach ((g.summary.document.map Document.facetEntries).getD []) := by
    cases g.summary.document with
    | none => exact .nil
    | some d => exact d.facetEntries_oneEach
  have field {e : FacetEntry}
      (he : e ∈ (g.summary.document.map Document.facetEntries).getD []) :
      ∃ media name, e.1 = .field media name := by
    cases hd : g.summary.document with
    | none =>
        rw [hd] at he
        cases he
    | some d =>
        rw [hd] at he
        obtain ⟨media, name, h, -⟩ := Document.mem_facetEntries_iff.mp he
        exact ⟨media, name, h⟩
  have property {e : FacetEntry}
      (he : e ∈ Property.all.filterMap fun p => (p.valueOf? g).map (.property p, ·)) :
      ∃ p, e.1 = .property p := by
    obtain ⟨p, -, h⟩ := List.mem_filterMap.mp he
    obtain ⟨_, -, rfl⟩ := Option.map_eq_some_iff.mp h
    exact ⟨p, rfl⟩
  -- The three kinds of axes do not meet.
  rw [OneEach, facetEntries, List.map_cons, List.map_append, List.nodup_cons, List.nodup_append']
  refine ⟨?_, document, g.properties_oneEach, ?_⟩
  · intro h
    rcases List.mem_append.mp h with h | h
    · obtain ⟨e, he, heq⟩ := List.mem_map.mp h
      obtain ⟨media, name, hfield⟩ := field he
      cases heq.symm.trans hfield
    · obtain ⟨e, he, heq⟩ := List.mem_map.mp h
      obtain ⟨p, hproperty⟩ := property he
      cases heq.symm.trans hproperty
  · intro axis h h'
    obtain ⟨e, he, rfl⟩ := List.mem_map.mp h
    obtain ⟨e', he', heq⟩ := List.mem_map.mp h'
    obtain ⟨media, name, hfield⟩ := field he
    obtain ⟨p, hproperty⟩ := property he'
    cases hfield.symm.trans (heq.symm.trans hproperty)

end PeerSearch
