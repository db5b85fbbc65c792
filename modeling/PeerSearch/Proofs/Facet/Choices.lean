import PeerSearch.Proofs.Facet.Consistent
import PeerSearch.Proofs.GroupIndex.Effect

/-!
# PeerSearch.Proofs.Facet.Choices -- what choosing a listed value shows

A chooser lists a value with the groups that are counted under it, and choosing it sets a filter.
Counting takes texts in lower case; filters look at the spelling and let only ASCII letters differ
in case. So a filter keeps those of the groups counted under its value that spell the value like its
label, and keeps all of them exactly when all do, as in ASCII they do.
-/

namespace PeerSearch

/-! ## Spellings that filters take for the same -/

namespace FacetValue

/-- Spellings that differ at most in the case of ASCII letters. -/
def alike : FacetValue → FacetValue → Bool
  | text s, text t => Text.sameIgnoringAsciiCase s t
  | v, w => v == w

/-- A value without letters outside ASCII. -/
def isAscii : FacetValue → Bool
  | text s => Text.isAscii s
  | _ => true

theorem folded_eq_of_alike {v w : FacetValue} (h : v.alike w = true) : v.folded = w.folded := by
  cases v <;> cases w
  case text.text s t => exact congrArg text (Text.lower_eq_of_same h)
  all_goals exact congrArg folded (beq_iff_eq.mp h)

/-- In ASCII, what is counted together is spelled alike. -/
theorem alike_of_ascii {v w : FacetValue} (hv : v.isAscii = true) (hw : w.isAscii = true)
    (h : v.folded = w.folded) : v.alike w = true := by
  cases v <;> cases w
  case text.text s t =>
    have same : Text.lower s = Text.lower t := text.inj h
    rw [Text.lower_of_ascii hv, Text.lower_of_ascii hw] at same
    exact Text.sameIgnoringAsciiCase_iff.mpr same
  all_goals first | exact beq_iff_eq.mpr h | cases h

end FacetValue

theorem Axis.isAscii_recordsAs (axis : Axis) {v : FacetValue} (h : v.isAscii = true) :
    (axis.recordsAs v).isAscii = true := by
  unfold recordsAs
  split
  · cases v with
    | text s =>
        show Text.isAscii (Text.lower s) = true
        rw [Text.lower_of_ascii h]
        exact Text.isAscii_asciiLower h
    | media | speed => rfl
  · exact h

/-! ## Filters -/

/-- The values that an axis can list: texts are not empty, and those of fields are trimmed. -/
inductive Axis.Lists : Axis → FacetValue → Prop
  | media (m : MediaType) : Lists .media (.media m)
  | field {media : MediaType} {name text : String} (trimmed : Text.trim text = text)
      (nonempty : text ≠ "") : Lists (.field media name) (.text text)
  | type {text : String} (nonempty : text ≠ "") : Lists (.property .type) (.text text)
  | speed (c : SpeedClass) : Lists (.property .speed) (.speed c)
  | vendor {text : String} (nonempty : text ≠ "") : Lists (.property .vendor) (.text text)

/-- The group says the value on the axis, spelled like it up to ASCII case. -/
def Group.Spells (g : Group) (registry : Registry) (axis : Axis) (value : FacetValue) : Prop :=
  ∃ w, g.spelling? registry axis = some w ∧ w.alike value = true

theorem Property.vendor_eq_some_iff {g : Group} {v : FacetValue} :
    vendor.valueOf? g = some v ↔ Text.trim g.vendor ≠ "" ∧ v = .text (Text.trim g.vendor) := by
  simp only [valueOf?, String.isEmpty_iff]
  rw [Option.ite_none_left_eq_some, Option.some.injEq, eq_comm (b := v)]

/-- What a group says is something that the axis can list. -/
theorem Group.lists_of_mem {g : Group} {registry : Registry} {axis : Axis} {v : FacetValue}
    (h : (axis, v) ∈ g.facetEntries registry) : axis.Lists v := by
  obtain ⟨w, hw, rfl⟩ := mem_facetEntries_iff.mp h
  cases axis with
  | media =>
      obtain rfl := Option.some.inj hw
      exact .media _
  | field media name =>
      obtain ⟨d, -, hd⟩ := Option.bind_eq_some_iff.mp hw
      obtain ⟨-, text, -, nonempty, rfl⟩ := Document.spelling?_eq_some_iff.mp hd
      exact .field (Text.trim_trim text) nonempty
  | property p =>
      cases p with
      | type =>
          rw [spelling?, Option.ite_none_left_eq_some] at hw
          obtain ⟨nonempty, heq⟩ := hw
          obtain rfl := Option.some.inj heq
          exact .type (mt Text.lower_eq_empty_iff.mp nonempty)
      | speed =>
          obtain rfl := Option.some.inj hw
          exact .speed _
      | vendor =>
          obtain ⟨nonempty, rfl⟩ := Property.vendor_eq_some_iff.mp hw
          exact .vendor nonempty

theorem Axis.Lists.filterFor? {axis : Axis} {value : FacetValue} (h : axis.Lists value)
    (registry : Registry) : ∃ f, axis.filterFor? value registry = some f := by
  cases h <;> exact ⟨_, rfl⟩

/-- A field filter looks for the spelling that the document has of the field. -/
theorem FacetFilter.hasField_iff {d : Document} {media : MediaType} {name value : String}
    (trimmed : Text.trim value = value) (nonempty : value ≠ "") :
    hasField media name value d = true ↔
      ∃ w, d.spelling? media name = some w ∧ w.alike (.text value) = true := by
  simp only [hasField, Bool.and_eq_true, beq_iff_eq, trimmed, Option.any_eq_true,
    Document.spelling?_eq_some_iff]
  constructor
  · rintro ⟨schema, text, found, same⟩
    exact ⟨_, ⟨schema, text, found, Text.ne_empty_of_same same nonempty, rfl⟩, same⟩
  · rintro ⟨w, ⟨schema, text, found, -, rfl⟩, same⟩
    exact ⟨schema, text, found, same⟩

/-- The filter for a listed value keeps the groups that spell it so. -/
theorem Axis.Lists.allows_iff {axis : Axis} {value : FacetValue} (h : axis.Lists value)
    {registry : Registry} {f : FacetFilter} (hf : axis.filterFor? value registry = some f)
    (g : Group) : f.allows g = true ↔ g.Spells registry axis value := by
  unfold Group.Spells
  cases h with
  | media m =>
      obtain rfl := Option.some.inj hf
      simp [FacetFilter.allows, Group.spelling?, FacetValue.alike]
  | field trimmed nonempty =>
      obtain rfl := Option.some.inj hf
      simp only [FacetFilter.allows, Option.any_eq_true, FacetFilter.hasField_iff trimmed nonempty,
        Group.spelling?, Option.bind_eq_some_iff]
      constructor
      · rintro ⟨d, hd, w, hw, same⟩
        exact ⟨w, ⟨d, hd, hw⟩, same⟩
      · rintro ⟨w, ⟨d, hd, hw⟩, same⟩
        exact ⟨d, hd, w, hw, same⟩
  | type nonempty =>
      obtain rfl := Option.some.inj hf
      simp only [FacetFilter.allows, Group.spelling?, Option.ite_none_left_eq_some,
        Option.some.injEq]
      rw [Text.sameIgnoringAsciiCase_comm]
      constructor
      · exact fun same => ⟨_, ⟨Text.ne_empty_of_same same nonempty, rfl⟩, same⟩
      · rintro ⟨w, ⟨-, rfl⟩, same⟩
        exact same
  | speed c =>
      obtain rfl := Option.some.inj hf
      simp [FacetFilter.allows, Group.spelling?, Property.valueOf?, FacetValue.alike]
  | vendor nonempty =>
      obtain rfl := Option.some.inj hf
      simp only [FacetFilter.allows, Group.spelling?, Property.vendor_eq_some_iff]
      rw [Text.sameIgnoringAsciiCase_comm]
      constructor
      · exact fun same => ⟨_, ⟨Text.ne_empty_of_same same nonempty, rfl⟩, same⟩
      · rintro ⟨w, ⟨-, rfl⟩, same⟩
        exact same

/-! ## Choosing a value -/

namespace FacetModel

variable {m : FacetModel} {ix : GroupIndex} {axis : Axis} {value : FacetValue} {n : Nat}
  {groups : SortedSet GroupId} {f : FacetFilter}

/-- The model holds the groups of the index as they are now. -/
structure Mirrors (m : FacetModel) (ix : GroupIndex) : Prop where
  indexed : ∀ id, m.contains id = true ↔ id ∈ ix.ids
  current : ∀ g ∈ ix.groups, ∀ e, e ∈ m.recorded g.id ↔ e ∈ g.facetEntries m.registry

/-- Passing every group of an index makes a model of them. -/
theorem addAll_mirrors (coherent : ix.Coherent) (registry : Registry) :
    ((empty registry).after (ix.groups.map .add)).Mirrors ix := by
  have distinct : (ix.groups.map Group.id).Nodup := coherent.ids_nodup
  have passed : (empty registry).after (ix.groups.map .add) =
      ix.groups.foldl add (empty registry) := List.foldl_map
  rw [passed]
  constructor
  · intro id
    rw [contains, SortedMap.contains_eq_isSome]
    constructor
    · intro indexed
      by_contra unnamed
      rw [find?_addAll_of_not_mem _ unnamed] at indexed
      cases indexed
    · intro hid
      obtain ⟨g, hg, rfl⟩ := List.mem_map.mp hid
      rw [find?_addAll_of_mem _ distinct hg]
      rfl
  · intro g hg e
    rw [recorded, find?_addAll_of_mem _ distinct hg, addAll_registry]
    rfl

theorem Mirrors.group_of_recorded (h : m.Mirrors ix) {id : GroupId} {e : FacetEntry}
    (he : e ∈ m.recorded id) : ∃ g ∈ ix.groups, g.id = id ∧ e ∈ g.facetEntries m.registry := by
  have indexed : m.contains id = true := by
    rw [contains, SortedMap.contains_eq_isSome]
    by_contra missing
    rw [Bool.not_eq_true, Option.isSome_eq_false_iff, Option.isNone_iff_eq_none] at missing
    rw [recorded, missing] at he
    cases he
  obtain ⟨g, hg, rfl⟩ := List.mem_map.mp ((h.indexed id).mp indexed)
  exact ⟨g, hg, rfl, (h.current g hg e).mp he⟩

/-- The groups counted under a value are those that say it in whatever case. -/
theorem Mirrors.mem_groups_iff (h : m.Mirrors ix) (consistent : m.Consistent)
    (counted : m.groupsFor? axis value = some groups) {g : Group} (hg : g ∈ ix.groups) :
    g.id ∈ groups.toList ↔
      ∃ w, g.spelling? m.registry axis = some w ∧ w.folded = value.folded := by
  have listed : (∃ s, m.groupsFor? axis value = some s ∧ g.id ∈ s.toList) ↔ _ :=
    consistent.mem_groupsFor?_iff
  simp only [counted, Option.some.injEq, exists_eq_left', h.current g hg,
    Group.mem_facetEntries_iff] at listed
  rw [listed]
  constructor
  · rintro ⟨v, ⟨w, hw, rfl⟩, folds⟩
    exact ⟨w, hw, (axis.folded_recordsAs w).symm.trans folds⟩
  · rintro ⟨w, hw, folds⟩
    exact ⟨_, ⟨w, hw, rfl⟩, (axis.folded_recordsAs w).trans folds⟩

/-- A filter keeps no more than what is counted under its value. -/
theorem Mirrors.allows_iff (h : m.Mirrors ix) (consistent : m.Consistent)
    (lists : axis.Lists value) (chosen : axis.filterFor? value m.registry = some f)
    (counted : m.groupsFor? axis value = some groups) {g : Group} (hg : g ∈ ix.groups) :
    f.allows g = true ↔ g.id ∈ groups.toList ∧ g.Spells m.registry axis value := by
  rw [lists.allows_iff chosen]
  refine (and_iff_right_of_imp ?_).symm
  rintro ⟨w, hw, alike⟩
  exact (h.mem_groups_iff consistent counted hg).mpr ⟨w, hw, FacetValue.folded_eq_of_alike alike⟩

/-- The filter keeps what is counted exactly when all that is counted is spelled like the value. -/
theorem Mirrors.shown_perm_iff (h : m.Mirrors ix) (consistent : m.Consistent)
    (coherent : ix.Coherent) (counted : m.groupsFor? axis value = some groups)
    (allows : ∀ g ∈ ix.groups, f.allows g = true ↔
      g.id ∈ groups.toList ∧ g.Spells m.registry axis value) :
    ((ix.groups.filter f.allows).map Group.id).Perm groups.toList ↔
      ∀ g ∈ ix.groups, g.id ∈ groups.toList → g.Spells m.registry axis value := by
  constructor
  · intro same g hg hid
    obtain ⟨k, hk, heq⟩ := List.mem_map.mp (same.mem_iff.mpr hid)
    obtain ⟨mem, shown⟩ := List.mem_filter.mp hk
    obtain rfl : k = g := List.inj_on_of_nodup_map coherent.ids_nodup mem hg heq
    exact ((allows k mem).mp shown).2
  · intro spelled
    have distinct : ((ix.groups.filter f.allows).map Group.id).Nodup :=
      coherent.ids_nodup.sublist (List.filter_sublist.map _)
    refine (List.perm_ext_iff_of_nodup distinct groups.keys_nodup).mpr fun id => ?_
    rw [List.mem_map]
    constructor
    · rintro ⟨g, hg, rfl⟩
      obtain ⟨mem, shown⟩ := List.mem_filter.mp hg
      exact ((allows g mem).mp shown).1
    · intro hid
      -- What is counted is recorded, and so it is a group of the index.
      obtain ⟨v, hv, -⟩ := consistent.mem_groupsFor?_iff.mp ⟨groups, counted, hid⟩
      obtain ⟨g, hg, rfl, -⟩ := h.group_of_recorded hv
      exact ⟨g, List.mem_filter.mpr ⟨hg, (allows g hg).mpr ⟨hid, spelled g hg hid⟩⟩, rfl⟩

/-- In ASCII, all that is counted under a listed value is spelled like it. -/
theorem Mirrors.spells_of_ascii (h : m.Mirrors ix) (consistent : m.Consistent)
    (listed : (value, n) ∈ m.values axis) (counted : m.groupsFor? axis value = some groups)
    (ascii : ∀ g ∈ ix.groups, g.id ∈ groups.toList →
      ∀ w, g.spelling? m.registry axis = some w → w.isAscii = true) :
    ∀ g ∈ ix.groups, g.id ∈ groups.toList → g.Spells m.registry axis value := by
  -- The value is the spelling of one of the groups, so it is ASCII like theirs.
  obtain ⟨⟨id, hid⟩, -⟩ := consistent.mem_values listed
  obtain ⟨k, hk, rfl, hv⟩ := h.group_of_recorded hid
  obtain ⟨u, hu, rfl⟩ := Group.mem_facetEntries_iff.mp hv
  have plain : (axis.recordsAs u).isAscii = true := by
    refine Axis.isAscii_recordsAs axis (ascii k hk ?_ u hu)
    exact (h.mem_groups_iff consistent counted hk).mpr
      ⟨u, hu, (axis.folded_recordsAs u).symm⟩
  intro g hg hgroup
  obtain ⟨w, hw, folds⟩ := (h.mem_groups_iff consistent counted hg).mp hgroup
  exact ⟨w, hw, FacetValue.alike_of_ascii (ascii g hg hgroup w hw) plain folds⟩

/-- Of a model that holds the groups of an index, every listed value has a filter, and it keeps
those of the groups counted under the value that spell it like its label up to ASCII case. It keeps
exactly the groups that are counted when all of them do, as they do in ASCII. -/
theorem listed_values_choose_groups (registry : Registry) (grouping : Bool)
    (facetCommands : List FacetCommand) (indexCommands : List IndexCommand) :
    let m := (empty registry).after facetCommands
    let ix := (GroupIndex.empty grouping).after indexCommands
    m.Mirrors ix → ∀ axis value n, (value, n) ∈ m.values axis →
      ∃ f groups, axis.filterFor? value m.registry = some f ∧
        m.groupsFor? axis value = some groups ∧ groups.size = n ∧
        (∀ g ∈ ix.groups, f.allows g = true ↔
          g.id ∈ groups.toList ∧ g.Spells m.registry axis value) ∧
        (((ix.groups.filter f.allows).map Group.id).Perm groups.toList ↔
          ∀ g ∈ ix.groups, g.id ∈ groups.toList → g.Spells m.registry axis value) ∧
        ((∀ g ∈ ix.groups, g.id ∈ groups.toList →
            ∀ w, g.spelling? m.registry axis = some w → w.isAscii = true) →
          ((ix.groups.filter f.allows).map Group.id).Perm groups.toList) := by
  intro m ix mirrors axis value n listed
  have consistent : m.Consistent := (empty_consistent registry).after facetCommands
  have coherent : ix.Coherent := GroupIndex.after_coherent grouping indexCommands
  obtain ⟨⟨id, hid⟩, groups, counted, size⟩ := consistent.mem_values listed
  obtain ⟨g, -, -, hg⟩ := mirrors.group_of_recorded hid
  have lists := Group.lists_of_mem hg
  obtain ⟨f, chosen⟩ := lists.filterFor? m.registry
  have allows : ∀ g ∈ ix.groups, f.allows g = true ↔
      g.id ∈ groups.toList ∧ g.Spells m.registry axis value :=
    fun g hg => mirrors.allows_iff consistent lists chosen counted hg
  have shown := mirrors.shown_perm_iff consistent coherent counted allows
  refine ⟨f, groups, chosen, counted, size, allows, shown, fun ascii => ?_⟩
  exact shown.mpr (mirrors.spells_of_ascii consistent listed counted ascii)

/-- Of two extensions that differ in the case of a letter outside ASCII, both are counted under the
lower-case form and its filter keeps one. -/
theorem listed_values_choose_groups_of_two_cases :
    let ix := (GroupIndex.empty true).after
      [.insert { fileName := "a.Ä", size := 1 }, .insert { fileName := "b.ä", size := 2 }]
    let m := (empty .empty).after (ix.groups.map .add)
    m.values (.property .type) = [(.text "ä", 2)] ∧
      ∃ f groups, (Axis.property .type).filterFor? (.text "ä") m.registry = some f ∧
        m.groupsFor? (.property .type) (.text "ä") = some groups ∧ groups.size = 2 ∧
        ∀ g ∈ ix.groups, f.allows g = true ↔
          g.id ∈ groups.toList ∧ g.Spells m.registry (.property .type) (.text "ä") := by
  intro ix m
  have values : m.values (.property .type) = [(.text "ä", 2)] := by decide +kernel
  have listed : (.text "ä", 2) ∈ m.values (.property .type) := by
    rw [values]
    exact List.mem_cons_self
  have mirrors : m.Mirrors ix := addAll_mirrors (GroupIndex.after_coherent true _) .empty
  obtain ⟨f, groups, chosen, counted, size, allows, -⟩ :=
    listed_values_choose_groups .empty true (ix.groups.map .add) _ mirrors _ _ _ listed
  exact ⟨values, f, groups, chosen, counted, size, allows⟩

/-- A file extension that is listed with one file and whose filter keeps none: the value is in lower
case, the file's extension is not, and the letter is outside ASCII. -/
theorem listed_extension_shows_nothing :
    let ix := (GroupIndex.empty true).after [.insert { fileName := "a.Ä", size := 1 }]
    let m := (empty .empty).after (ix.groups.map .add)
    m.values (.property .type) = [(.text "ä", 1)] ∧
      (m.groupsFor? (.property .type) (.text "ä")).map SortedSet.toList = some [⟨0⟩] ∧
      ((Axis.property .type).filterFor? (.text "ä") m.registry).map
        (fun f => ix.groups.filter f.allows) = some [] := by
  decide +kernel

end FacetModel

end PeerSearch
