import PeerSearch.Proofs.GroupIndex.HashKeys

/-!
# PeerSearch.Proofs.GroupIndex.OnePerKey -- one group for a hash while grouping is on

While grouping is on, a result with a content hash joins the group that has its hash and extension,
whenever there is one; so no second group is started under a key, and none can be orphaned.
-/

namespace PeerSearch

namespace GroupIndex

variable {ix : GroupIndex} {roster : List (GroupId × Member)}

/-! ## A step -/

/-- No two groups have the same key. -/
def OnePerKey (ix : GroupIndex) : Prop :=
  ∀ g ∈ ix.groups, ∀ k ∈ ix.groups, ∀ key,
    g.canonical.key? = some key → k.canonical.key? = some key → g.id = k.id

/-- Where each key has one group, none can be orphaned. -/
theorem Filed.not_orphans (h : ix.Filed roster) (one : ix.OnePerKey) (c : IndexCommand) :
    ¬ ix.Orphans c := by
  rintro ⟨key, holder, hholder, other, hother, held, hkey, gone, stays⟩
  obtain ⟨k, hk, hkkey⟩ := h.group_of_key held
  obtain rfl : k = holder := Option.some.inj (hk.symm.trans (h.coherent.group?_of_mem hholder))
  rw [one k hholder other hother key hkkey hkey] at gone
  exact gone stays

/-- While grouping is on, no second group is started under a key. -/
theorem Filed.perform_onePerKey (h : ix.Filed roster) (agreeing : ix.Agreeing)
    (holds : ix.HoldsKeys) (on : ix.grouping = true) (one : ix.OnePerKey) (c : IndexCommand) :
    (ix.perform c).OnePerKey := by
  have e := perform_effect h.coherent c
  have coherent := h.coherent.perform c
  -- A group with the key would have been the home of the result that starts one.
  have taken {k : Group} {id : GroupId} {r : SearchResult} {key : HashKey}
      (hk : ix.group? id = some k) (hkey : k.canonical.key? = some key)
      (homeless : ix.home? (.ofResult r) = none)
      (own : HashKey.ofFingerprint? (.ofResult r) = some key) : False := by
    obtain ⟨holder, held⟩ := Option.isSome_iff_exists.mp (holds k (mem_of_group? hk) key hkey)
    obtain ⟨g, hg, -⟩ := h.group_of_key held
    rw [home?_of_key on own, held, Option.bind_some, hg] at homeless
    cases homeless
  intro g hg k hk key hgkey hkkey
  have cases_g := agreeing.key_cases e (coherent.group?_of_mem hg) hgkey
  have cases_k := agreeing.key_cases e (coherent.group?_of_mem hk) hkkey
  rcases cases_g with ⟨g₀, hg₀, hgkey₀⟩ | ⟨r, homeless, own, hgname, -⟩
  · rcases cases_k with ⟨k₀, hk₀, hkkey₀⟩ | ⟨r, homeless, own, -, -⟩
    · have same := one g₀ (mem_of_group? hg₀) k₀ (mem_of_group? hk₀) key hgkey₀ hkkey₀
      rw [id_of_group? hg₀, id_of_group? hk₀] at same
      exact same
    · exact (taken hg₀ hgkey₀ homeless own).elim
  · rcases cases_k with ⟨k₀, hk₀, hkkey₀⟩ | ⟨-, -, -, hkname, -⟩
    · exact (taken hk₀ hkkey₀ homeless own).elim
    · exact hgname.trans hkname.symm

/-! ## The switch -/

@[simp] theorem grouping_register (ix : GroupIndex) (id : GroupId) (f : Fingerprint) :
    (ix.register id f).grouping = ix.grouping := by
  unfold register
  split
  · rfl
  · rfl

@[simp] theorem grouping_unregister (ix : GroupIndex) (id : GroupId) (f : Fingerprint) :
    (ix.unregister id f).grouping = ix.grouping := by
  unfold unregister
  repeat' split
  all_goals rfl

theorem grouping_place (ix : GroupIndex) (r : SearchResult) :
    (ix.place r).1.grouping = ix.grouping := by
  cases home : ix.home? (.ofResult r) with
  | some g => rw [place_of_home home, putGroup]
  | none => rw [place_of_homeless home, grouping_register]

theorem grouping_remove (ix : GroupIndex) (id : ResultId) :
    (ix.remove id).1.grouping = ix.grouping := by
  unfold remove
  repeat' split
  all_goals simp [putGroup, dropGroup]

theorem grouping_removeGroup (ix : GroupIndex) (id : GroupId) :
    (ix.removeGroup id).1.grouping = ix.grouping := by
  cases hg : ix.group? id with
  | none => rw [removeGroup_of_unknown hg]
  | some g => rw [removeGroup_of_known hg, grouping_unregister, dropGroup]

/-- Grouping stays on until it is switched off. -/
theorem perform_grouping (on : ix.grouping = true) {c : IndexCommand}
    (other : c ≠ .setGrouping false) : (ix.perform c).grouping = true := by
  cases c with
  | insert r =>
      cases valid : r.isValid with
      | false =>
          obtain ⟨refusal, hinsert⟩ := insert_of_invalid ix valid
          simp only [perform, hinsert]
          exact on
      | true =>
          simp only [perform, insert_of_valid valid]
          exact (grouping_place ix r).trans on
  | remove id => exact (grouping_remove ix id).trans on
  | removeGroup id => exact (grouping_removeGroup ix id).trans on
  | mark id junk =>
      simp only [perform]
      cases ix.group? id with
      | none => exact on
      | some g => exact on
  | setGrouping grouping =>
      cases grouping with
      | true => rfl
      | false => exact absurd rfl other
  | clear => exact on

/-! ## Runs -/

/-- What holds of the lookups as long as grouping is on. -/
structure Exact (ix : GroupIndex) : Prop where
  filed : ∃ roster, ix.Filed roster
  agreeing : ix.Agreeing
  holds : ix.HoldsKeys
  one : ix.OnePerKey
  on : ix.grouping = true

theorem empty_exact : (empty true).Exact where
  filed := ⟨[], empty_filed true⟩
  agreeing := after_agreeing true []
  holds := empty_holdsKeys true
  one := by
    intro g hg
    cases hg
  on := rfl

theorem Exact.perform (h : ix.Exact) {c : IndexCommand} (other : c ≠ .setGrouping false) :
    (ix.perform c).Exact := by
  obtain ⟨roster, filed⟩ := h.filed
  constructor
  · exact ⟨_, filed.perform c⟩
  · exact h.agreeing.effect filed (perform_effect filed.coherent c)
  · exact (filed.perform_holdsKeys_iff h.agreeing h.holds c).mpr (filed.not_orphans h.one c)
  · exact filed.perform_onePerKey h.agreeing h.holds h.on h.one c
  · exact perform_grouping h.on other

theorem Exact.after (h : ix.Exact) {commands : List IndexCommand}
    (on : ∀ c ∈ commands, c ≠ .setGrouping false) : (ix.after commands).Exact := by
  induction commands generalizing ix with
  | nil => exact h
  | cons c rest ih =>
      have ⟨first, others⟩ := List.forall_mem_cons.mp on
      exact ih (h.perform first) others

/-- While grouping is on, the groups with a content hash are found by it. -/
theorem findsHashed_while_grouping {commands : List IndexCommand}
    (on : ∀ c ∈ commands, c ≠ .setGrouping false) : ((empty true).after commands).FindsHashed := by
  have h := empty_exact.after on
  obtain ⟨roster, filed⟩ := h.filed
  exact filed.findsHashed_iff.mpr h.holds

end GroupIndex

end PeerSearch
