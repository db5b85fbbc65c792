import PeerSearch.Proofs.GroupIndex.Accepted
import PeerSearch.Proofs.Summary

/-!
# PeerSearch.Proofs.GroupIndex.Summaries -- groups show what their members amount to

A group takes a member that joins into account and sums up the rest again when one leaves. Either
way its summary is that of the members that it has, as if no other had ever been there; what the
summary says of them is `Summary.Describes`.
-/

namespace PeerSearch

/-! ## One group -/

namespace Group

/-- The summary is that of the members, all of which are fit for a table. -/
structure Summed (g : Group) : Prop where
  summary : g.summary = .ofMembers g.canonical g.others
  valid : ∀ m ∈ g.members, m.result.isValid = true

variable {g g' : Group}

theorem summed_single (id : GroupId) {m : Member} (valid : m.result.isValid = true) :
    (single id m).Summed := by
  refine ⟨rfl, fun n hn => ?_⟩
  rw [members_single, List.mem_singleton] at hn
  exact hn ▸ valid

theorem Summed.push (h : g.Summed) {m : Member} (valid : m.result.isValid = true) :
    (g.push m).Summed := by
  constructor
  · show g.summary.absorb m.result = Summary.ofMembers g.canonical (g.others ++ [m])
    rw [h.summary, Summary.ofMembers, Summary.ofMembers, List.foldl_append]
    rfl
  · intro n hn
    rw [members_push, List.mem_append, List.mem_singleton] at hn
    rcases hn with hn | rfl
    · exact h.valid n hn
    · exact valid

/-- Whatever the summary was before a member leaves, what is left is summed up again. -/
theorem summary_of_detach {id : ResultId} (rest : g.detach? id = some g') :
    g'.summary = .ofMembers g'.canonical g'.others := by
  unfold detach? at rest
  cases hm : g.members.eraseP (·.id == id) with
  | nil => simp [hm, withMembers?] at rest
  | cons m others =>
      rw [hm, withMembers?, Option.some.injEq] at rest
      subst rest
      rfl

theorem Summed.detach (h : g.Summed) {id : ResultId} (rest : g.detach? id = some g') :
    g'.Summed :=
  ⟨summary_of_detach rest, fun m hm => h.valid m (mem_members_of_detach rest hm)⟩

theorem Summed.mark (h : g.Summed) (junk : Bool) : (g.mark junk).Summed :=
  ⟨h.summary, h.valid⟩

theorem Summed.describes (h : g.Summed) : g.summary.Describes g.results := by
  rw [h.summary]
  exact Summary.describes_ofMembers h.valid

/-- Nothing but the results of a group goes into its summary. -/
theorem Summed.summary_eq (h : g.Summed) (h' : g'.Summed) (same : g.results = g'.results) :
    g.summary = g'.summary := by
  obtain ⟨first, others⟩ : g.canonical.result = g'.canonical.result ∧
      g.others.map (·.result) = g'.others.map (·.result) := List.cons.inj same
  have fold (k : Group) : Summary.ofMembers k.canonical k.others =
      (k.others.map (·.result)).foldl Summary.absorb (.ofResult k.canonical.result) := by
    rw [Summary.ofMembers, List.foldl_map]
  rw [h.summary, h'.summary, fold, fold, first, others]

theorem spamScore_of_unmarked (unmarked : g.userJunk = none) :
    g.spamScore = g.summary.spamScore := by
  rw [spamScore, unmarked]

end Group

/-! ## All groups -/

namespace GroupIndex

variable {ix ix' : GroupIndex}

/-- Every group is summed up. -/
def AllSummed (ix : GroupIndex) : Prop :=
  ∀ g ∈ ix.groups, g.Summed

theorem AllSummed.put (h : ix.AllSummed) {g : Group} (summed : g.Summed)
    (groups : ix'.groups = (ix.putGroup g).groups) : ix'.AllSummed := by
  intro k hk
  rw [groups] at hk
  rcases mem_putGroup hk with rfl | hk
  · exact summed
  · exact h k hk

theorem AllSummed.effect (h : ix.AllSummed) {new : List Member} (e : ix.Effect new ix') :
    ix'.AllSummed := by
  cases e with
  | kept grouping => exact h
  | joined r g valid home =>
      have before := h g (mem_of_group? (home?_spec home))
      exact h.put (before.push (m := ix.nextMember r) valid) rfl
  | started r valid homeless =>
      intro k hk
      rcases List.mem_append.mp hk with hk | hk
      · exact h k hk
      · rw [List.mem_singleton.mp hk]
        exact Group.summed_single _ valid
  | marked g junk live => exact h.put ((h g (mem_of_group? live)).mark junk) rfl
  | left id g g' live member other rest => exact h.put ((h g (mem_of_group? live)).detach rest) rfl
  | succeeded g g' live rest => exact h.put ((h g (mem_of_group? live)).detach rest) rfl
  | dropped g live => exact fun k hk => h k (List.mem_of_mem_filter hk)
  | cleared => exact fun k hk => absurd hk List.not_mem_nil

theorem after_allSummed (grouping : Bool) (commands : List IndexCommand) :
    ((empty grouping).after commands).AllSummed := by
  refine (after_keeps (P := fun ix => ix.Coherent ∧ ix.AllSummed) ?_ ?_ commands).2
  · exact ⟨coherent_empty grouping, fun k hk => absurd hk List.not_mem_nil⟩
  · rintro ix c ⟨coherent, h⟩
    exact ⟨coherent.perform c, h.effect (perform_effect coherent c)⟩

/-- In every state, what a group shows of its members describes those that it has. Groups with the
same results in another order say the same, who came first aside; with the same results in the same
order they say the same altogether, whatever results have joined and left them before. -/
theorem summaries_describe_members (grouping : Bool) (commands : List IndexCommand) :
    let ix := (empty grouping).after commands
    (∀ g ∈ ix.groups, g.summary.Describes g.results ∧
        (g.userJunk = none → g.spamScore = g.summary.spamScore)) ∧
      ∀ (grouping' : Bool) (commands' : List IndexCommand),
        ∀ g ∈ ix.groups, ∀ k ∈ ((empty grouping').after commands').groups,
          (g.results.Perm k.results → g.summary.Alike k.summary) ∧
            (g.results = k.results → g.summary = k.summary) := by
  intro ix
  have summed : ix.AllSummed := after_allSummed grouping commands
  refine ⟨?_, ?_⟩
  · intro g hg
    exact ⟨(summed g hg).describes, Group.spamScore_of_unmarked⟩
  · intro grouping' commands' g hg k hk
    have here := summed g hg
    have there := after_allSummed grouping' commands' k hk
    exact ⟨here.describes.alike_of_perm there.describes, here.summary_eq there⟩

end GroupIndex

end PeerSearch
