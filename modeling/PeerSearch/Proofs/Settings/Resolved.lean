import PeerSearch.Proofs.Text.Blank
import PeerSearch.Settings.Resolved

/-!
# PeerSearch.Proofs.Settings.Resolved -- the command line and the checks

Values of the command line stand over those of the layers before anything is checked, so a setting
that is given there is the one in effect, and what the layers say about it has no bearing on the
result. The values themselves are checked one after the other; a fault names the value that is in
effect for its setting.
-/

namespace PeerSearch

/-! ## Checks one after the other -/

theorem bind_eq_ok {α β ε : Type} {x : Except ε α} {f : α → Except ε β} {b : β}
    (h : x >>= f = .ok b) : ∃ a, x = .ok a ∧ f a = .ok b := by
  cases x with
  | error e => cases h
  | ok a => exact ⟨a, rfl, h⟩

theorem bind_eq_error {α β ε : Type} {x : Except ε α} {f : α → Except ε β} {e : ε}
    (h : x >>= f = .error e) : x = .error e ∨ ∃ a, x = .ok a ∧ f a = .error e := by
  cases x with
  | error e' =>
      cases h
      exact .inl rfl
  | ok a => exact .inr ⟨a, rfl, h⟩

/-! ## Values of the command line over others -/

/-- Two settings agree on whatever the command line does not give. -/
structure RawSettings.AgreeBeyond (o : Overrides) (q r : RawSettings) : Prop where
  groupResults : o.groupResults = none → q.groupResults = r.groupResults
  junkPolicy : o.junkPolicy = none → q.junkPolicy = r.junkPolicy
  spamThreshold : o.spamThreshold = none → q.spamThreshold = r.spamThreshold
  realTimeSort : o.realTimeSort = none → q.realTimeSort = r.realTimeSort
  sort : o.sort = none → q.sort = r.sort
  descending : o.descending = none → q.descending = r.descending
  maxSearches : o.maxSearches = none → q.maxSearches = r.maxSearches
  extensions : o.extensions = none → q.extensions = r.extensions
  vendor : o.vendor = none → q.vendor = r.vendor
  limit : o.limit = none → q.limit = r.limit

/-- A value that is given hides what would be there without it. -/
theorem or_congr_of_none {α β : Type} {given : Option β} {f : β → α} {a b : Option α}
    (h : given = none → a = b) : (given.map f).or a = (given.map f).or b := by
  cases given with
  | none => exact h rfl
  | some v => rfl

/-- What the command line gives hides what else is said about it. -/
theorem RawSettings.override_eq {o : Overrides} {q r : RawSettings} (agree : q.AgreeBeyond o r) :
    q.override o = r.override o := by
  have plain {α : Type} {given a b : Option α} (h : given = none → a = b) :
      given.or a = given.or b := by
    simpa using or_congr_of_none (f := id) h
  rw [RawSettings.override, RawSettings.override, RawSettings.mk.injEq]
  exact ⟨plain agree.groupResults, or_congr_of_none agree.junkPolicy, plain agree.spamThreshold,
    plain agree.realTimeSort, or_congr_of_none agree.sort, plain agree.descending,
    plain agree.maxSearches, plain agree.extensions, plain agree.vendor, plain agree.limit⟩

namespace Settings

variable {o : Overrides} {q r : RawSettings} {s : Settings}

/-! ## Each check -/

theorem checkPolicy_label (p : JunkPolicy) : checkPolicy (some p.label) = .ok p := by
  cases p <;> decide +kernel

theorem checkPolicy_eq_error {given : Option String} {f : Fault}
    (h : checkPolicy given = .error f) :
    ∃ value, given = some value ∧ f = .junkPolicy value := by
  cases given with
  | none => cases h
  | some value =>
      unfold checkPolicy at h
      dsimp only at h
      split at h
      · cases h
      · cases h
        exact ⟨value, rfl, rfl⟩

theorem checkThreshold_eq_ok_iff {given : Option Binary32} {t : Binary32} :
    checkThreshold given = .ok t ↔
      given.getD ({} : Options).spamThreshold = t ∧ t.inUnitInterval = true := by
  unfold checkThreshold
  dsimp only
  split
  · next inside =>
    rw [Except.ok.injEq]
    exact ⟨fun same => ⟨same, same ▸ inside⟩, And.left⟩
  · next outside =>
    refine iff_of_false nofun ?_
    rintro ⟨rfl, inside⟩
    exact outside inside

theorem checkThreshold_eq_error {given : Option Binary32} {f : Fault}
    (h : checkThreshold given = .error f) : ∃ t, given = some t ∧ f = .spamThreshold t := by
  cases given with
  | none => cases h
  | some t =>
      unfold checkThreshold at h
      dsimp only [Option.getD_some] at h
      split at h
      · cases h
      · cases h
        exact ⟨t, rfl, rfl⟩

theorem checkSearches_eq_ok_iff {given : Option Nat} {n : Nat} :
    checkSearches given = .ok n ↔ given.getD ({} : Options).maxSearches = n ∧ 1 ≤ n := by
  unfold checkSearches
  dsimp only
  split
  · next none =>
    refine iff_of_false nofun ?_
    rintro ⟨rfl, some⟩
    omega
  · next some =>
    rw [Except.ok.injEq]
    exact ⟨fun same => ⟨same, by omega⟩, And.left⟩

theorem checkSearches_eq_error {given : Option Nat} {f : Fault}
    (h : checkSearches given = .error f) : given = some 0 ∧ f = .maxSearches := by
  cases given with
  | none => cases h
  | some n =>
      unfold checkSearches at h
      dsimp only [Option.getD_some] at h
      split at h
      · next none =>
        cases h
        exact ⟨congrArg some none, rfl⟩
      · cases h

/-- Cleaning a vendor trims it; only a blank one is no vendor. -/
theorem cleanVendor_eq (v : String) :
    cleanVendor v = if Text.isBlankText v then none else some (Text.trim v) := by
  rw [← Text.trim_isEmpty]
  rfl

/-- The direction that goes with a sort key. -/
def directionOf (descending : Option Bool) : SortDirection :=
  if descending.getD true then .descending else .ascending

theorem label_reads (k : SortKey) :
    Text.trim k.label = k.label ∧ (k.label == "" || k.label == "none") = false ∧
      SortKey.read? k.label = some k := by
  cases k <;> decide +kernel

theorem checkSort_label (k : SortKey) (descending : Option Bool) :
    checkSort (some k.label) descending = .ok (some ⟨k, directionOf descending⟩) := by
  obtain ⟨trimmed, word, read⟩ := label_reads k
  simp only [checkSort, Option.map_some, trimmed, word, read, Bool.false_eq_true, if_false]
  rfl

theorem checkSort_direction {given : Option String} {descending : Option Bool} {order : SortOrder}
    (h : checkSort given descending = .ok (some order)) :
    order.direction = directionOf descending := by
  unfold checkSort at h
  dsimp only at h
  split at h
  · cases h
  · split at h
    · cases h
    · split at h
      · cases h
        rfl
      · cases h

theorem checkSort_eq_error {given : Option String} {descending : Option Bool} {f : Fault}
    (h : checkSort given descending = .error f) :
    ∃ value, given.map Text.trim = some value ∧ f = .sort value := by
  unfold checkSort at h
  dsimp only at h
  split at h
  · cases h
  · next value same =>
    split at h
    · cases h
    · split at h
      · cases h
      · cases h
        exact ⟨value, same, rfl⟩

/-! ## All checks -/

/-- How settings in effect come from those that were checked. -/
structure Checked (r : RawSettings) (s : Settings) : Prop where
  groupResults : s.options.groupResults = r.groupResults.getD ({} : Options).groupResults
  junkPolicy : checkPolicy r.junkPolicy = .ok s.options.junkPolicy
  spamThreshold : checkThreshold r.spamThreshold = .ok s.options.spamThreshold
  realTimeSort : s.options.realTimeSort = r.realTimeSort.getD ({} : Options).realTimeSort
  sort : checkSort r.sort r.descending = .ok s.options.sort
  maxSearches : checkSearches r.maxSearches = .ok s.options.maxSearches
  extensions : s.extensions = (r.extensions.map sanitizeExtensions).getD []
  vendor : s.vendor = r.vendor.bind cleanVendor
  limit : s.limit = r.limit

theorem checked_of_resolve (h : resolve r = .ok s) : Checked r s := by
  obtain ⟨policy, hpolicy, h⟩ := bind_eq_ok h
  obtain ⟨threshold, hthreshold, h⟩ := bind_eq_ok h
  obtain ⟨searches, hsearches, h⟩ := bind_eq_ok h
  obtain ⟨sort, hsort, h⟩ := bind_eq_ok h
  obtain rfl := Except.ok.inj h
  exact ⟨rfl, hpolicy, hthreshold, rfl, hsort, hsearches, rfl, rfl, rfl⟩

/-- A fault is that of one of the checks. -/
theorem fault_of_resolve {f : Fault} (h : resolve r = .error f) :
    checkPolicy r.junkPolicy = .error f ∨ checkThreshold r.spamThreshold = .error f ∨
      checkSearches r.maxSearches = .error f ∨ checkSort r.sort r.descending = .error f := by
  rcases bind_eq_error h with bad | ⟨policy, -, h⟩
  · exact .inl bad
  rcases bind_eq_error h with bad | ⟨threshold, -, h⟩
  · exact .inr (.inl bad)
  rcases bind_eq_error h with bad | ⟨searches, -, h⟩
  · exact .inr (.inr (.inl bad))
  rcases bind_eq_error h with bad | ⟨sort, -, h⟩
  · exact .inr (.inr (.inr bad))
  · cases h

/-- Settings that pass the checks keep at least one search open. -/
theorem resolve_maxSearches (h : resolve r = .ok s) : 1 ≤ s.options.maxSearches :=
  (checkSearches_eq_ok_iff.mp (checked_of_resolve h).maxSearches).2

/-! ## The command line wins -/

/-- Whatever the command line gives is in effect. -/
structure InEffect (o : Overrides) (s : Settings) : Prop where
  groupResults : ∀ b ∈ o.groupResults, s.options.groupResults = b
  junkPolicy : ∀ p ∈ o.junkPolicy, s.options.junkPolicy = p
  spamThreshold : ∀ t ∈ o.spamThreshold, s.options.spamThreshold = t
  realTimeSort : ∀ b ∈ o.realTimeSort, s.options.realTimeSort = b
  /-- A sort key is in effect with some direction. -/
  sort : ∀ k ∈ o.sort, ∃ direction, s.options.sort = some ⟨k, direction⟩
  /-- A direction is in effect with whatever sort key there is. -/
  descending : ∀ b ∈ o.descending, ∀ order ∈ s.options.sort,
    order.direction = if b then .descending else .ascending
  maxSearches : ∀ n ∈ o.maxSearches, s.options.maxSearches = n
  extensions : ∀ xs ∈ o.extensions, s.extensions = sanitizeExtensions xs
  /-- A vendor is in effect without the white space around it, and a blank one is none. -/
  vendor : ∀ v ∈ o.vendor,
    (Text.isBlankText v = false → s.vendor = some (Text.trim v)) ∧
      (Text.isBlankText v = true → s.vendor = none)
  limit : ∀ n ∈ o.limit, s.limit = some n

theorem inEffect_of_resolve (h : resolve (r.override o) = .ok s) : InEffect o s := by
  have checked := checked_of_resolve h
  constructor
  case groupResults =>
    rintro b given
    rw [checked.groupResults, RawSettings.override, given]
    rfl
  case junkPolicy =>
    rintro p given
    have known := checked.junkPolicy
    rw [RawSettings.override, given] at known
    exact (Except.ok.inj ((checkPolicy_label p).symm.trans known)).symm
  case spamThreshold =>
    rintro t given
    have known := checkThreshold_eq_ok_iff.mp checked.spamThreshold
    rw [RawSettings.override, given] at known
    exact known.1.symm
  case realTimeSort =>
    rintro b given
    rw [checked.realTimeSort, RawSettings.override, given]
    rfl
  case sort =>
    rintro k given
    have known := checked.sort
    rw [RawSettings.override, given] at known
    exact ⟨_, (Except.ok.inj ((checkSort_label k _).symm.trans known)).symm⟩
  case descending =>
    rintro b given order active
    have known := checked.sort
    rw [active] at known
    rw [checkSort_direction known, RawSettings.override, given]
    rfl
  case maxSearches =>
    rintro n given
    have known := checkSearches_eq_ok_iff.mp checked.maxSearches
    rw [RawSettings.override, given] at known
    exact known.1.symm
  case extensions =>
    rintro xs given
    rw [checked.extensions, RawSettings.override, given]
    rfl
  case vendor =>
    rintro v given
    rw [checked.vendor, RawSettings.override, given, Option.some_or, Option.bind_some,
      cleanVendor_eq]
    exact ⟨fun letters => if_neg (by simp [letters]), fun blank => if_pos blank⟩
  case limit =>
    rintro n given
    rw [checked.limit, RawSettings.override, given]
    rfl

/-- The value that the fault names is the one in effect: that of the command line if it gives one,
and otherwise that of the layers. Policies and sort keys of the command line have no fault. -/
def Fault.ComesFrom (o : Overrides) (r : RawSettings) : Fault → Prop
  | .junkPolicy value => o.junkPolicy = none ∧ r.junkPolicy = some value
  | .spamThreshold t => o.spamThreshold.or r.spamThreshold = some t
  | .maxSearches => o.maxSearches.or r.maxSearches = some 0
  | .sort value => o.sort = none ∧ r.sort.map Text.trim = some value

theorem comesFrom_of_resolve {f : Fault} (h : resolve (r.override o) = .error f) :
    f.ComesFrom o r := by
  rcases fault_of_resolve h with bad | bad | bad | bad
  · cases given : o.junkPolicy with
    | none =>
        obtain ⟨value, known, rfl⟩ := checkPolicy_eq_error bad
        rw [RawSettings.override, given] at known
        exact ⟨given, known⟩
    | some p =>
        rw [RawSettings.override, given] at bad
        cases (checkPolicy_label p).symm.trans bad
  · obtain ⟨t, known, rfl⟩ := checkThreshold_eq_error bad
    exact known
  · obtain ⟨known, rfl⟩ := checkSearches_eq_error bad
    exact known
  · cases given : o.sort with
    | none =>
        obtain ⟨value, known, rfl⟩ := checkSort_eq_error bad
        rw [RawSettings.override, given] at known
        exact ⟨given, known⟩
    | some k =>
        rw [RawSettings.override, given] at bad
        cases (checkSort_label k _).symm.trans bad

/-- What layers say about a setting that the command line gives has no bearing: settings that agree
on all others come to the same result, the same settings in effect or the same fault. In effect are
the values of the command line, a threshold in the unit interval, and one search at least; and a
fault is never about a value that the command line hides. -/
theorem command_line_wins {o : Overrides} {q r : RawSettings} (agree : q.AgreeBeyond o r) :
    resolve (q.override o) = resolve (r.override o) ∧
      (∀ s, resolve (q.override o) = .ok s →
        InEffect o s ∧ s.options.spamThreshold.isNaN = false ∧
          Binary32.zero.le s.options.spamThreshold = true ∧
          s.options.spamThreshold.le .one = true ∧ 1 ≤ s.options.maxSearches) ∧
      ∀ f, resolve (q.override o) = .error f → f.ComesFrom o q := by
  refine ⟨by rw [RawSettings.override_eq agree], fun s h => ?_, fun f => comesFrom_of_resolve⟩
  have inside := (checkThreshold_eq_ok_iff.mp (checked_of_resolve h).spamThreshold).2
  obtain ⟨low, high⟩ := Bool.and_eq_true_iff.mp inside
  have number : s.options.spamThreshold.isNaN = false := by
    simp only [Binary32.le, Bool.and_eq_true, Bool.not_eq_true'] at low
    exact low.1.2
  exact ⟨inEffect_of_resolve h, number, low, high, resolve_maxSearches h⟩

/-- A policy and a number of searches that cannot be are no fault when the command line gives
others; the sort key of a layer then has the direction of the command line, and the vendor of the
command line is in effect without the white space around it. -/
theorem command_line_wins_over_faults :
    let o : Overrides :=
      { junkPolicy := some .sink, maxSearches := some 3, descending := some false,
        vendor := some " LIME\t" }
    let q : RawSettings :=
      { junkPolicy := some "bury", maxSearches := some 0, sort := some " Count ",
        descending := some true, vendor := some "BEAR" }
    let r : RawSettings := { sort := some " Count " }
    q.AgreeBeyond o r ∧ resolve (q.override o) = resolve (r.override o) ∧
      (resolve q).toOption = none ∧
      ∃ s, resolve (q.override o) = .ok s ∧ s.options.sort = some ⟨.count, .ascending⟩ ∧
        InEffect o s ∧ s.vendor = some "LIME" := by
  intro o q r
  have agree : q.AgreeBeyond o r :=
    { groupResults := fun _ => rfl, junkPolicy := nofun, spamThreshold := fun _ => rfl
      realTimeSort := fun _ => rfl, sort := fun _ => rfl, descending := nofun
      maxSearches := nofun, extensions := fun _ => rfl, vendor := nofun
      limit := fun _ => rfl }
  obtain ⟨same, effects, -⟩ := command_line_wins agree
  have sorted : (resolve (q.override o)).toOption.map (·.options.sort) =
      some (some ⟨.count, .ascending⟩) := by decide +kernel
  obtain ⟨s, passes, order⟩ := Option.map_eq_some_iff.mp sorted
  cases resolves : resolve (q.override o) with
  | error f =>
      rw [resolves] at passes
      cases passes
  | ok s' =>
      rw [resolves] at passes same
      obtain rfl := Option.some.inj passes
      obtain ⟨inEffect, -⟩ := effects s' resolves
      have vendor : s'.vendor = some (Text.trim " LIME\t") :=
        (inEffect.vendor " LIME\t" rfl).1 (by decide)
      have trimmed : Text.trim " LIME\t" = "LIME" := by decide
      exact ⟨agree, same, by decide +kernel, s', rfl, order, inEffect, trimmed ▸ vendor⟩

end Settings

end PeerSearch
