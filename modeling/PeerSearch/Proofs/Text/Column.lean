import Mathlib
import PeerSearch.Report.Plain
import PeerSearch.Proofs.Text.Width

/-!
# PeerSearch.Proofs.Text.Column -- when a cut text fits

Whether a text is cut is decided by the columns that it takes as a whole, and where it is cut by the
columns that its characters take one by one. A control character takes a column within a text and
none on its own, so a text cut behind one is wider than it was asked to be. `CutsFit` says for which
texts the two ways of counting agree well enough, for every number of columns; for a text whose
characters are drawn one by one, these are the texts with no column behind a control character.
-/

namespace PeerSearch.Text

/-! ## Where a text is cut -/

/-- Columns that a character is reckoned with when a text is cut. -/
def cutWidth (c : Char) : Nat :=
  (charWidth? c).getD 0

/-- Columns that a text is reckoned with when it is cut. -/
def reckoned (cs : List Char) : Nat :=
  (cs.map cutWidth).sum

@[simp]
theorem reckoned_nil : reckoned [] = 0 := rfl

@[simp]
theorem reckoned_cons (c : Char) (cs : List Char) :
    reckoned (c :: cs) = cutWidth c + reckoned cs := by
  simp [reckoned]

@[simp]
theorem reckoned_append (xs ys : List Char) :
    reckoned (xs ++ ys) = reckoned xs + reckoned ys := by
  simp [reckoned]

theorem fitting_cons (w used : Nat) (c : Char) (rest : List Char) :
    fitting w used (c :: rest) =
      if w < used + cutWidth c + 1 then [] else c :: fitting w (used + cutWidth c) rest := rfl

/-- The front of a text that leaves room for the mark in `w` columns, `used` of them being taken,
and with one more character would not. -/
def IsFront (w used : Nat) (cs front : List Char) : Prop :=
  ∃ back, cs = front ++ back ∧ used + reckoned front + 1 ≤ w ∧
    ∀ c ∈ back.head?, w < used + reckoned front + cutWidth c + 1

theorem isFront_fitting (w : Nat) (cs : List Char) :
    ∀ used, used + 1 ≤ w → IsFront w used cs (fitting w used cs) := by
  induction cs with
  | nil => exact fun used h => ⟨[], rfl, by simpa [fitting] using h, by simp⟩
  | cons c rest ih =>
      intro used h
      rw [fitting_cons]
      split_ifs with hfull
      · exact ⟨c :: rest, rfl, by simpa using h, by simpa using hfull⟩
      · obtain ⟨back, hsplit, hroom, hnext⟩ := ih (used + cutWidth c) (by omega)
        refine ⟨back, by rw [List.cons_append, ← hsplit], ?_, fun d hd => ?_⟩
        · rw [reckoned_cons]
          omega
        · have := hnext d hd
          rw [reckoned_cons]
          omega

/-- There is one such front. -/
theorem IsFront.fitting_eq {w : Nat} {front : List Char} :
    ∀ {used cs}, IsFront w used cs front → fitting w used cs = front := by
  induction front with
  | nil =>
      rintro used cs ⟨back, hsplit, -, hnext⟩
      rw [hsplit, List.nil_append]
      cases back with
      | nil => rfl
      | cons c rest =>
          have hfull := hnext c rfl
          rw [reckoned_nil] at hfull
          rw [fitting_cons, if_pos (by omega)]
  | cons c front ih =>
      rintro used cs ⟨back, rfl, hroom, hnext⟩
      rw [reckoned_cons] at hroom hnext
      rw [List.cons_append, fitting_cons, if_neg (by omega),
        ih ⟨back, rfl, by omega, fun d hd => ?_⟩]
      have := hnext d hd
      omega

/-- A text that is too wide is cut behind the longest front that leaves room for the mark. -/
theorem cutTo_cases {w : Nat} (hw : 1 ≤ w) (cs : List Char) :
    (width cs ≤ w ∧ cutTo w cs = cs) ∨
      (w < width cs ∧ ∃ front, IsFront w 0 cs front ∧ cutTo w cs = front ++ [ellipsis]) := by
  by_cases hfits : width cs ≤ w
  · exact .inl ⟨hfits, if_pos hfits⟩
  · exact .inr ⟨by omega, _, isFront_fitting w cs 0 (by omega), if_neg hfits⟩

/-- Filling up takes what a text lacks and never takes anything away. -/
theorem width_padTo (w : Nat) (cs : List Char) : width (padTo w cs) = max w (width cs) := by
  unfold padTo
  rw [width_append_blanks]
  omega

/-! ## Texts that fit wherever they are cut -/

/-- Wherever the text can be cut, the front is no wider than it is reckoned. -/
def CutsFit (cs : List Char) : Prop :=
  ∀ front back, cs = front ++ back → (∀ c ∈ back.head?, 0 < cutWidth c) →
    reckoned front + 1 < width cs → width front ≤ reckoned front

theorem width_cutTo_le {w : Nat} (hw : 1 ≤ w) {cs : List Char} (h : CutsFit cs) :
    width (cutTo w cs) ≤ w := by
  rcases cutTo_cases hw cs with ⟨hfits, hcut⟩ | ⟨hwide, front, ⟨back, hsplit, hroom, hnext⟩, hcut⟩
  · rw [hcut]
    exact hfits
  · have hfront : width front ≤ reckoned front := by
      refine h front back hsplit (fun c hc => ?_) (by omega)
      have := hnext c hc
      omega
    rw [hcut, width_append_ellipsis]
    omega

/-- The number of columns at which the text is cut behind `front` shows how wide `front` is. -/
theorem cutsFit_of_width_cutTo_le {cs : List Char}
    (h : ∀ w, 1 ≤ w → width (cutTo w cs) ≤ w) : CutsFit cs := by
  intro front back hsplit hback hwide
  have hfront : IsFront (reckoned front + 1) 0 cs front := by
    refine ⟨back, hsplit, by omega, fun c hc => ?_⟩
    have := hback c hc
    omega
  have hcut := h (reckoned front + 1) (by omega)
  rw [cutTo, if_neg (by omega), hfront.fitting_eq, width_append_ellipsis] at hcut
  omega

theorem cutsFit_iff {cs : List Char} :
    CutsFit cs ↔ ∀ w, 1 ≤ w → width (cutTo w cs) ≤ w :=
  ⟨fun h _ hw => width_cutTo_le hw h, cutsFit_of_width_cutTo_le⟩

/-! ## Texts whose characters are drawn one by one -/

/-- Columns that a character is drawn in within a text. -/
def drawnWidth (c : Char) : Nat :=
  (charWidth? c).getD 1

/-- Each front of the text takes the columns of its characters together. -/
def AddsUp (cs : List Char) : Prop :=
  ∀ front, front <+: cs → width front = (front.map drawnWidth).sum

/-- No character behind a control character takes a column. -/
def NothingBehindControl (cs : List Char) : Prop :=
  ∀ front c back, cs = front ++ c :: back → isControl c = true → ∀ d ∈ back, charWidth? d = some 0

theorem charWidth?_eq_none_iff {c : Char} : charWidth? c = none ↔ isControl c = true := by
  unfold charWidth?
  split_ifs <;> simp_all

theorem drawnWidth_eq (c : Char) : drawnWidth c = cutWidth c + if isControl c then 1 else 0 := by
  unfold drawnWidth cutWidth
  cases h : charWidth? c with
  | none => simp [charWidth?_eq_none_iff.mp h]
  | some n =>
      have : isControl c = false := by
        rw [Bool.eq_false_iff, Ne, ← charWidth?_eq_none_iff, h]
        simp
      simp [this]

theorem sum_drawnWidth (cs : List Char) :
    (cs.map drawnWidth).sum = reckoned cs + cs.countP isControl := by
  induction cs with
  | nil => rfl
  | cons c cs ih =>
      rw [List.map_cons, List.sum_cons, ih, drawnWidth_eq, reckoned_cons, List.countP_cons]
      omega

theorem AddsUp.width_eq {cs front : List Char} (h : AddsUp cs) (hfront : front <+: cs) :
    width front = reckoned front + front.countP isControl :=
  (h front hfront).trans (sum_drawnWidth front)

theorem countP_isControl_eq_zero {cs : List Char} (h : ∀ c ∈ cs, charWidth? c = some 0) :
    cs.countP isControl = 0 := by
  rw [List.countP_eq_zero]
  intro c hc hcontrol
  rw [← charWidth?_eq_none_iff, h c hc] at hcontrol
  cases hcontrol

theorem reckoned_eq_zero {cs : List Char} (h : ∀ c ∈ cs, charWidth? c = some 0) :
    reckoned cs = 0 := by
  refine List.sum_eq_zero fun n hn => ?_
  obtain ⟨c, hc, rfl⟩ := List.mem_map.mp hn
  rw [cutWidth, h c hc]
  rfl

theorem nothingBehindControl_of_cutsFit {cs : List Char} (hsum : AddsUp cs) (h : CutsFit cs) :
    NothingBehindControl cs := by
  intro front c back hsplit hc d hd
  by_contra hd0
  have hwidth := hsum.width_eq (List.prefix_refl cs)
  have hone : (c :: back).countP isControl = back.countP isControl + 1 := by
    rw [List.countP_cons_of_pos hc]
  cases hfind : back.find? (fun e => 0 < cutWidth e) with
  | some e =>
      -- The text can be cut in front of the first character that takes a column again.
      obtain ⟨he, zeros, rest, rfl, -⟩ := List.find?_eq_some_iff_append.mp hfind
      have he0 : 0 < cutWidth e := of_decide_eq_true he
      have hcut : cs = (front ++ c :: zeros) ++ e :: rest := by rw [hsplit]; simp
      have hkept := hsum.width_eq ⟨e :: rest, hcut.symm⟩
      have hpos : 0 < (front ++ c :: zeros).countP isControl :=
        List.countP_pos_iff.mpr ⟨c, by simp, hc⟩
      have hle : cs.countP isControl ≥ (front ++ c :: zeros).countP isControl := by
        rw [hcut, List.countP_append]
        omega
      have hreckoned : reckoned cs ≥ reckoned (front ++ c :: zeros) + cutWidth e := by
        rw [hcut, reckoned_append, reckoned_cons]
        omega
      have := h _ _ hcut (by simpa using he0) (by omega)
      omega
  | none =>
      -- Nothing behind it takes a column on its own, so the other one is a control character too.
      have hd' : isControl d = true := by
        have hzero : cutWidth d = 0 := by simpa using List.find?_eq_none.mp hfind d hd
        rw [← charWidth?_eq_none_iff]
        cases hw : charWidth? d with
        | none => rfl
        | some n =>
            rw [cutWidth, hw] at hzero
            exact absurd (by rw [hw]; exact congrArg some hzero) hd0
      have hpos : 0 < back.countP isControl := List.countP_pos_iff.mpr ⟨d, hd, hd'⟩
      have hcount : cs.countP isControl ≥ (c :: back).countP isControl := by
        rw [hsplit, List.countP_append]
        omega
      have := h cs [] (List.append_nil cs).symm (by simp) (by omega)
      omega

theorem cutsFit_of_nothingBehindControl {cs : List Char} (hsum : AddsUp cs)
    (h : NothingBehindControl cs) : CutsFit cs := by
  intro front back hsplit _ hwide
  rw [hsum.width_eq ⟨back, hsplit.symm⟩]
  cases hfind : front.find? isControl with
  | none =>
      have hnone : front.countP isControl = 0 :=
        List.countP_eq_zero.mpr fun c hc => List.find?_eq_none.mp hfind c hc
      omega
  | some c =>
      -- All of the columns of the text are in front of the control character, and its own one.
      exfalso
      obtain ⟨hc, start, rest, rfl, hstart⟩ := List.find?_eq_some_iff_append.mp hfind
      have hcut : cs = start ++ c :: (rest ++ back) := by rw [hsplit]; simp
      have hzero := h start c (rest ++ back) hcut hc
      have hcount : cs.countP isControl = 1 := by
        rw [hcut, List.countP_append, List.countP_cons_of_pos hc, countP_isControl_eq_zero hzero,
          List.countP_eq_zero.mpr fun d hd => by simpa using hstart d hd]
      have hreckoned : reckoned cs ≤ reckoned (start ++ c :: rest) := by
        rw [hcut, reckoned_append, reckoned_append, reckoned_cons, reckoned_cons,
          reckoned_eq_zero hzero]
        omega
      have hwidth := hsum.width_eq (List.prefix_refl cs)
      omega

/-- A cut text is at most as many columns too wide as it has control characters. -/
theorem AddsUp.width_cutTo_le {cs : List Char} (h : AddsUp cs) {w : Nat} (hw : 1 ≤ w) :
    width (cutTo w cs) ≤ w + cs.countP isControl := by
  rcases cutTo_cases hw cs with ⟨hfits, hcut⟩ | ⟨-, front, ⟨back, hsplit, hroom, -⟩, hcut⟩
  · rw [hcut]
    omega
  · have hprefix : front <+: cs := ⟨back, hsplit.symm⟩
    have hcount := hprefix.sublist.countP_le (p := isControl)
    rw [hcut, width_append_ellipsis, h.width_eq hprefix]
    omega

/-! ## Characters that nothing on their left is drawn together with -/

/-- A character that takes its columns wherever it stands. -/
def DrawnAlone (c : Char) : Prop :=
  c ≠ '\n' ∧ c ≠ pictureSelector ∧ c ≠ textSelector ∧ Follower.ofChar c = .other

instance (c : Char) : Decidable (DrawnAlone c) :=
  inferInstanceAs (Decidable (_ ∧ _ ∧ _ ∧ _))

theorem drawnWidth_of_le {c : Char} (h : c.toNat ≤ 0xA0) : drawnWidth c = 1 := by
  have hall : ∀ n ≤ 0xA0, drawnWidth (Char.ofNat n) = 1 := by decide +kernel
  have hc := hall c.toNat h
  rwa [Char.ofNat_toNat] at hc

theorem advance_of_drawnAlone {c : Char} (h : DrawnAlone c) :
    advance c {} = ((drawnWidth c : Int), {}) := by
  obtain ⟨hline, hpicture, htext, hnext⟩ := h
  by_cases hle : c.toNat ≤ 0xA0
  · simp [advance, Following.advanceText, hle, hline, drawnWidth_of_le hle]
  · simp [advance, Following.advanceText, hle, hpicture, htext, Following.meet, Follower.meet?,
      Following.alone, hnext, drawnWidth]

theorem measure_of_drawnAlone {cs : List Char} (h : ∀ c ∈ cs, DrawnAlone c) :
    measure cs = (↑(cs.map drawnWidth).sum, {}) := by
  induction cs with
  | nil => rfl
  | cons c cs ih =>
      rw [List.forall_mem_cons] at h
      simp only [measure, ih h.2, advance_of_drawnAlone h.1, List.map_cons, List.sum_cons]
      rw [← Nat.cast_add, Nat.add_comm]

theorem addsUp_of_drawnAlone {cs : List Char} (h : ∀ c ∈ cs, DrawnAlone c) : AddsUp cs := by
  intro front hfront
  rw [width, measure_of_drawnAlone fun c hc => h c (hfront.subset hc)]
  exact Int.toNat_natCast _

theorem nothingBehindControl_of_forall {cs : List Char} (h : ∀ c ∈ cs, isControl c = false) :
    NothingBehindControl cs := by
  rintro front c back rfl hc
  rw [h c (by simp)] at hc
  cases hc

/-! ## The name column -/

/-- The name is cut and filled to each number of columns that is asked for. -/
def FitsColumns (name : String) : Prop :=
  ∀ w, 1 ≤ w → width (cutTo w name.toList) ≤ w ∧ width (fitColumns w name).toList = w

theorem width_fitColumns (w : Nat) (name : String) :
    width (fitColumns w name).toList = max w (width (cutTo w name.toList)) := by
  rw [fitColumns, String.toList_ofList, width_padTo]

theorem fitsColumns_iff {name : String} : FitsColumns name ↔ CutsFit name.toList := by
  rw [cutsFit_iff]
  refine forall₂_congr fun w _ => ?_
  rw [width_fitColumns]
  omega

theorem fitsColumns_iff_of_addsUp {name : String} (h : AddsUp name.toList) :
    FitsColumns name ↔ NothingBehindControl name.toList := by
  rw [fitsColumns_iff]
  exact ⟨nothingBehindControl_of_cutsFit h, cutsFit_of_nothingBehindControl h⟩

theorem width_two_blanks_append (cs : List Char) : width ("  ".toList ++ cs) = width cs + 2 := by
  have hm : measure ("  ".toList ++ cs) = ((measure cs).1 + 1 + 1, {}) := by
    change measure (' ' :: ' ' :: cs) = _
    rw [measure_blank_cons, measure_blank_cons]
  have h := coe_width ("  ".toList ++ cs)
  rw [hm, ← coe_width cs] at h
  dsimp only at h
  omega

/-- The line of a row goes on two columns behind its name column. -/
theorem width_rowText (r : RowReport) : ∃ behind,
    r.text = "  " ++ fitColumns RowReport.nameColumns r.name ++ "  " ++ behind ∧
    width r.text.toList =
      2 + width (fitColumns RowReport.nameColumns r.name).toList + 2 + width behind.toList := by
  obtain ⟨behind, htext⟩ : ∃ behind,
      r.text = "  " ++ fitColumns RowReport.nameColumns r.name ++ "  " ++ behind := by
    delta RowReport.text
    simp only [String.append_assoc, String.append_right_inj, exists_eq']
  refine ⟨behind, htext, ?_⟩
  have hback : (measure ("  ".toList ++ behind.toList)).2 = {} := by
    change (measure (' ' :: ' ' :: behind.toList)).2 = _
    rw [measure_blank_cons]
  simp only [htext, String.toList_append, List.append_assoc]
  rw [width_two_blanks_append, width_append hback, width_two_blanks_append]
  omega

/-- A name that fits stays as it is, and any other is cut behind the longest front that leaves room
for the mark; it is filled up exactly to the columns asked for unless it is wider. It is never
wider, for no number of columns, if the fronts that it can be cut behind are no wider than they are
reckoned. For a name whose characters are drawn one by one this says that nothing behind a control
character takes a column, and a cut name is at most as many columns too wide as the name has control
characters. In a row, what stands behind the name starts two columns behind the name column. -/
theorem names_fit_unless_cut_behind_control (name : String) :
    (∀ w, 1 ≤ w →
      (width name.toList ≤ w ∧ cutTo w name.toList = name.toList) ∨
      (w < width name.toList ∧
        ∃ front, IsFront w 0 name.toList front ∧ cutTo w name.toList = front ++ [ellipsis])) ∧
    (∀ w, width (fitColumns w name).toList = max w (width (cutTo w name.toList))) ∧
    (FitsColumns name ↔ CutsFit name.toList) ∧
    (AddsUp name.toList →
      (FitsColumns name ↔ NothingBehindControl name.toList) ∧
      ∀ w, 1 ≤ w → width (cutTo w name.toList) ≤ w + name.toList.countP isControl) ∧
    ∀ r : RowReport, r.name = name → ∃ behind,
      r.text = "  " ++ fitColumns RowReport.nameColumns name ++ "  " ++ behind ∧
      width r.text.toList =
        2 + width (fitColumns RowReport.nameColumns name).toList + 2 + width behind.toList := by
  refine ⟨fun w hw => cutTo_cases hw _, fun w => width_fitColumns w name, fitsColumns_iff,
    fun h => ⟨fitsColumns_iff_of_addsUp h, fun w hw => h.width_cutTo_le hw⟩, ?_⟩
  rintro r rfl
  exact width_rowText r

/-- A name of wide letters fits, and one with a letter behind a bell does not. -/
theorem names_fit_unless_cut_behind_bell :
    (AddsUp "川の流れ.mp3".toList ∧ FitsColumns "川の流れ.mp3") ∧
      AddsUp "a\x07b".toList ∧ ¬ FitsColumns "a\x07b" := by
  have hwide : AddsUp "川の流れ.mp3".toList :=
    addsUp_of_drawnAlone (List.forall_iff_forall_mem.mp (by decide +kernel))
  have hbell : AddsUp "a\x07b".toList :=
    addsUp_of_drawnAlone (List.forall_iff_forall_mem.mp (by decide +kernel))
  refine ⟨⟨hwide, ?_⟩, hbell, fun hfits => ?_⟩
  · exact ((names_fit_unless_cut_behind_control _).2.2.2.1 hwide).1.mpr
      (nothingBehindControl_of_forall (List.forall_iff_forall_mem.mp (by decide +kernel)))
  · have hbehind := ((names_fit_unless_cut_behind_control _).2.2.2.1 hbell).1.mp hfits
    exact absurd (hbehind ['a'] '\x07' ['b'] rfl (by decide) 'b' (by simp))
      (by decide +kernel)

/-- The columns of this name are those of its characters, and in the column of a row it takes one
more than there is. -/
theorem column_taken_by_cut_control :
    AddsUp "aaaaaaaaaaaaaaaaaaaaaaaaaaaaaaaaaaaaaaaaaaaaaaa\x01bc.mp3".toList ∧
      width (cutTo RowReport.nameColumns
        "aaaaaaaaaaaaaaaaaaaaaaaaaaaaaaaaaaaaaaaaaaaaaaa\x01bc.mp3".toList) =
          RowReport.nameColumns + 1 ∧
      width (fitColumns RowReport.nameColumns
        "aaaaaaaaaaaaaaaaaaaaaaaaaaaaaaaaaaaaaaaaaaaaaaa\x01bc.mp3").toList =
          RowReport.nameColumns + 1 :=
  ⟨addsUp_of_drawnAlone (List.forall_iff_forall_mem.mp (by decide +kernel)), by decide +kernel,
    by decide +kernel⟩

end PeerSearch.Text
