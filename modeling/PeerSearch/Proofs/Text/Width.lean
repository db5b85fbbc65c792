import Mathlib
import PeerSearch.Text.Column

/-!
# PeerSearch.Proofs.Text.Width -- columns of a text and of its parts

A character may take a column back from the letters that it melts into one with. What a follower
lets its neighbour take back is its credit, and a text always takes at least the credit of its first
piece, so no text takes less than nothing. A text in front of something that no character is drawn
together with takes the columns that it takes alone.
-/

namespace PeerSearch.Text

/-! ## Nothing takes less than no column -/

/-- Columns that the character on the left of a follower may take back. -/
def Follower.credit : Follower → Int
  | .ligature .khmer | .ligature .tifinaghJoiner | .joinedIndicator | .joinedOdd => 1
  | _ => 0

theorem Follower.credit_nonneg (f : Follower) : 0 ≤ f.credit := by
  unfold credit
  split <;> decide

theorem Ligature.credit_join (l : Ligature) :
    (Follower.ligature l.join).credit = (Follower.ligature l).credit := by
  cases l <;> rfl

theorem Ligature.credit_meet? {l : Ligature} {c : Char} {n : Int} {next : Follower}
    (h : l.meet? c = some (n, next)) : next.credit ≤ (Follower.ligature l).credit + n := by
  unfold meet? at h
  split at h
  all_goals
    try split_ifs at h
    all_goals cases h <;> simp [Follower.credit]

theorem TagTail.credit_extend? {t : TagTail} {c : Char} {next : Follower}
    (h : t.extend? c = some next) : next.credit = 0 := by
  unfold extend? at h
  cases t
  all_goals
    dsimp only at h
    split_ifs at h
    all_goals
      cases h
      rfl

theorem Follower.credit_meet? {f : Follower} {c : Char} {n : Int} {next : Follower}
    (h : f.meet? c = some (n, next)) : next.credit ≤ f.credit + n := by
  cases f with
  | ligature l => exact Ligature.credit_meet? h
  | tag t =>
      obtain ⟨next', hnext, heq⟩ := Option.map_eq_some_iff.mp h
      cases heq
      rw [TagTail.credit_extend? hnext]
      simp [credit]
  | _ =>
      unfold meet? at h
      dsimp only at h
      try split_ifs at h
      all_goals cases h <;> simp [credit]

/-- Whether no character is in both of two lists of ranges. -/
def Ranges.apart (r s : Ranges) : Bool :=
  r.all fun a => s.all fun b => a.2 < b.1 || b.2 < a.1

theorem Ranges.not_holds_of_apart {r s : Ranges} (h : r.apart s = true) {c : Char}
    (hc : r.holds c = true) : s.holds c = false := by
  rw [Bool.eq_false_iff]
  intro hs
  obtain ⟨a, ha, hac⟩ := List.any_eq_true.mp hc
  obtain ⟨b, hb, hbc⟩ := List.any_eq_true.mp hs
  have hab := List.all_eq_true.mp (List.all_eq_true.mp h a ha) b hb
  simp only [Bool.and_eq_true, Bool.or_eq_true, decide_eq_true_eq] at hac hbc hab
  omega

theorem khmerLetters_apart : Ligature.khmerLetters.apart zeroWidth = true := by
  decide +kernel

theorem charWidth?_of_khmerLetter {c : Char} (h : Ligature.khmerLetters.holds c = true) :
    1 ≤ (charWidth? c).getD 1 := by
  have hzero := Ranges.not_holds_of_apart khmerLetters_apart h
  unfold charWidth?
  simp only [hzero, Bool.false_eq_true, if_false]
  split_ifs <;> decide

theorem Ligature.khmer_of_ofChar? {c : Char} {l : Ligature} (h : ofChar? c = some l) :
    (Follower.ligature l).credit = 0 ∨ khmerLetters.holds c = true := by
  by_cases hkhmer : khmerLetters.holds c = true
  · exact .inr hkhmer
  · left
    simp only [ofChar?, hkhmer, Bool.false_eq_true, if_false] at h
    split_ifs at h
    all_goals
      cases h
      rfl

theorem Follower.credit_ofChar (c : Char) :
    (ofChar c).credit ≤ ((charWidth? c).getD 1 : Nat) := by
  have hzero : (0 : Int) ≤ ((charWidth? c).getD 1 : Nat) := Int.natCast_nonneg _
  unfold ofChar
  split_ifs
  · exact hzero
  · exact hzero
  · exact hzero
  · exact hzero
  · cases hl : Ligature.ofChar? c with
    | none => exact hzero
    | some l =>
        rcases Ligature.khmer_of_ofChar? hl with h0 | hk
        · exact h0.trans_le hzero
        · have h1 := charWidth?_of_khmerLetter hk
          have hle : (Follower.ligature l).credit ≤ 1 := by
            unfold credit
            split <;> decide
          dsimp only
          omega

namespace Following

theorem credit_alone (c : Char) : (alone c).2.next.credit ≤ (alone c).1 :=
  Follower.credit_ofChar c

theorem credit_dropPicture (f : Following) : f.dropPicture.next.credit ≤ f.next.credit := by
  unfold dropPicture
  split
  · exact le_refl _
  · split_ifs
    · exact Follower.credit_nonneg _
    · exact le_refl _

theorem credit_dropText (f : Following) : f.dropText.next.credit ≤ f.next.credit := by
  unfold dropText
  split
  · exact le_refl _
  · split_ifs
    · exact Follower.credit_nonneg _
    · exact le_refl _

theorem credit_selectPicture (f : Following) : f.selectPicture.next.credit ≤ f.next.credit := by
  unfold selectPicture
  split
  any_goals exact le_refl _
  exact Follower.credit_nonneg _

theorem credit_selectText (f : Following) : f.selectText.next.credit ≤ f.next.credit := by
  unfold selectText
  split
  · exact le_refl _
  · exact Follower.credit_nonneg _

theorem credit_meet (f : Following) (c : Char) :
    (f.meet c).2.next.credit ≤ f.next.credit + (f.meet c).1 := by
  have halone : (alone c).2.next.credit ≤ f.next.credit + (alone c).1 :=
    (credit_alone c).trans (by have := f.next.credit_nonneg; omega)
  unfold meet
  split
  · rename_i l hl
    rw [hl] at halone ⊢
    split_ifs
    · simp [Ligature.credit_join]
    · simp [hl]
    · split
      · exact Ligature.credit_meet? ‹_›
      · exact halone
  · split
    · exact Follower.credit_meet? ‹_›
    · exact halone

theorem credit_advanceText (f : Following) (c : Char) :
    (f.advanceText c).2.next.credit ≤ f.next.credit + (f.advanceText c).1 := by
  have hf := f.next.credit_nonneg
  unfold advanceText
  split_ifs
  · exact (show (0 : Int) ≤ f.next.credit + 1 by omega)
  · exact (show (0 : Int) ≤ f.next.credit + 0 by omega)
  · exact (show (0 : Int) ≤ f.next.credit + 1 by omega)
  · exact (credit_selectPicture f).trans (by simp)
  · exact (credit_selectText f).trans (by simp)
  · exact (show (0 : Int) ≤ f.next.credit + 1 by omega)
  · exact (credit_meet _ c).trans (by simpa using credit_dropText f)
  · exact credit_meet f c

end Following

theorem credit_advance (c : Char) (f : Following) :
    (advance c f).2.next.credit ≤ f.next.credit + (advance c f).1 := by
  have hf := f.next.credit_nonneg
  unfold advance
  split_ifs
  · dsimp only
    split
    all_goals exact (show (0 : Int) ≤ _ by omega)
  · exact (Following.credit_advanceText _ c).trans (by simpa using f.credit_dropPicture)
  · exact Following.credit_advanceText f c

/-- A text takes at least the columns that a character on its left may take back. -/
theorem credit_measure (cs : List Char) : (measure cs).2.next.credit ≤ (measure cs).1 := by
  induction cs with
  | nil => exact le_refl _
  | cons c rest ih =>
      have h := credit_advance c (measure rest).2
      simp only [measure]
      omega

theorem measure_nonneg (cs : List Char) : 0 ≤ (measure cs).1 :=
  (Follower.credit_nonneg _).trans (credit_measure cs)

/-- The number of columns is what is measured. -/
theorem coe_width (cs : List Char) : (width cs : Int) = (measure cs).1 :=
  Int.toNat_of_nonneg (measure_nonneg cs)

/-! ## A text in front of another -/

theorem measure_append {back : List Char} (h : (measure back).2 = {}) (front : List Char) :
    measure (front ++ back) = ((measure front).1 + (measure back).1, (measure front).2) := by
  induction front with
  | nil => simp [measure, ← h]
  | cons c rest ih =>
      simp only [List.cons_append, measure, ih]
      rw [Int.add_right_comm]

/-- The columns of two texts add up where no character is drawn together with what the second one
starts with. -/
theorem width_append {back : List Char} (h : (measure back).2 = {}) (front : List Char) :
    width (front ++ back) = width front + width back := by
  have hboth := coe_width (front ++ back)
  rw [measure_append h] at hboth
  have hfront := coe_width front
  have hback := coe_width back
  dsimp only at hboth
  omega

theorem measure_blank_cons (cs : List Char) : measure (' ' :: cs) = ((measure cs).1 + 1, {}) := by
  have hblank (f : Following) : advance ' ' f = (1, {}) := by
    have hpicture : emojiBase.holds ' ' = false := by decide +kernel
    simp [advance, hpicture, Following.advanceText]
  simp only [measure, hblank]

theorem measure_blanks : ∀ n : Nat, measure (List.replicate n ' ') = ((n : Int), {})
  | 0 => rfl
  | n + 1 => by
      rw [List.replicate_succ, measure_blank_cons, measure_blanks n]
      rfl

theorem width_append_blanks (cs : List Char) (n : Nat) :
    width (cs ++ List.replicate n ' ') = width cs + n := by
  rw [width_append (by rw [measure_blanks])]
  simp [width, measure_blanks]

theorem measure_ellipsis : measure [ellipsis] = (1, {}) := by
  decide +kernel

theorem width_append_ellipsis (cs : List Char) : width (cs ++ [ellipsis]) = width cs + 1 := by
  rw [width_append (by rw [measure_ellipsis])]
  simp [width, measure_ellipsis]

end PeerSearch.Text
