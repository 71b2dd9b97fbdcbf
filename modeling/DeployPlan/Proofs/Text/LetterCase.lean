import DeployPlan.Text.LetterCase
import Mathlib.Data.String.Basic
import Mathlib.Tactic.ByContra
import Mathlib.Tactic.SplitIfs

/-!
# Words in any letter case

A text is compared to a word by its lower case, and lower case is that of all scripts.  A few
characters of other scripts have a plain letter for their lower case; only the letter k is among
these.  So a word without that letter has no other spellings than those in plain letters.

## Main definitions

* `Text.OwnLetter` — a small plain letter that is the lower case of no character of another script.

## Main results

* `Text.lowerChar_append_eq_iff` — which characters have such a letter for their lower case.
* `Text.toLower_eq_iff` — a text has a word for its lower case exactly if it is the same word up to
  the case of plain letters.
-/

set_option autoImplicit false

namespace DeployPlan

namespace Text

/-- A small plain letter that is the lower case of no character of another script. -/
def OwnLetter (c : Char) : Prop := 'a' ≤ c ∧ c ≤ 'z' ∧ c ≠ 'k'

instance (c : Char) : Decidable (OwnLetter c) := inferInstanceAs (Decidable (_ ∧ _ ∧ _))

/-! ## Single characters -/

/-- The code of such a letter. -/
theorem OwnLetter.toNat {c : Char} (h : OwnLetter c) :
    97 ≤ c.toNat ∧ c.toNat ≤ 122 ∧ c.toNat ≠ 107 := by
  obtain ⟨hlow, hhigh, hne⟩ := h
  exact ⟨hlow, hhigh, fun hcode => hne (Char.toNat_inj.mp hcode)⟩

/-- What stands behind the capitals is no capital. -/
theorem toLower_of_lt {c : Char} (h : 90 < c.toNat) : c.toLower = c := by
  refine dif_neg ?_
  rintro ⟨-, hcapital⟩
  have hcapital : c.toNat ≤ 90 := hcapital
  omega

/-- Among the first characters, lower case is that of plain letters. -/
theorem shiftCase_lowerRuns_ascii {c : Char} (h : c.toNat < 128) :
    shiftCase lowerRuns c = c.toLower := by
  have hcodes : ∀ n < 128, shiftCase lowerRuns (Char.ofNat n) = (Char.ofNat n).toLower := by
    decide +kernel
  simpa using hcodes c.toNat h

/-- No run that reaches beyond the first characters leads back to them, but for one that leads to
the letter k. -/
theorem lowerRuns_stay_above : ∀ run ∈ lowerRuns, 128 ≤ run.2.1 →
    128 ≤ (run.1 : Int) + run.2.2.2 ∨ run.1 = 0x212A ∧ run.2.1 = 0x212A ∧ run.2.2.2 = -8383 := by
  decide +kernel

/-- A character whose code is made from a number is the one with that code. -/
theorem toNat_of_ofNat_eq {n : Nat} {d : Char} (h : Char.ofNat n = d) (hd : d.toNat ≠ 0) :
    n = d.toNat := by
  subst h
  by_cases hn : n.isValidChar
  · rw [Char.ofNat, dif_pos hn]
    rfl
  · rw [Char.ofNat, dif_neg hn] at hd
    exact absurd rfl hd

/-- No other character has such a letter for its lower case. -/
theorem toNat_lt_of_shiftCase {c d : Char} (hd : OwnLetter d) (h : shiftCase lowerRuns c = d) :
    c.toNat < 128 := by
  obtain ⟨hlow, hhigh, hne⟩ := hd.toNat
  by_contra hc
  unfold shiftCase at h
  split at h
  · next lo hi stride distance hfind =>
    have hrun := List.mem_of_find?_eq_some hfind
    have hin := List.find?_some hfind
    simp only [Bool.and_eq_true, decide_eq_true_eq] at hin
    have hcode := toNat_of_ofNat_eq h (by omega)
    rcases lowerRuns_stay_above _ hrun (by dsimp only; omega) with habove | ⟨hlo, hhi, hdist⟩
    · dsimp only at habove
      omega
    · dsimp only at hlo hhi hdist
      omega
  · subst h
    omega

/-- **Which characters have such a letter for their lower case**: itself and its capital. -/
theorem shiftCase_eq_iff {c d : Char} (hd : OwnLetter d) :
    shiftCase lowerRuns c = d ↔ c.toLower = d := by
  constructor
  · intro h
    rwa [← shiftCase_lowerRuns_ascii (toNat_lt_of_shiftCase hd h)]
  · intro h
    have hc : c.toNat < 128 := by
      obtain ⟨-, hhigh, -⟩ := hd.toNat
      by_contra hc
      rw [← h, toLower_of_lt (by omega)] at hhigh
      omega
    rwa [shiftCase_lowerRuns_ascii hc]

/-- So it is between other characters: where the lower case depends on these, or is more than one
character, it is no such letter. -/
theorem lowerChar_append_eq_iff {before after rest word : List Char} {c d : Char}
    (hd : OwnLetter d) (hword : ∀ e ∈ word, OwnLetter e) :
    lowerChar before c after ++ rest = d :: word ↔ c.toLower = d ∧ rest = word := by
  have hother {e : Char} (he : ¬ OwnLetter e) : e ≠ d := fun h => he (h ▸ hd)
  unfold lowerChar
  split_ifs with hsigma hmeets hdotted
  · rw [beq_iff_eq.mp hsigma]
    exact iff_of_false (fun h => hother (by decide) (List.cons.inj h).1)
      fun h => hother (by decide) h.1
  · rw [beq_iff_eq.mp hsigma]
    exact iff_of_false (fun h => hother (by decide) (List.cons.inj h).1)
      fun h => hother (by decide) h.1
  · rw [beq_iff_eq.mp hdotted]
    refine iff_of_false (fun h => ?_) fun h => hother (by decide) h.1
    have hdot : OwnLetter '\u0307' := hword _ ((List.cons.inj h).2 ▸ List.mem_cons_self)
    exact absurd hdot (by decide)
  · rw [List.singleton_append, List.cons_eq_cons, shiftCase_eq_iff hd]

/-- Every character has a lower case. -/
theorem lowerChar_ne_nil (before after : List Char) (c : Char) : lowerChar before c after ≠ [] := by
  unfold lowerChar
  split_ifs <;> simp

/-! ## Texts -/

/-- **The lower case of a text is a word** of such letters exactly if the text is that word in plain
letters of any case. -/
theorem lowerFrom_eq_iff {before cs word : List Char} (hword : ∀ c ∈ word, OwnLetter c) :
    lowerFrom before cs = word ↔ cs.map Char.toLower = word := by
  induction cs generalizing before word with
  | nil => rfl
  | cons c cs ih =>
    cases word with
    | nil => simp [lowerFrom, lowerChar_ne_nil]
    | cons d word =>
      obtain ⟨hd, hword⟩ := List.forall_mem_cons.mp hword
      rw [lowerFrom, lowerChar_append_eq_iff hd hword, ih hword, List.map_cons, List.cons_eq_cons]

/-- **A text has a word for its lower case** exactly if it is the same word up to the case of plain
letters. -/
theorem toLower_eq_iff {s word : String} (hword : ∀ c ∈ word.toList, OwnLetter c) :
    toLower s = word ↔ sameIgnoringAsciiCase s word = true := by
  have hsmall : word.toList.map Char.toLower = word.toList := by
    refine (List.map_congr_left fun c hc => ?_).trans (List.map_id _)
    obtain ⟨hlow, -, -⟩ := (hword c hc).toNat
    exact toLower_of_lt (by omega)
  rw [toLower, sameIgnoringAsciiCase, beq_iff_eq, hsmall, ← lowerFrom_eq_iff hword,
    ← String.toList_inj, String.toList_ofList]

end Text

end DeployPlan
