import DeployPlan.Proofs.Binary64.Layout
import DeployPlan.Yaml.ToJson

/-!
# Texts of keys

The keys of an object are texts.  Truth values, integers and floats that are different have
different texts as keys, but a text that is a key can be the text of one of them.

## Main definitions

* `Value.textKey?`, `Value.scalarKey?` — the text of a key that is a text, and of one that is a
  truth value or a number.

## Main results

* `Value.parseBinary64?_floatText`, `Value.same_of_floatText_eq` — a finite float is read back from
  its text, and floats with one text are equal.
* `Value.same_of_scalarKey?_eq` — so are truth values and numbers of all kinds.
-/

set_option autoImplicit false

namespace DeployPlan

namespace Yaml

namespace Value

/-! ## Texts of truth values and numbers -/

/-- A character of the text of an integer. -/
def IntegerChar (c : Char) : Prop := Text.isDigit c = true ∨ c = '-'

/-- An integer is written with digits and a sign. -/
theorem integerChar_of_mem_toString {n : Int} : ∀ c ∈ (toString n).toList, IntegerChar c := by
  change ∀ c ∈ n.repr.toList, IntegerChar c
  rw [Int.repr_eq_if]
  split_ifs
  · rw [Nat.toList_repr]
    exact fun c hc => .inl (Text.isDigit_of_mem_toDigits hc)
  · rw [String.toList_append, Nat.toList_repr]
    intro c hc
    obtain hc | hc := List.mem_append.mp hc
    · exact .inr (List.mem_singleton.mp hc)
    · exact .inl (Text.isDigit_of_mem_toDigits hc)

/-- Integers with one text are equal. -/
theorem toString_int_inj {m n : Int} (h : toString m = toString n) : m = n := by
  have hm := Decimal.exponent?_toString m
  rw [h, Decimal.exponent?_toString] at hm
  exact (Option.some.inj hm).symm

/-- What is not a number is not finite. -/
theorem not_isFinite_of_isNaN {x : Binary64} (h : x.isNaN = true) : x.isFinite = false :=
  decide_eq_false (Nat.lt_asymm (of_decide_eq_true h))

/-- The texts of finite floats. -/
theorem floatText_of_isFinite {x : Binary64} (h : x.isFinite = true) :
    floatText x = x.scientific := by
  have hnan : ¬ x.isNaN = true := fun hnan =>
    Bool.false_ne_true ((not_isFinite_of_isNaN hnan).symm.trans h)
  rw [floatText, if_neg hnan, h]
  rfl

/-- The texts of other floats. -/
theorem floatText_of_not_isFinite {x : Binary64} (h : x.isFinite = false) :
    floatText x =
      if x.isNaN then ".nan" else if x.isNegative then "-.inf" else ".inf" := by
  rw [floatText, h]
  rfl

/-- A float is read back from its text if it is finite.  Otherwise the text is that of no number. -/
theorem parseBinary64?_floatText (x : Binary64) :
    Decimal.parseBinary64? (floatText x) = if x.isFinite then some x else none := by
  cases h : x.isFinite with
  | true =>
    rw [floatText_of_isFinite h, if_pos rfl]
    exact Binary64.parseBinary64?_scientific h
  | false =>
    rw [floatText_of_not_isFinite h, if_neg Bool.false_ne_true]
    split_ifs <;> decide

/-- There is one infinity of each sign. -/
theorem eq_infinity {x : Binary64} (hfinite : x.isFinite = false) (hnan : x.isNaN = false) :
    x = Binary64.infinity x.isNegative := by
  have hle : Binary64.infinityBits ≤ x.magnitudeBits := not_lt.mp (of_decide_eq_false hfinite)
  have hge : x.magnitudeBits ≤ Binary64.infinityBits := not_lt.mp (of_decide_eq_false hnan)
  have hx := Binary64.ofMagnitudeBits_self x
  rw [le_antisymm hge hle] at hx
  exact hx.symm

/-- **Floats with one text are equal.** -/
theorem same_of_floatText_eq {x y : Binary64} (h : floatText x = floatText y) :
    x.same y = true := by
  have hread := (parseBinary64?_floatText x).symm.trans (h ▸ parseBinary64?_floatText y)
  rw [Binary64.same]
  cases hx : x.isFinite with
  | true =>
    rw [hx, if_pos rfl] at hread
    split_ifs at hread
    · cases hread
      simp
  | false =>
    have hy : y.isFinite = false := by
      by_contra hy
      rw [hx, if_neg Bool.false_ne_true, if_pos (Bool.eq_true_of_not_eq_false hy)] at hread
      cases hread
    rw [floatText_of_not_isFinite hx, floatText_of_not_isFinite hy] at h
    cases hxnan : x.isNaN with
    | true =>
      have hynan : y.isNaN = true := by
        by_contra hynan
        rw [hxnan, if_pos rfl, if_neg hynan] at h
        split_ifs at h <;> exact absurd h (by decide)
      simp [hynan]
    | false =>
      have hynan : y.isNaN = false := by
        by_contra hynan
        rw [hxnan, if_neg Bool.false_ne_true, if_pos (Bool.eq_true_of_not_eq_false hynan)] at h
        split_ifs at h <;> exact absurd h (by decide)
      have hsign : x.isNegative = y.isNegative := by
        rw [hxnan, hynan] at h
        cases hxsign : x.isNegative <;> cases hysign : y.isNegative <;> rw [hxsign, hysign] at h
        · exact absurd h (by decide)
        · exact absurd h (by decide)
      rw [eq_infinity hx hxnan, eq_infinity hy hynan, hsign]
      simp

/-- The text of a float has a point or an exponent. -/
theorem exists_not_integerChar (x : Binary64) : ∃ c ∈ (floatText x).toList, ¬ IntegerChar c := by
  have hmark : ∃ c ∈ (floatText x).toList, c = '.' ∨ c = 'e' := by
    cases h : x.isFinite with
    | true => exact floatText_of_isFinite h ▸ x.mem_scientific
    | false =>
      rw [floatText_of_not_isFinite h]
      split_ifs <;> exact ⟨'.', by decide, .inl rfl⟩
  obtain ⟨c, hc, rfl | rfl⟩ := hmark
  · exact ⟨_, hc, by unfold IntegerChar; decide⟩
  · exact ⟨_, hc, by unfold IntegerChar; decide⟩

/-- Integers and floats have different texts. -/
theorem toString_int_ne_floatText (n : Int) (x : Binary64) : toString n ≠ floatText x := by
  intro h
  obtain ⟨c, hc, hnot⟩ := exists_not_integerChar x
  exact hnot (integerChar_of_mem_toString c (h ▸ hc))

/-- Truth values and integers have different texts. -/
theorem toString_bool_ne_toString_int (b : Bool) (n : Int) : toString b ≠ toString n := by
  intro h
  have hmem : 'e' ∈ (toString b).toList := by cases b <;> decide
  exact absurd (integerChar_of_mem_toString 'e' (h ▸ hmem)) (by unfold IntegerChar; decide)

/-- Truth values and floats have different texts. -/
theorem toString_bool_ne_floatText (b : Bool) (x : Binary64) : toString b ≠ floatText x := by
  intro h
  have hnone : Decimal.parseBinary64? (toString b) = none := by cases b <;> decide
  have hread := parseBinary64?_floatText x
  rw [← h, hnone] at hread
  cases hx : x.isFinite with
  | true =>
    rw [hx] at hread
    cases hread
  | false =>
    rw [floatText_of_not_isFinite hx] at h
    split_ifs at h <;> cases b <;> exact absurd h (by decide)

/-! ## Keys -/

/-- The key text of a key that is a text. -/
def textKey? : Value → Option String
  | .str s => some s
  | _ => none

/-- The key text of a key that is a truth value or a number. -/
def scalarKey? : Value → Option String
  | .str _ => none
  | k => k.keyText?

/-- **Truth values and numbers with one text are equal.** -/
theorem same_of_scalarKey?_eq {k l : Value} {s : String} (hk : k.scalarKey? = some s)
    (hl : l.scalarKey? = some s) : k.same l = true := by
  cases k with
  | bool b =>
    cases hk
    cases l with
    | bool c =>
      have h : toString c = toString b := Option.some.inj hl
      cases b <;> cases c <;> first | rfl | exact absurd h (by decide)
    | int n => exact absurd (Option.some.inj hl).symm (toString_bool_ne_toString_int b n)
    | float x => exact absurd (Option.some.inj hl).symm (toString_bool_ne_floatText b x)
    | _ => cases hl
  | int m =>
    cases hk
    cases l with
    | bool c => exact absurd (Option.some.inj hl) (toString_bool_ne_toString_int c m)
    | int n => exact beq_iff_eq.mpr (toString_int_inj (Option.some.inj hl).symm)
    | float x => exact absurd (Option.some.inj hl).symm (toString_int_ne_floatText m x)
    | _ => cases hl
  | float x =>
    cases hk
    cases l with
    | bool c => exact absurd (Option.some.inj hl) (toString_bool_ne_floatText c x)
    | int n => exact absurd (Option.some.inj hl) (toString_int_ne_floatText n x)
    | float y => exact same_of_floatText_eq (Option.some.inj hl).symm
    | _ => cases hl
  | _ => cases hk

/-- Only texts are keys as texts. -/
theorem eq_str_of_textKey? {k : Value} {s : String} (h : k.textKey? = some s) : k = .str s := by
  cases k <;> cases h
  rfl

end Value

end Yaml

end DeployPlan
