import DeployPlan.Proofs.Binary64.Shortest

/-!
# Texts of doubles

A finite number is read back from its text, in both layouts.  So different numbers have different
texts.

## Main results

* `Decimal.parse?_pointed` — digits with a point are read as the decimal that they were written for.
* `Binary64.parseBinary64?_scientific`, `parseBinary64?_positional` — a number is read back.
-/

set_option autoImplicit false

namespace DeployPlan

namespace Decimal

/-! ## Reading digits -/

section Digits

variable {whole fraction : List Char} (hwhole : ∀ c ∈ whole, Text.isDigit c = true)
  (hfraction : ∀ c ∈ fraction, Text.isDigit c = true)

include hwhole hfraction

/-- Digits with a point. -/
theorem parse?_point : parse? (whole ++ '.' :: fraction) = ofParts? whole fraction 0 := by
  have htake : fraction.takeWhile Text.isDigit = fraction :=
    List.takeWhile_eq_self_iff.mpr hfraction
  have hdrop : fraction.dropWhile Text.isDigit = [] := List.dropWhile_eq_nil_iff.mpr hfraction
  simp [parse?, List.takeWhile_append_of_pos hwhole, List.dropWhile_append_of_pos hwhole, htake,
    hdrop, Text.isDigit]

/-- Digits with a point and an exponent. -/
theorem parse?_point_exponent (more : List Char) :
    parse? (whole ++ '.' :: fraction ++ 'e' :: more) =
      (exponent? more).bind (ofParts? whole fraction) := by
  simp [parse?, List.takeWhile_append_of_pos hwhole, List.dropWhile_append_of_pos hwhole,
    List.takeWhile_append_of_pos hfraction, List.dropWhile_append_of_pos hfraction, Text.isDigit]

end Digits

/-- Digits with an exponent. -/
theorem parse?_exponent {whole : List Char} (hwhole : ∀ c ∈ whole, Text.isDigit c = true)
    (more : List Char) :
    parse? (whole ++ 'e' :: more) = (exponent? more).bind (ofParts? whole []) := by
  simp [parse?, List.takeWhile_append_of_pos hwhole, List.dropWhile_append_of_pos hwhole,
    Text.isDigit]

/-- An exponent without a sign. -/
theorem exponent?_of_digits {cs : List Char} (h : ∀ c ∈ cs, Text.isDigit c = true) :
    exponent? cs = (Text.natural? 10 cs).map Int.ofNat := by
  unfold exponent?
  split
  · exact absurd (h '+' List.mem_cons_self) (by decide)
  · exact absurd (h '-' List.mem_cons_self) (by decide)
  · rfl

/-- An exponent is read back. -/
theorem exponent?_toString (e : Int) : exponent? (toString e).toList = some e := by
  change exponent? e.repr.toList = some e
  rw [Int.repr_eq_if]
  split_ifs with he
  · rw [Nat.toList_repr, exponent?_of_digits fun c hc => Text.isDigit_of_mem_toDigits hc,
      Text.natural?_toDigits]
    exact congrArg some (Int.toNat_of_nonneg he)
  · have hlist : ("-" ++ (-e).toNat.repr).toList = '-' :: Nat.toDigits 10 (-e).toNat := by
      rw [String.toList_append, Nat.toList_repr]
      rfl
    rw [hlist, exponent?, Text.natural?_toDigits]
    exact congrArg some (show -((-e).toNat : Int) = e by omega)

/-! ## Layouts -/

variable (d : Decimal)

/-- The digits of a decimal. -/
theorem isDigit_of_mem_digits : ∀ c ∈ Nat.toDigits 10 d.digits, Text.isDigit c = true :=
  fun _ hc => Text.isDigit_of_mem_toDigits hc

/-- **Digits with a point** are read as a decimal of the same value as the one they were written
for. -/
theorem parse?_pointed :
    ∃ d' : Decimal, parse? (Binary64.pointed (Nat.toDigits 10 d.digits)
      ((Nat.toDigits 10 d.digits).length + d.exponent)).toList = some d' ∧ d'.value = d.value := by
  have hdigits := d.isDigit_of_mem_digits
  have hzero : ∀ c ∈ ['0'], Text.isDigit c = true := fun _ hc => List.mem_singleton.mp hc ▸ rfl
  set ds := Nat.toDigits 10 d.digits with hds
  rw [Binary64.pointed]
  split_ifs with hsmall hlarge
  · -- zeros stand between the point and the digits
    set zeros := List.replicate (-(ds.length + d.exponent)).toNat '0' with hzeros
    have hfraction : ∀ c ∈ zeros ++ ds, Text.isDigit c = true := fun c hc =>
      (List.mem_append.mp hc).elim Text.isDigit_of_mem_zeros (hdigits c)
    have hparse := parse?_point hzero hfraction
    have hread : Text.natural? 10 (['0'] ++ (zeros ++ ds)) = some d.digits :=
      Text.natural?_zeros_toDigits ((-(ds.length + d.exponent)).toNat + 1) d.digits
    refine ⟨d, ?_, rfl⟩
    rw [String.toList_ofList, List.append_assoc]
    refine hparse.trans ?_
    rw [ofParts?, hread, Option.map_some, List.length_append, hzeros, List.length_replicate]
    exact congrArg some (congrArg (mk d.digits) (by omega))
  · -- zeros stand before the point, and one more after it
    set k := (ds.length + d.exponent - ds.length).toNat with hk
    have hwhole : ∀ c ∈ ds ++ List.replicate k '0', Text.isDigit c = true := fun c hc =>
      (List.mem_append.mp hc).elim (hdigits c) Text.isDigit_of_mem_zeros
    have hparse := parse?_point hwhole hzero
    have hread : Text.natural? 10 (ds ++ List.replicate k '0' ++ ['0']) =
        some (10 ^ (k + 1) * d.digits) := by
      rw [List.append_assoc, ← List.replicate_succ', hds, Text.natural?_toDigits_zeros]
    refine ⟨⟨10 ^ (k + 1) * d.digits, -1⟩, ?_, ?_⟩
    · rw [String.toList_ofList]
      refine hparse.trans ?_
      rw [ofParts?, hread]
      rfl
    · have hexponent : d.exponent = k := by omega
      rw [value, value, hexponent, zpow_natCast, zpow_neg_one]
      push_cast
      ring
  · -- the point stands among the digits
    set k := (ds.length + d.exponent).toNat with hk
    have hwhole : ∀ c ∈ ds.take k, Text.isDigit c = true := fun c hc =>
      hdigits c (List.mem_of_mem_take hc)
    have hfraction : ∀ c ∈ ds.drop k, Text.isDigit c = true := fun c hc =>
      hdigits c (List.mem_of_mem_drop hc)
    refine ⟨d, ?_, rfl⟩
    rw [String.toList_ofList]
    refine (parse?_point hwhole hfraction).trans ?_
    rw [ofParts?, List.take_append_drop, hds, Text.natural?_toDigits, Option.map_some, ← hds,
      List.length_drop]
    exact congrArg some (congrArg (mk d.digits) (by omega))

/-- **Digits with an exponent**, the first of them before a point if there are more, are read as the
decimal that they were written for. -/
theorem parse?_of_first_digit {c : Char} {cs : List Char} {e : Int}
    (hds : Nat.toDigits 10 d.digits = c :: cs) (he : e = cs.length + d.exponent) :
    parse? ((if cs = [] then String.singleton c else String.ofList (c :: '.' :: cs)) ++
      ("e" ++ toString e)).toList = some d := by
  have hdigits := d.isDigit_of_mem_digits
  have hread := Text.natural?_toDigits d.digits
  rw [hds] at hdigits hread
  have hc : ∀ a ∈ [c], Text.isDigit a = true := fun a ha =>
    hdigits a (List.mem_singleton.mp ha ▸ List.mem_cons_self)
  have hcs : ∀ a ∈ cs, Text.isDigit a = true := fun a ha => hdigits a (List.mem_cons_of_mem _ ha)
  have hexponent : ("e" ++ toString e).toList = 'e' :: (toString e).toList := String.toList_append
  rw [String.toList_append, hexponent]
  split_ifs with hnil
  · subst hnil
    rw [String.toList_singleton, parse?_exponent hc, exponent?_toString, Option.bind_some, ofParts?,
      List.append_nil, hread, Option.map_some]
    exact congrArg some (congrArg (mk d.digits) (by rw [he, List.length_nil]; omega))
  · rw [String.toList_ofList]
    refine (parse?_point_exponent hc hcs _).trans ?_
    rw [exponent?_toString, Option.bind_some, ofParts?, List.singleton_append, hread,
      Option.map_some]
    exact congrArg some (congrArg (mk d.digits) (by omega))

/-- What is read as an unsigned decimal has no sign. -/
theorem parseBinary64?_of_parse? {s : String} {d : Decimal} (h : parse? s.toList = some d)
    (negative : Bool) :
    parseBinary64? ((if negative then "-" else "") ++ s) = some (d.toBinary64 negative) := by
  cases negative with
  | false =>
    rw [if_neg Bool.false_ne_true, String.empty_append]
    unfold parseBinary64?
    split
    · rename_i cs heq
      rw [heq] at h
      cases h
    · rename_i cs heq
      rw [heq] at h
      cases h
    · rw [h]
      rfl
  | true =>
    have hlist : ("-" ++ s).toList = '-' :: s.toList := String.toList_append
    rw [if_pos rfl, parseBinary64?, hlist]
    exact congrArg (Option.map (toBinary64 true)) h

end Decimal

namespace Binary64

variable {x : Binary64}

/-! ## Numbers -/

/-- A number is made of its sign and its magnitude. -/
theorem ofMagnitudeBits_self (x : Binary64) : ofMagnitudeBits x.isNegative x.magnitudeBits = x := by
  obtain ⟨bits⟩ := x
  have hlt := bits.toNat_lt
  refine congrArg mk (UInt64.toNat_inj.mp ?_)
  rw [UInt64.toNat_ofNat']
  change (if decide (2 ^ 63 ≤ bits.toNat) = true then 2 ^ 63 + bits.toNat % 2 ^ 63
    else bits.toNat % 2 ^ 63) % 2 ^ 64 = bits.toNat
  split_ifs with hsign
  · have := of_decide_eq_true hsign
    omega
  · have := of_decide_eq_false (Bool.eq_false_of_not_eq_true hsign)
    omega

/-- Only zero has no significand. -/
theorem isZero_of_significand_eq_zero (h : x.significand = 0) : x.isZero = true := by
  have hleast : x.scale = -1074 := by
    by_contra hne
    have := x.significand_ge hne
    omega
  have hbits := x.magnitudeBits_eq
  rw [h, hleast] at hbits
  exact beq_iff_eq.mpr hbits

/-- A text with a sign is read as the number, if the text after the sign is read as a decimal of the
same value as the one that is chosen for the number. -/
theorem parseBinary64?_of_value_eq (hfinite : x.isFinite = true) (hx : x.significand ≠ 0)
    {s : String} {d : Decimal} (hparse : Decimal.parse? s.toList = some d)
    (hvalue : d.value = x.shortest.value) :
    Decimal.parseBinary64? ((if x.isNegative then "-" else "") ++ s) = some x := by
  rw [Decimal.parseBinary64?_of_parse? hparse,
    Decimal.toBinary64_of_near hfinite hx (hvalue ▸ shortest_near hx), ofMagnitudeBits_self]

/-- Zero is read back. -/
theorem parseBinary64?_zero (hx : x.isZero = true) :
    Decimal.parseBinary64? ((if x.isNegative then "-" else "") ++ "0.0") = some x := by
  have hbits : x.magnitudeBits = 0 := eq_of_beq hx
  have hparse : Decimal.parse? "0.0".toList = some ⟨0, -1⟩ := rfl
  rw [Decimal.parseBinary64?_of_parse? hparse]
  have hzero := ofMagnitudeBits_self x
  rw [hbits] at hzero
  exact congrArg some hzero

/-- **A finite number is read back** from its text in the layout of data formats. -/
theorem parseBinary64?_scientific (hfinite : x.isFinite = true) :
    Decimal.parseBinary64? x.scientific = some x := by
  rw [scientific]
  by_cases hzero : x.isZero = true
  · rw [if_pos hzero]
    exact parseBinary64?_zero hzero
  rw [if_neg hzero]
  have hx := mt isZero_of_significand_eq_zero hzero
  split
  · obtain ⟨d, hparse, hvalue⟩ := Decimal.parse?_pointed x.shortest
    exact parseBinary64?_of_value_eq hfinite hx hparse hvalue
  · cases hds : Nat.toDigits 10 x.shortest.digits with
    | nil => exact absurd hds Nat.toDigits_ne_nil
    | cons c cs =>
      have hparse := x.shortest.parse?_of_first_digit
        (e := (c :: cs).length + x.shortest.exponent - 1) hds (by rw [List.length_cons]; omega)
      have hread := parseBinary64?_of_value_eq hfinite hx hparse rfl
      rw [← String.append_assoc, ← String.append_assoc] at hread
      cases cs with
      | nil => exact hread
      | cons c' cs => exact hread

/-- **A finite number is read back** from its text with all places written out. -/
theorem parseBinary64?_positional (hfinite : x.isFinite = true) :
    Decimal.parseBinary64? x.positional = some x := by
  rw [positional]
  by_cases hzero : x.isZero = true
  · rw [if_pos hzero]
    exact parseBinary64?_zero hzero
  · rw [if_neg hzero]
    obtain ⟨d, hparse, hvalue⟩ := Decimal.parse?_pointed x.shortest
    exact parseBinary64?_of_value_eq hfinite (mt isZero_of_significand_eq_zero hzero) hparse hvalue

/-- There is a point among the digits in the one layout. -/
theorem mem_pointed (digits : List Char) (point : Int) : '.' ∈ (pointed digits point).toList := by
  rw [pointed]
  split_ifs <;> simp

/-- **A number shows** that it is a double: its text has a point or an exponent. -/
theorem mem_scientific (x : Binary64) :
    ∃ c ∈ x.scientific.toList, c = '.' ∨ c = 'e' := by
  rw [scientific]
  by_cases hzero : x.isZero = true
  · rw [if_pos hzero, String.toList_append]
    exact ⟨'.', List.mem_append_right _ (by decide), .inl rfl⟩
  rw [if_neg hzero]
  split
  · rw [String.toList_append]
    exact ⟨'.', List.mem_append_right _ (mem_pointed _ _), .inl rfl⟩
  · cases hds : Nat.toDigits 10 x.shortest.digits with
    | nil => exact absurd hds Nat.toDigits_ne_nil
    | cons c cs =>
      refine ⟨'e', ?_, .inr rfl⟩
      cases cs <;>
        exact String.toList_append ▸ List.mem_append_left _
          (String.toList_append ▸ List.mem_append_right _ (by decide))

end Binary64

end DeployPlan
