import DeployPlan.Proofs.Parameter.Moved
import DeployPlan.Yaml.Decode

/-!
# Texts of plain scalars

Where the text of a scalar is due, a plain scalar gives the text of the value that its characters
look like.  That is a text of its own for each value, whatever spelling of the value was written; a
plain scalar with that text gives it again.

## Main definitions

* `Tree.written` — a scalar in one of the styles.
* `Scalar.Faithful` — a text that a plain scalar gives unchanged.

## Main results

* `Scalar.plainValue?_floatText` — a float is read back from its text.
* `Scalar.looks` — what plain characters look like.
* `Decoder.scalarText_plain_eq_self_iff` — which plain scalars give their characters.
* `Decoder.faithful_of_scalarText_plain` — whatever a plain scalar gives is such a text.
* `Decoder.scalarText_plain_fails_iff` — which plain scalars give none.
-/

set_option autoImplicit false

namespace DeployPlan

/-! ## Digits -/

namespace Text

/-- What holds a character that is no digit is no number. -/
theorem natural?_eq_none {base : Nat} {cs : List Char} {c : Char} (hmem : c ∈ cs)
    (hc : digit? base c = none) : natural? base cs = none := by
  obtain ⟨before, after, rfl⟩ := List.append_of_mem hmem
  have hstay (ds : List Char) :
      ds.foldl (fun acc d => do return (← acc) * base + (← digit? base d)) none = none := by
    induction ds with
    | nil => rfl
    | cons d ds ih => exact ih
  rw [natural?, if_neg (by simp), List.foldl_append, List.foldl_cons, hc]
  generalize before.foldl _ (some 0) = read
  cases read <;> exact hstay after

end Text

/-! ## Texts of floats -/

namespace Binary64

/-- A character of the text of a finite number. -/
def FloatChar (c : Char) : Prop := Yaml.Value.IntegerChar c ∨ c = '.' ∨ c = 'e'

/-- Digits are such characters. -/
theorem floatChar_of_isDigit {c : Char} (h : Text.isDigit c = true) : FloatChar c := .inl (.inl h)

/-- A text of two parts with such characters. -/
theorem floatChar_of_mem_append {a b : String} (ha : ∀ c ∈ a.toList, FloatChar c)
    (hb : ∀ c ∈ b.toList, FloatChar c) : ∀ c ∈ (a ++ b).toList, FloatChar c := by
  rw [String.toList_append, List.forall_mem_append]
  exact ⟨ha, hb⟩

/-- Characters with a point before them. -/
theorem floatChar_of_mem_point {cs : List Char} (h : ∀ c ∈ cs, FloatChar c) :
    ∀ c ∈ '.' :: cs, FloatChar c :=
  List.forall_mem_cons.mpr ⟨.inr (.inl rfl), h⟩

/-- Digits with a point. -/
theorem floatChar_of_mem_pointed {digits : List Char} {point : Int}
    (h : ∀ c ∈ digits, Text.isDigit c = true) :
    ∀ c ∈ (pointed digits point).toList, FloatChar c := by
  have hdigits : ∀ c ∈ digits, FloatChar c := fun c hc => floatChar_of_isDigit (h c hc)
  have hzeros {k : Nat} : ∀ c ∈ List.replicate k '0', FloatChar c := fun c hc =>
    floatChar_of_isDigit (Text.isDigit_of_mem_zeros hc)
  rw [pointed]
  split_ifs
  · have hstart : ∀ c ∈ "0.".toList, FloatChar c :=
      List.forall_mem_cons.mpr
        ⟨floatChar_of_isDigit rfl, floatChar_of_mem_point (List.forall_mem_nil _)⟩
    rw [String.toList_ofList, List.forall_mem_append, List.forall_mem_append]
    exact ⟨⟨hstart, hzeros⟩, hdigits⟩
  · rw [String.toList_ofList, List.forall_mem_append, List.forall_mem_append]
    exact ⟨⟨hdigits, hzeros⟩, floatChar_of_mem_point (hzeros (k := 1))⟩
  · rw [String.toList_ofList, List.forall_mem_append]
    exact ⟨fun c hc => hdigits c (List.mem_of_mem_take hc),
      floatChar_of_mem_point fun c hc => hdigits c (List.mem_of_mem_drop hc)⟩

/-- **A finite number** is written with digits, signs, a point and an exponent. -/
theorem floatChar_of_mem_scientific (x : Binary64) : ∀ c ∈ x.scientific.toList, FloatChar c := by
  have hsign : ∀ c ∈ (if x.isNegative then "-" else "").toList, FloatChar c := by
    split_ifs
    · exact fun c hc => .inl (.inr (List.mem_singleton.mp hc))
    · exact List.forall_mem_nil _
  have hdigits : ∀ c ∈ Nat.toDigits 10 x.shortest.digits, Text.isDigit c = true :=
    x.shortest.isDigit_of_mem_digits
  have hzero : ∀ c ∈ ['0'], Text.isDigit c = true := fun _ hc => List.mem_singleton.mp hc ▸ rfl
  have hmark : ∀ c ∈ "e".toList, FloatChar c := fun c hc =>
    .inr (.inr (List.mem_singleton.mp hc))
  have hexponent (e : Int) : ∀ c ∈ (toString e).toList, FloatChar c := fun c hc =>
    .inl (Yaml.Value.integerChar_of_mem_toString c hc)
  have hzeroText : ∀ c ∈ (pointed ['0'] 1).toList, FloatChar c := floatChar_of_mem_pointed hzero
  rw [scientific]
  by_cases hx : x.isZero = true
  · rw [if_pos hx]
    exact floatChar_of_mem_append hsign hzeroText
  rw [if_neg hx]
  split
  · exact floatChar_of_mem_append hsign (floatChar_of_mem_pointed hdigits)
  · cases hds : Nat.toDigits 10 x.shortest.digits with
    | nil => exact absurd hds Nat.toDigits_ne_nil
    | cons d ds =>
      rw [hds] at hdigits
      cases ds with
      | nil =>
        have hfirst : ∀ c ∈ (String.singleton d).toList, FloatChar c := fun c hc =>
          floatChar_of_isDigit (hdigits c (by simpa using hc))
        exact floatChar_of_mem_append
          (floatChar_of_mem_append (floatChar_of_mem_append hsign hfirst) hmark) (hexponent _)
      | cons d' ds =>
        obtain ⟨hd, hds⟩ := List.forall_mem_cons.mp hdigits
        have hmore : ∀ c ∈ (String.ofList (d :: '.' :: d' :: ds)).toList, FloatChar c := by
          rw [String.toList_ofList, List.forall_mem_cons]
          exact ⟨floatChar_of_isDigit hd,
            floatChar_of_mem_point fun c hc => floatChar_of_isDigit (hds c hc)⟩
        exact floatChar_of_mem_append
          (floatChar_of_mem_append (floatChar_of_mem_append hsign hmore) hmark) (hexponent _)

end Binary64

namespace Yaml

namespace Scalar

/-- Characters without a mark of another base. -/
theorem magnitude?_eq_natural? {cs : List Char} (h : ∀ c ∈ cs, Binary64.FloatChar c) :
    magnitude? cs = Text.natural? 10 cs := by
  have hmark {c : Char} {ds : List Char} (hcs : cs = '0' :: c :: ds) : Binary64.FloatChar c :=
    h c (hcs ▸ .tail _ (.head _))
  unfold magnitude?
  split
  · exact absurd (hmark rfl) (by simp [Binary64.FloatChar, Value.IntegerChar, Text.isDigit])
  · exact absurd (hmark rfl) (by simp [Binary64.FloatChar, Value.IntegerChar, Text.isDigit])
  · exact absurd (hmark rfl) (by simp [Binary64.FloatChar, Value.IntegerChar, Text.isDigit])
  · rfl

/-- A point or an exponent is no sign. -/
theorem mem_behind_sign {sign c : Char} {ds : List Char} (hsign : sign = '-' ∨ sign = '+')
    (hc : c = '.' ∨ c = 'e') (hmem : c ∈ sign :: ds) : c ∈ ds := by
  rcases List.mem_cons.mp hmem with rfl | hmem
  · rcases hc with rfl | rfl <;> rcases hsign with h | h <;> cases h
  · exact hmem

/-- **A point or an exponent** is no part of an integer. -/
theorem integer?_eq_none {cs : List Char} (h : ∀ c ∈ cs, Binary64.FloatChar c) {c : Char}
    (hmem : c ∈ cs) (hc : c = '.' ∨ c = 'e') : integer? cs = none := by
  have hdigit : Text.digit? 10 c = none := by
    rcases hc with rfl | rfl <;> rfl
  have hnone {ds : List Char} (hds : ∀ c ∈ ds, Binary64.FloatChar c) (hmem : c ∈ ds) :
      magnitude? ds = none := by
    rw [magnitude?_eq_natural? hds, Text.natural?_eq_none hmem hdigit]
  rw [integer?_eq]
  split_ifs
  · rfl
  · unfold Text.signed?
    split
    · rw [hnone (fun a ha => h a (.tail _ ha)) (mem_behind_sign (.inl rfl) hc hmem)]
      rfl
    · rw [hnone (fun a ha => h a (.tail _ ha)) (mem_behind_sign (.inr rfl) hc hmem)]
      rfl
    · rw [hnone h hmem]
      rfl

/-- Nor is it among padded digits. -/
theorem isPaddedDigits_eq_false {cs : List Char} {c : Char} (hmem : c ∈ cs)
    (hc : c = '.' ∨ c = 'e') : isPaddedDigits cs = false := by
  have hdigit : Text.isDigit c = false := by
    rcases hc with rfl | rfl <;> rfl
  have hnone {ds : List Char} (hmem : c ∈ ds) : ds.all Text.isDigit = false :=
    List.all_eq_false.mpr ⟨c, hmem, by simp [hdigit]⟩
  rw [isPaddedDigits.eq_def]
  dsimp only
  split
  · rw [hnone (mem_behind_sign (.inl rfl) hc hmem), Bool.and_false]
  · rw [hnone (mem_behind_sign (.inr rfl) hc hmem), Bool.and_false]
  · rw [hnone hmem, Bool.and_false]

/-! ## Values of floats -/

/-- What is neither empty nor one of the words does not look like null or a truth value. -/
theorem not_null_or_bool {s : String} (h : ∀ w ∈ "" :: words, s ≠ w) :
    (s.isEmpty || isNullWord s) = false ∧ bool? s = none := by
  constructor
  · simp_all [isNullWord, words]
  · simp_all [bool?, words]

/-- The words for infinities and for what is not a number. -/
def floatWords : List String :=
  [".inf", ".Inf", ".INF", "+.inf", "+.Inf", "+.INF", "-.inf", "-.Inf", "-.INF", ".nan", ".NaN",
    ".NAN"]

/-- No word is a decimal. -/
theorem parseBinary64?_word : ∀ w ∈ "" :: words ++ floatWords, Decimal.parseBinary64? w = none := by
  decide

/-- What is read as a finite decimal is that float. -/
theorem float?_of_parseBinary64? {s : String} {x : Binary64}
    (h : Decimal.parseBinary64? s = some x) (hfinite : x.isFinite = true) : float? s = some x := by
  have hword : ∀ w ∈ floatWords, s ≠ w := by
    rintro w hw rfl
    rw [parseBinary64?_word s (List.mem_append_right _ hw)] at h
    cases h
  have hfloat : (Decimal.parseBinary64? s).filter Binary64.isFinite = some x := by
    rw [h, Option.filter_some_pos hfinite]
  simp_all [float?, floatWords]

/-- **A float is read back** from its text in a document; of those that are not a number, there is
one for all. -/
theorem plainValue?_floatText (x : Binary64) :
    ∃ y, plainValue? (Value.floatText x) = some (.float y) ∧
      Value.floatText y = Value.floatText x := by
  cases hfinite : x.isFinite with
  | true =>
    refine ⟨x, ?_, rfl⟩
    rw [Value.floatText_of_isFinite hfinite]
    have hparse := Binary64.parseBinary64?_scientific hfinite
    have hword : ∀ w ∈ "" :: words, x.scientific ≠ w := by
      intro w hw heq
      rw [heq, parseBinary64?_word w (List.mem_append_left _ hw)] at hparse
      cases hparse
    obtain ⟨c, hmem, hc⟩ := x.mem_scientific
    have hint : integer? x.scientific.toList = none :=
      integer?_eq_none x.floatChar_of_mem_scientific hmem hc
    have hpadded : isPaddedDigits x.scientific.toList = false := isPaddedDigits_eq_false hmem hc
    have hfloat : float? x.scientific = some x := float?_of_parseBinary64? hparse hfinite
    obtain ⟨hnull, hbool⟩ := not_null_or_bool hword
    simp only [plainValue?, hnull, hbool, hint, hpadded, hfloat, Option.filter_none,
      Bool.false_eq_true, if_false]
  | false =>
    rw [Value.floatText_of_not_isFinite hfinite]
    split_ifs
    · exact ⟨Binary64.nan, rfl, rfl⟩
    · exact ⟨Binary64.infinity true, rfl, rfl⟩
    · exact ⟨Binary64.infinity false, rfl, rfl⟩

/-! ## What plain characters look like -/

/-- What plain characters look like: null, a truth value, an integer (which has no value if it is
out of range), a float, or a text. -/
inductive Looks (s : String) : Prop
  | null (h : plainValue? s = some .null)
  | bool (b : Bool) (h : plainValue? s = some (.bool b))
  | int (n : Int) (hrange : inRange n = true) (h : plainValue? s = some (.int n))
  | outOfRange (n : Int) (hread : integer? s.toList = some n) (hrange : outOfRange n = true)
      (h : plainValue? s = none)
  | float (x : Binary64) (h : plainValue? s = some (.float x))
  | text (h : plainValue? s = some (.str s))

/-- Plain characters look like one of these. -/
theorem looks (s : String) : Looks s := by
  have heq : plainValue? s = plainValue? s := rfl
  conv_rhs at heq => unfold plainValue?
  split at heq
  · exact .null heq
  split at heq
  · exact .bool _ heq
  dsimp only at heq
  split at heq
  · rename_i n hn
    obtain ⟨hread, hsize⟩ := Option.filter_eq_some_iff.mp hn
    split at heq
    · rename_i hrange
      exact .int n hrange heq
    · rename_i hrange
      rw [Bool.eq_false_of_not_eq_true hrange, Bool.false_or] at hsize
      exact .outOfRange n hread hsize heq
  split at heq
  · exact .text heq
  split at heq
  · exact .float _ heq
  · exact .text heq

/-- An integer that is out of range has no value. -/
theorem plainValue?_of_outOfRange {s : String} {n : Int} (hread : integer? s.toList = some n)
    (hrange : outOfRange n = true) : plainValue? s = none := by
  have hwords : ∀ w ∈ "" :: words, integer? w.toList = none := by decide
  have hword : ∀ w ∈ "" :: words, s ≠ w := by
    rintro w hw rfl
    rw [hwords s hw] at hread
    cases hread
  have hnot : inRange n = false := by
    simp_all [outOfRange]
  obtain ⟨hnull, hbool⟩ := not_null_or_bool hword
  simp only [plainValue?, hnull, hbool, hread, hnot, hrange, Option.filter_some, Bool.false_or,
    Bool.false_eq_true, if_false, if_true]

/-- A text that a plain scalar gives unchanged: nothing, the text of a truth value or a number, or
one that looks like none of these. -/
inductive Faithful : String → Prop
  | empty : Faithful ""
  | bool (b : Bool) : Faithful (toString b)
  | int {n : Int} (h : inRange n = true) : Faithful (toString n)
  | float (x : Binary64) : Faithful (Value.floatText x)
  | text {s : String} (h : plainValue? s = some (.str s)) : Faithful s

end Scalar

/-- A scalar in one of the styles. -/
def Tree.written (style : Style) (s : String) : Tree := .scalar (.ofText none style s)

/-- A scalar in quotes or in a block is its text. -/
theorem Tree.value?_written {style : Style} (h : style ≠ .plain) (s : String) :
    (written style s).value? = some (.str s) := by
  cases style <;> first | rfl | exact absurd rfl h

/-- A plain scalar is what its characters look like. -/
theorem Tree.value?_written_plain (s : String) :
    (written .plain s).value? = Scalar.plainValue? s := rfl

namespace Decoder

open Scalar (Faithful Looks looks plainValue? integer? outOfRange)

/-- **In quotes** every text is given unchanged. -/
theorem scalarText_written {style : Style} (h : style ≠ .plain) (s : String) :
    scalarText (.written style s) = .ok s := by
  simp only [scalarText, Tree.value?_written h]

/-- A plain scalar gives a text that a plain scalar gives unchanged, or it is an integer that is out
of range. -/
theorem scalarText_plain_cases (s : String) :
    (∃ t, Faithful t ∧ scalarText (.written .plain s) = .ok t) ∨
      ∃ n, integer? s.toList = some n ∧ outOfRange n = true := by
  rw [scalarText, Tree.value?_written_plain]
  cases looks s with
  | null h => exact .inl ⟨"", .empty, by rw [h]⟩
  | bool b h => exact .inl ⟨toString b, .bool b, by rw [h]⟩
  | int n hrange h => exact .inl ⟨toString n, .int hrange, by rw [h]⟩
  | outOfRange n hread hrange => exact .inr ⟨n, hread, hrange⟩
  | float x h => exact .inl ⟨Value.floatText x, .float x, by rw [h]⟩
  | text h => exact .inl ⟨s, .text h, by rw [h]⟩

/-- **Which plain scalars give no text**: the integers that are out of range. -/
theorem scalarText_plain_fails_iff {s : String} :
    (∀ t, scalarText (.written .plain s) ≠ .ok t) ↔
      ∃ n, integer? s.toList = some n ∧ outOfRange n = true := by
  constructor
  · intro h
    rcases scalarText_plain_cases s with ⟨t, -, ht⟩ | hout
    · exact absurd ht (h t)
    · exact hout
  · rintro ⟨n, hread, hrange⟩ t ht
    rw [scalarText, Tree.value?_written_plain,
      Scalar.plainValue?_of_outOfRange hread hrange] at ht
    cases ht

/-- The text that a plain scalar gives is one that a plain scalar gives unchanged. -/
theorem faithful_of_scalarText_plain {s t : String}
    (h : scalarText (.written .plain s) = .ok t) : Faithful t := by
  rcases scalarText_plain_cases s with ⟨t', hfaithful, ht'⟩ | hout
  · obtain rfl : t' = t := Except.ok.inj (ht'.symm.trans h)
    exact hfaithful
  · exact absurd h (scalarText_plain_fails_iff.mpr hout t)

/-- A plain scalar gives such a text unchanged. -/
theorem scalarText_plain_of_faithful {s : String} (h : Faithful s) :
    scalarText (.written .plain s) = .ok s := by
  rw [scalarText, Tree.value?_written_plain]
  cases h with
  | empty => rfl
  | bool b => cases b <;> rfl
  | int hrange => rw [Scalar.plainValue?_toString hrange]
  | float x =>
    obtain ⟨y, hy, htext⟩ := Scalar.plainValue?_floatText x
    rw [hy, ← htext]
  | text hs => rw [hs]

/-- **Which plain scalars give their characters.** -/
theorem scalarText_plain_eq_self_iff {s : String} :
    scalarText (.written .plain s) = .ok s ↔ Faithful s :=
  ⟨faithful_of_scalarText_plain, scalarText_plain_of_faithful⟩

end Decoder

end Yaml

end DeployPlan
