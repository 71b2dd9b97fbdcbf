import DeployPlan.Proofs.Interpolation
import DeployPlan.Proofs.Parameter.Given
import DeployPlan.Proofs.Text.Pieces
import DeployPlan.Proofs.Yaml.KeyTexts
import DeployPlan.Yaml.Scalar

/-!
# Values that are moved into variables

A value that is written in a document can be moved into a variable, with a reference to the variable
in its place.  A truth value is the same parameter then.  So is an integer, if it fits sixty-four
bits as a signed number; but a document may also have the integers above these that fit as unsigned
numbers, and their texts are refused.

## Main definitions

* `Yaml.Scalar.IsInteger` — an integer that a scalar of a document can stand for.
* `Interpolation.RefersTo` — a text that is one reference.
* `ParamDeclaration.Gives` — a declared parameter of a type with a value.

## Main results

* `ParamType.integerOfText?_toString` — which integers are read back from their texts in variables.
* `Yaml.Scalar.isInteger_iff` — the integers of documents.
* `Interpolation.refersTo_iff` — the texts that are one reference.
* `ParamDeclaration.resolve_moved` — what becomes of a value that is moved into a variable.
* `ParamDeclaration.resolve_moved_fails` — it can be refused.
-/

set_option autoImplicit false

namespace DeployPlan

open Yaml (Value)

/-! ## Texts of integers -/

namespace Text

/-- What is no digit is not among the digits of a number. -/
theorem not_mem_toDigits {c : Char} (hc : isDigit c = false) (k : Nat) :
    c ∉ Nat.toDigits 10 k := by
  intro hmem
  rw [isDigit_of_mem_toDigits hmem] at hc
  cases hc

/-- The digits of a positive number do not start with a zero. -/
theorem head?_toDigits_ne {n : Nat} (h : 0 < n) : (Nat.toDigits 10 n).head? ≠ some '0' := by
  induction n using Nat.strong_induction_on with
  | _ n ih =>
    by_cases hn : n < 10
    · rw [Nat.toDigits_of_lt_base hn]
      intro hhead
      have hzero : n.digitChar = '0' := Option.some.inj hhead
      have hcode := Nat.toNat_digitChar_of_lt_ten hn
      rw [hzero] at hcode
      change 48 = 48 + n at hcode
      omega
    · rw [Nat.toDigits_of_base_le (by decide) (by omega),
        List.head?_append_of_ne_nil _ Nat.toDigits_ne_nil]
      exact ih (n / 10) (by omega) (by omega)

/-- **The text of an integer** is that of a natural number, or that of a positive one behind a
sign. -/
theorem toList_toString_cases (n : Int) :
    (∃ k : Nat, n = k ∧ (toString n).toList = Nat.toDigits 10 k) ∨
      ∃ k : Nat, 0 < k ∧ n = -k ∧ (toString n).toList = '-' :: Nat.toDigits 10 k := by
  change (∃ k : Nat, n = k ∧ n.repr.toList = _) ∨ ∃ k : Nat, 0 < k ∧ n = -k ∧ n.repr.toList = _
  rw [Int.repr_eq_if]
  split_ifs with hn
  · exact .inl ⟨n.toNat, by omega, Nat.toList_repr⟩
  · refine .inr ⟨(-n).toNat, by omega, by omega, ?_⟩
    rw [String.toList_append, Nat.toList_repr]
    rfl

/-- Nothing is trimmed off a text without blanks. -/
theorem trim_eq_self {s : String} (h : ∀ c ∈ s.toList, isBlank c = false) : trim s = s :=
  trim_eq_self_iff.mpr ⟨fun c hc => h c (List.mem_of_mem_head? hc),
    fun c hc => h c (List.mem_of_mem_getLast? hc)⟩

/-- Digits are no blanks. -/
theorem isBlank_of_isDigit {c : Char} (h : isDigit c = true) : isBlank c = false := by
  obtain ⟨hlow, hhigh⟩ := Bool.and_eq_true_iff.mp h
  have hlow : 48 ≤ c.toNat := of_decide_eq_true hlow
  have hhigh : c.toNat ≤ 57 := of_decide_eq_true hhigh
  simp only [isBlank, Bool.or_eq_false_iff, Bool.and_eq_false_iff, decide_eq_false_iff_not,
    beq_eq_false_iff_ne]
  omega

/-- The text of an integer has no blanks. -/
theorem trim_toString (n : Int) : trim (toString n) = toString n := by
  refine trim_eq_self fun c hc => ?_
  obtain ⟨k, -, hlist⟩ | ⟨k, -, -, hlist⟩ := toList_toString_cases n
  · exact isBlank_of_isDigit (isDigit_of_mem_toDigits (hlist ▸ hc))
  · rw [hlist] at hc
    rcases List.mem_cons.mp hc with rfl | hc
    · rfl
    · exact isBlank_of_isDigit (isDigit_of_mem_toDigits hc)

/-- An integer with a sign, or without one, behind which `read` reads a natural number. -/
def signed? (read : List Char → Option Nat) (cs : List Char) : Option Int :=
  match cs with
  | '-' :: ds => (read ds).map fun n => -(n : Int)
  | '+' :: ds => (read ds).map Int.ofNat
  | ds => (read ds).map Int.ofNat

/-- An integer is read back from its text if natural numbers are read back from their digits. -/
theorem signed?_toString {read : List Char → Option Nat}
    (hread : ∀ k, read (Nat.toDigits 10 k) = some k) (n : Int) :
    signed? read (toString n).toList = some n := by
  obtain ⟨k, rfl, hlist⟩ | ⟨k, -, rfl, hlist⟩ := toList_toString_cases n
  · rw [hlist, signed?.eq_def]
    split
    · rename_i ds hds
      exact absurd (hds ▸ List.mem_cons_self) (not_mem_toDigits (c := '-') rfl k)
    · rename_i ds hds
      exact absurd (hds ▸ List.mem_cons_self) (not_mem_toDigits (c := '+') rfl k)
    · rw [hread]
      rfl
  · rw [hlist, signed?, hread]
    rfl

end Text

namespace ParamType

/-- An integer is read from a variable with its sign, if it fits sixty-four bits. -/
theorem integerOfText?_eq (s : String) :
    integerOfText? s = (Text.signed? (Text.natural? 10) s.toList).filter fun n =>
      -(Int.pow 2 63) ≤ n && n < Int.pow 2 63 := rfl

/-- **An integer is read back** from its text in a variable exactly if it fits sixty-four bits with
its sign. -/
theorem integerOfText?_toString (n : Int) :
    integerOfText? (toString n) =
      if -(Int.pow 2 63) ≤ n ∧ n < Int.pow 2 63 then some n else none := by
  rw [integerOfText?_eq, Text.signed?_toString Text.natural?_toDigits, Option.filter_some]
  simp only [Bool.and_eq_true, decide_eq_true_eq]

/-- **The text of an integer** is taken for a parameter of that type if it fits, else refused. -/
theorem coerce_toString_int {n : Int} (h : -(Int.pow 2 63) ≤ n) :
    ParamType.integer.coerce (.str (toString n)) =
      if n < Int.pow 2 63 then .ok (.int n) else .error (.unreadable "integer" (toString n)) := by
  change ofText .integer (toString n) = _
  simp only [ofText, Text.trim_toString, integerOfText?_toString, h, true_and]
  split_ifs <;> rfl

/-- The text of a truth value is taken for a parameter of that type. -/
theorem coerce_toString_bool (b : Bool) :
    ParamType.boolean.coerce (.str (toString b)) = .ok (.bool b) := by
  cases b <;> rfl

end ParamType

/-! ## Literals -/

namespace Yaml

namespace Scalar

/-- An integer is read from a document with its sign, but not with zeros before it. -/
theorem integer?_eq (cs : List Char) :
    integer? cs = if isPaddedDigits cs then none else Text.signed? magnitude? cs := rfl

/-- Digits of a number have no mark of another base. -/
theorem magnitude?_toDigits (k : Nat) : magnitude? (Nat.toDigits 10 k) = some k := by
  unfold magnitude?
  split
  · rename_i hds
    exact absurd (hds ▸ .tail _ (.head _)) (Text.not_mem_toDigits (c := 'x') rfl k)
  · rename_i hds
    exact absurd (hds ▸ .tail _ (.head _)) (Text.not_mem_toDigits (c := 'o') rfl k)
  · rename_i hds
    exact absurd (hds ▸ .tail _ (.head _)) (Text.not_mem_toDigits (c := 'b') rfl k)
  · exact Text.natural?_toDigits k

/-- The digits of a number are not padded with zeros. -/
theorem padded_toDigits (k : Nat) :
    (decide (1 < (Nat.toDigits 10 k).length) && (Nat.toDigits 10 k).head? == some '0') = false := by
  rcases Nat.eq_zero_or_pos k with rfl | hk
  · rfl
  · simp [Text.head?_toDigits_ne hk]

/-- Texts of integers are not padded with zeros. -/
theorem isPaddedDigits_toString (n : Int) : isPaddedDigits (toString n).toList = false := by
  obtain ⟨k, -, hlist⟩ | ⟨k, -, -, hlist⟩ := Text.toList_toString_cases n
  · rw [hlist, isPaddedDigits.eq_def]
    dsimp only
    split
    · rename_i ds hds
      exact absurd (hds ▸ List.mem_cons_self) (Text.not_mem_toDigits (c := '-') rfl k)
    · rename_i ds hds
      exact absurd (hds ▸ List.mem_cons_self) (Text.not_mem_toDigits (c := '+') rfl k)
    · rw [padded_toDigits, Bool.false_and]
  · rw [hlist, isPaddedDigits, padded_toDigits, Bool.false_and]

/-- An integer is read back from its text. -/
theorem integer?_toString (n : Int) : integer? (toString n).toList = some n := by
  rw [integer?_eq, isPaddedDigits_toString, Text.signed?_toString magnitude?_toDigits]
  rfl

/-- The words that stand for null and for truth values. -/
def words : List String :=
  ["null", "Null", "NULL", "~", "true", "True", "TRUE", "false", "False", "FALSE"]

/-- The text of an integer is none of these words, nor empty. -/
theorem toString_ne_word (n : Int) : ∀ w ∈ "" :: words, toString n ≠ w := by
  rintro w hw rfl
  rcases List.mem_cons.mp hw with hempty | hw
  · have hread := integer?_toString n
    rw [hempty] at hread
    cases hread
  · have hletter : ∀ w ∈ words, (w.toList.any fun c => !(Text.isDigit c || c == '-')) = true := by
      decide
    obtain ⟨c, hc, hnot⟩ := List.any_eq_true.mp (hletter _ hw)
    obtain hdigit | hsign := Value.integerChar_of_mem_toString c hc
    · simp [hdigit] at hnot
    · simp [hsign] at hnot

/-- **An integer is read back** from its text in a document if it is in range. -/
theorem plainValue?_toString {n : Int} (h : inRange n = true) :
    plainValue? (toString n) = some (.int n) := by
  have hword := toString_ne_word n
  have hnull : ((toString n).isEmpty || isNullWord (toString n)) = false := by
    simp_all [isNullWord, words]
  have hbool : bool? (toString n) = none := by
    simp_all [bool?, words]
  have hint : (integer? (toString n).toList).filter (fun n => inRange n || outOfRange n) =
      some n := by
    rw [integer?_toString, Option.filter_some, h, Bool.true_or, if_pos rfl]
  simp only [plainValue?, hnull, hbool, hint, h, if_true, Bool.false_eq_true, if_false]

/-- An integer that plain characters look like is in range. -/
theorem inRange_of_plainValue? {s : String} {n : Int} (h : plainValue? s = some (.int n)) :
    inRange n = true := by
  rw [plainValue?] at h
  split at h
  · cases h
  · split at h
    · cases h
    · dsimp only at h
      split at h
      · split at h
        · rename_i hn
          cases h
          exact hn
        · cases h
      · split at h
        · cases h
        · split at h <;> cases h

/-- So is one behind a tag that names a type. -/
theorem inRange_of_typedValue? {kind s : String} {n : Int}
    (h : typedValue? kind s = some (.int n)) : inRange n = true := by
  rw [typedValue?] at h
  split at h
  · obtain ⟨b, -, hb⟩ := Option.map_eq_some_iff.mp h
    cases hb
  · split at h
    · obtain ⟨k, hk, hkn⟩ := Option.map_eq_some_iff.mp h
      cases hkn
      exact (Option.filter_eq_some_iff.mp hk).2
    · split at h
      · obtain ⟨x, -, hx⟩ := Option.map_eq_some_iff.mp h
        cases hx
      · split at h
        · split at h <;> cases h
        · cases h

/-- An integer that a scalar of a document can stand for, whatever its tag and its style. -/
def IsInteger (n : Int) : Prop := ∃ tag style s, value? tag style s = some (.int n)

/-- **The integers of documents** are those that fit sixty-four bits, as signed or as unsigned
numbers. -/
theorem isInteger_iff {n : Int} : IsInteger n ↔ -(Int.pow 2 63) ≤ n ∧ n < Int.pow 2 64 := by
  have hrange : inRange n = true ↔ -(Int.pow 2 63) ≤ n ∧ n < Int.pow 2 64 := by
    rw [inRange, Bool.and_eq_true, decide_eq_true_iff, decide_eq_true_iff]
  rw [← hrange]
  constructor
  · rintro ⟨tag, style, s, h⟩
    have huntyped : (if style == .plain then plainValue? s else some (.str s)) = some (.int n) →
        inRange n = true := by
      split
      · exact inRange_of_plainValue?
      · rintro ⟨⟩
    cases tag with
    | none => exact huntyped h
    | some tag =>
      change (if isLocalTag tag then _ else _) = _ at h
      split at h
      · exact huntyped h
      · exact inRange_of_typedValue? h
  · exact fun h => ⟨none, .plain, toString n, plainValue?_toString h⟩

end Scalar

end Yaml

/-! ## References -/

namespace Interpolation

/-- A text that is one reference to a variable. -/
def RefersTo (var s : String) : Prop :=
  ∃ after : List Char, s.toList = '$' :: after ∧ Begins after var.toList []

/-- There are two such texts for each name, without braces and with them. -/
theorem refersTo_iff {var s : String} :
    RefersTo var s ↔ Name var.toList ∧
      (s.toList = '$' :: var.toList ∨ s.toList = '$' :: '{' :: (var.toList ++ ['}'])) := by
  constructor
  · rintro ⟨after, hs, hname | ⟨hname, -⟩⟩
    · exact ⟨hname, .inr hs⟩
    · rw [List.append_nil] at hs
      exact ⟨hname, .inl hs⟩
  · rintro ⟨hname, hs | hs⟩
    · have hbare : Begins (var.toList ++ []) var.toList [] := .bare hname (by simp)
      rw [List.append_nil] at hbare
      exact ⟨_, hs, hbare⟩
    · exact ⟨_, hs, .braced hname⟩

/-- Such a text becomes what the variable stands for. -/
theorem RefersTo.expand_eq {vars : Variables} {var s text : String} (h : RefersTo var s)
    (hvar : vars.get? var = some text) : expand vars s = text := by
  obtain ⟨after, hs, hbegins⟩ := h
  obtain ⟨n, href, hrest⟩ := begins_iff.mp hbegins
  rw [String.ofList_toList] at href
  change String.ofList (expandChars vars s.toList) = text
  rw [hs, expandChars_reference vars href, ← hrest, hvar]
  simp [expandChars, segments]

end Interpolation

/-! ## Values that are moved -/

namespace ParamDeclaration

/-- A declared parameter of a type, for which a value is supplied. -/
structure Gives (d : ParamDeclaration) (type : ParamType) (v : Value) : Prop where
  type_eq : d.paramType? = .ok (some type)
  supplies : d.Supplies v

/-- What becomes of it. -/
theorem Gives.resolve_eq {d : ParamDeclaration} {type : ParamType} {v : Value}
    (h : d.Gives type v) (hspecial : ¬ v.Special) (vars : Variables) (name path : String) :
    (d.resolve vars name path).result =
      ((type.coerce (v.resolved vars)).map some).mapError (.parameter name path) :=
  resolve_of_given? h.type_eq (given?_eq_some_iff.mpr h.supplies) hspecial

/-- What becomes of it where the value is a reference. -/
theorem Gives.resolve_reference {d : ParamDeclaration} {type : ParamType} {vars : Variables}
    {var s text : String} (h : d.Gives type (.str s)) (href : Interpolation.RefersTo var s)
    (hvar : vars.get? var = some text) (name path : String) :
    (d.resolve vars name path).result =
      ((type.coerce (.str text)).map some).mapError (.parameter name path) := by
  have hresolved : (Value.str s).resolved vars = .str text :=
    congrArg Json.str (href.expand_eq hvar)
  rw [h.resolve_eq (by simp [Value.Special, Value.untagged]), hresolved]

/-- **What becomes of a value that is moved into a variable.**  The integers of documents are those
that fit sixty-four bits, as signed or as unsigned numbers.  A parameter of type integer with one of
them for its value is that integer.  With a reference to a variable that writes it in its place, the
parameter is the same if the integer fits as a signed number, and is refused if it does not.  Truth
values can be moved.

**Proof sketch.** A reference becomes what the variable writes, and integers and truth values are
read back from their texts.  For an integer that depends on the range of what reads it. -/
theorem resolve_moved {var s : String} (href : Interpolation.RefersTo var s) (vars : Variables)
    (written moved : ParamDeclaration) (name path : String) :
    (∀ n : Int, Yaml.Scalar.IsInteger n ↔ -(Int.pow 2 63) ≤ n ∧ n < Int.pow 2 64) ∧
    (∀ n : Int, Yaml.Scalar.IsInteger n → vars.get? var = some (toString n) →
      written.Gives .integer (.int n) → moved.Gives .integer (.str s) →
      (written.resolve vars name path).result = .ok (some (.int n)) ∧
      (moved.resolve vars name path).result =
        if n < Int.pow 2 63 then .ok (some (.int n))
        else .error (.parameter name path (.unreadable "integer" (toString n)))) ∧
    ∀ b : Bool, vars.get? var = some (toString b) →
      written.Gives .boolean (.bool b) → moved.Gives .boolean (.str s) →
      (written.resolve vars name path).result = .ok (some (.bool b)) ∧
      (moved.resolve vars name path).result = .ok (some (.bool b)) := by
  refine ⟨fun n => Yaml.Scalar.isInteger_iff, fun n hn hvar hwritten hmoved => ⟨?_, ?_⟩,
    fun b hvar hwritten hmoved => ⟨?_, ?_⟩⟩
  · rw [hwritten.resolve_eq (by simp [Value.Special, Value.untagged])]
    rfl
  · obtain ⟨hlow, -⟩ := Yaml.Scalar.isInteger_iff.mp hn
    rw [hmoved.resolve_reference href hvar, ParamType.coerce_toString_int hlow]
    split_ifs <;> rfl
  · rw [hwritten.resolve_eq (by simp [Value.Special, Value.untagged])]
    rfl
  · rw [hmoved.resolve_reference href hvar, ParamType.coerce_toString_bool]
    rfl

/-- A parameter with the name of a type, and a value. -/
def ofTypeAndValue (type : String) (v : Value) : ParamDeclaration where
  type := some type
  value := some v

/-- It is of the type with that name, and its value is supplied. -/
theorem gives_ofTypeAndValue {name : String} {type : ParamType} {v : Value}
    (htype : (ofTypeAndValue name v).paramType? = .ok (some type)) (hv : v.untagged ≠ .null) :
    (ofTypeAndValue name v).Gives type v :=
  ⟨htype, .value rfl hv⟩

/-- The least integer that is moved, and a truth value. -/
theorem resolve_moved_leastInteger :
    let vars : Variables := { own := KeyMap.ofList [("N", "-9223372036854775808"), ("B", "true")] }
    Interpolation.RefersTo "N" "$N" ∧ Interpolation.RefersTo "B" "${B}" ∧
    ((ofTypeAndValue "integer" (.int (-9223372036854775808))).resolve vars "n" "m.yaml").result =
      .ok (some (.int (-9223372036854775808))) ∧
    ((ofTypeAndValue " Integer" (.str "$N")).resolve vars "n" "m.yaml").result =
      .ok (some (.int (-9223372036854775808))) ∧
    ((ofTypeAndValue "boolean" (.bool true)).resolve vars "b" "m.yaml").result =
      .ok (some (.bool true)) ∧
    ((ofTypeAndValue "boolean" (.str "${B}")).resolve vars "b" "m.yaml").result =
      .ok (some (.bool true)) := by
  intro vars
  have hn : Interpolation.RefersTo "N" "$N" := Interpolation.refersTo_iff.mpr
    ⟨Interpolation.isName_iff.mp (by decide), .inl (by decide)⟩
  have hb : Interpolation.RefersTo "B" "${B}" := Interpolation.refersTo_iff.mpr
    ⟨Interpolation.isName_iff.mp (by decide), .inr (by decide)⟩
  have hinteger : Yaml.Scalar.IsInteger (-9223372036854775808) :=
    Yaml.Scalar.isInteger_iff.mpr (by decide)
  obtain ⟨-, hintegers, -⟩ := resolve_moved hn vars
    (ofTypeAndValue "integer" (.int (-9223372036854775808)))
    (ofTypeAndValue " Integer" (.str "$N")) "n" "m.yaml"
  obtain ⟨-, -, hbools⟩ := resolve_moved hb vars
    (ofTypeAndValue "boolean" (.bool true))
    (ofTypeAndValue "boolean" (.str "${B}")) "b" "m.yaml"
  obtain ⟨hwritten, hmoved⟩ := hintegers _ hinteger (by rfl)
    (gives_ofTypeAndValue (by rfl) (by simp [Value.untagged]))
    (gives_ofTypeAndValue (by rfl) (by simp [Value.untagged]))
  exact ⟨hn, hb, hwritten, hmoved.trans (if_pos (by decide)), hbools true (by rfl)
    (gives_ofTypeAndValue (by rfl) (by simp [Value.untagged]))
    (gives_ofTypeAndValue (by rfl) (by simp [Value.untagged]))⟩

/-- **A value is refused** where it is moved into a variable: the least integer that does not fit as
a signed number. -/
theorem resolve_moved_fails :
    let vars : Variables := { own := KeyMap.ofList [("N", "9223372036854775808")] }
    Yaml.Scalar.plainValue? "9223372036854775808" = some (.int 9223372036854775808) ∧
    ((ofTypeAndValue "integer" (.int 9223372036854775808)).resolve vars "p" "m.yaml").result =
      .ok (some (.int 9223372036854775808)) ∧
    ((ofTypeAndValue "integer" (.str "$N")).resolve vars "p" "m.yaml").result =
      .error (.parameter "p" "m.yaml" (.unreadable "integer" "9223372036854775808")) := by
  intro vars
  have hn : Interpolation.RefersTo "N" "$N" := Interpolation.refersTo_iff.mpr
    ⟨Interpolation.isName_iff.mp (by decide), .inl (by decide)⟩
  have hwritten : (ofTypeAndValue "integer" (.int 9223372036854775808)).Gives .integer
      (.int 9223372036854775808) := gives_ofTypeAndValue (by rfl) (by simp [Value.untagged])
  have hmoved : (ofTypeAndValue "integer" (.str "$N")).Gives .integer (.str "$N") :=
    gives_ofTypeAndValue (by rfl) (by simp [Value.untagged])
  have htext : toString (9223372036854775808 : Int) = "9223372036854775808" := by rfl
  refine ⟨htext ▸ Yaml.Scalar.plainValue?_toString (by decide), ?_, ?_⟩
  · rw [hwritten.resolve_eq (by simp [Value.Special, Value.untagged])]
    rfl
  · have hvar : vars.get? "N" = some (toString (9223372036854775808 : Int)) := by rw [htext]; rfl
    rw [hmoved.resolve_reference hn hvar, ParamType.coerce_toString_int (by decide),
      if_neg (by decide)]
    rfl

end ParamDeclaration

end DeployPlan
