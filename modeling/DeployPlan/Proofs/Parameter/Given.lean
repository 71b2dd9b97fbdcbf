import DeployPlan.Proofs.Coercion

/-!
# Values, defaults and zeros

A declared parameter of a type becomes its value, or its default where the value is null, or else
the value of the type for which nothing is given.  Null has two meanings on the way: a value is
passed over if it is null in the document, and nothing is given if it is null as JSON.  These are
not the same, because a float that is infinite or not a number has no JSON but null.  So the value
of the type takes the place of such a float, which is neither refused nor replaced by the default.

## Main definitions

* `Yaml.Value.Special` — a float that is infinite or not a number.
* `ParamDeclaration.Supplies` — what is supplied for a parameter: the value or the default.
* `ParamDeclaration.Becomes` — what becomes of a parameter of a type.

## Main results

* `Yaml.Value.resolved_eq_null_iff` — which values are null as JSON.
* `ParamDeclaration.given?_eq_some_iff`, `given?_eq_none_iff` — what is supplied, and when nothing.
* `ParamDeclaration.resolve_eq_iff_becomes` — what becomes of a parameter of a type.
* `ParamDeclaration.resolve_loses_infinity` — a float can be lost.
-/

set_option autoImplicit false

namespace DeployPlan

/-! ## Null -/

/-- Null is what is taken for it. -/
theorem Json.isNull_iff {v : Json} : v.isNull = true ↔ v = .null := by
  cases v <;> simp [isNull]

namespace Yaml

namespace Value

/-- Null is what is taken for it. -/
theorem isNull_iff {v : Value} : v.isNull = true ↔ v = .null := by
  cases v <;> simp [isNull]

/-- A float that is infinite or not a number, whatever its tags. -/
def Special (v : Value) : Prop := ∃ x : Binary64, v.untagged = .float x ∧ x.isFinite = false

/-- **A value is null as JSON** if it is null, or a float that JSON has no number for. -/
theorem toJson_eq_null_iff : ∀ v : Value, v.toJson = .null ↔ v.untagged = .null ∨ v.Special
  | .tagged _ v => toJson_eq_null_iff v
  | .float x => by cases hx : x.isFinite <;> simp [toJson, untagged, Special, hx]
  | .map entries => by simp [toJson, Json.object, untagged, Special]
  | .null | .bool _ | .int _ | .str _ | .seq _ => by simp [toJson, untagged, Special]

/-- Variables make no difference to that. -/
theorem resolved_eq_null_iff {vars : Variables} {v : Value} :
    v.resolved vars = .null ↔ v.untagged = .null ∨ v.Special := by
  rw [← toJson_eq_null_iff, ← Json.isNull_iff, ← Json.isNull_iff, isNull_resolved]

end Value

end Yaml

/-! ## What is supplied -/

open Yaml (Value)

namespace ParamDeclaration

/-- There is nothing, or only null. -/
def Absent (o : Option Value) : Prop := ∀ v, o = some v → v.untagged = .null

/-- What is supplied for a parameter: the value, or the default where the value is absent. -/
inductive Supplies (d : ParamDeclaration) : Value → Prop
  | value {v : Value} (hv : d.value = some v) (hnull : v.untagged ≠ .null) : Supplies d v
  | fallback {v : Value} (habsent : Absent d.value) (hv : d.fallback = some v)
    (hnull : v.untagged ≠ .null) : Supplies d v

/-- What is there and not null. -/
theorem filter_eq_some_iff {o : Option Value} {v : Value} :
    (o.filter fun v => !v.untagged.isNull) = some v ↔ o = some v ∧ v.untagged ≠ .null := by
  rw [Option.filter_eq_some_iff, Bool.not_eq_true', ← Bool.not_eq_true, Value.isNull_iff]

/-- Nothing is there, or only null. -/
theorem filter_eq_none_iff {o : Option Value} :
    (o.filter fun v => !v.untagged.isNull) = none ↔ Absent o := by
  simp [Option.filter_eq_none_iff, Absent, Value.isNull_iff]

/-- The value is looked at first, then the default. -/
theorem given?_eq (d : ParamDeclaration) :
    d.given? = (d.value.filter fun v => !v.untagged.isNull).or
      (d.fallback.filter fun v => !v.untagged.isNull) := by
  cases hvalue : d.value.filter fun v => !v.untagged.isNull with
  | none =>
    rw [Option.none_or, given?, List.findSome?_cons, hvalue]
    cases hfallback : d.fallback.filter fun v => !v.untagged.isNull <;> simp [hfallback]
  | some v => rw [Option.some_or, given?, List.findSome?_cons, hvalue]

/-- **What is given** is what is supplied. -/
theorem given?_eq_some_iff {d : ParamDeclaration} {v : Value} :
    d.given? = some v ↔ d.Supplies v := by
  rw [given?_eq, Option.or_eq_some_iff, filter_eq_none_iff, filter_eq_some_iff, filter_eq_some_iff]
  constructor
  · rintro (⟨hv, hnull⟩ | ⟨habsent, hv, hnull⟩)
    · exact .value hv hnull
    · exact .fallback habsent hv hnull
  · rintro (⟨hv, hnull⟩ | ⟨habsent, hv, hnull⟩)
    · exact .inl ⟨hv, hnull⟩
    · exact .inr ⟨habsent, hv, hnull⟩

/-- **Nothing is given** if the value and the default are absent. -/
theorem given?_eq_none_iff {d : ParamDeclaration} :
    d.given? = none ↔ Absent d.value ∧ Absent d.fallback := by
  rw [given?_eq, Option.or_eq_none_iff, filter_eq_none_iff, filter_eq_none_iff]

/-! ## What becomes of it -/

section Types

variable {d : ParamDeclaration} {type : ParamType} {vars : Variables} {name path : String}

/-- What becomes of a parameter of a type.  Where nothing is supplied it is the value of the type
for that; and what is supplied is taken as a value of the type, or refused, but for floats that are
infinite or not a number. -/
inductive Becomes (d : ParamDeclaration) (type : ParamType) (vars : Variables)
    (name path : String) : Except Failure (Option Json) → Prop
  | zero (hvalue : Absent d.value) (hfallback : Absent d.fallback) :
    Becomes d type vars name path (.ok (some type.zero))
  | taken {v : Value} {w : Json} (hv : d.Supplies v) (hspecial : ¬ v.Special)
    (hw : type.coerce (v.resolved vars) = .ok w) : Becomes d type vars name path (.ok (some w))
  | refused {v : Value} {fault : ParameterFault} (hv : d.Supplies v) (hspecial : ¬ v.Special)
    (hfault : type.coerce (v.resolved vars) = .error fault) :
    Becomes d type vars name path (.error (.parameter name path fault))
  | lost {v : Value} (hv : d.Supplies v) (hspecial : v.Special) :
    Becomes d type vars name path (.ok (some type.zero))

/-- A parameter of a type, by what is given for it. -/
theorem resolve_typed (htype : d.paramType? = .ok (some type)) :
    (d.resolve vars name path).result =
      (typed (some type) (d.given?.bind fun v => (v.resolved vars).nonNull?)).mapError
        (.parameter name path) := by
  rw [resolve_result, htype]
  rfl

/-- Where nothing is given for a parameter of a type, it is the value of the type for that. -/
theorem resolve_of_given?_eq_none (htype : d.paramType? = .ok (some type))
    (hgiven : d.given? = none) : (d.resolve vars name path).result = .ok (some type.zero) := by
  rw [resolve_typed htype, hgiven]
  rfl

/-- The same where what is given is null as JSON. -/
theorem resolve_of_special (htype : d.paramType? = .ok (some type)) {v : Value}
    (hgiven : d.given? = some v) (hspecial : v.Special) :
    (d.resolve vars name path).result = .ok (some type.zero) := by
  rw [resolve_typed htype, hgiven, Option.bind_some,
    Value.resolved_eq_null_iff.mpr (.inr hspecial)]
  rfl

/-- What is given otherwise is made a value of the type. -/
theorem resolve_of_given? (htype : d.paramType? = .ok (some type)) {v : Value}
    (hgiven : d.given? = some v) (hspecial : ¬ v.Special) :
    (d.resolve vars name path).result =
      ((type.coerce (v.resolved vars)).map some).mapError (.parameter name path) := by
  have hnull : v.untagged ≠ .null := by
    cases given?_eq_some_iff.mp hgiven <;> assumption
  have hthere : (v.resolved vars).nonNull? = some (v.resolved vars) := by
    rw [Json.nonNull?, if_neg]
    rw [Json.isNull_iff, Value.resolved_eq_null_iff]
    exact not_or.mpr ⟨hnull, hspecial⟩
  rw [resolve_typed htype, hgiven, Option.bind_some, hthere]
  rfl

/-- **What becomes of a parameter of a type.**  The value of the type for which nothing is given
comes only where the value and the default are absent or null, or where the first of them that is
not null is a float that is infinite or not a number.  Every other value that is supplied is made
one of the type, or refused.

**Proof sketch.** By what is given: nothing, such a float, or something else. -/
theorem resolve_eq_iff_becomes (htype : d.paramType? = .ok (some type))
    {r : Except Failure (Option Json)} :
    (d.resolve vars name path).result = r ↔ d.Becomes type vars name path r := by
  constructor
  · rintro rfl
    cases hgiven : d.given? with
    | none =>
      obtain ⟨hvalue, hfallback⟩ := given?_eq_none_iff.mp hgiven
      rw [resolve_of_given?_eq_none htype hgiven]
      exact .zero hvalue hfallback
    | some v =>
      have hv : d.Supplies v := given?_eq_some_iff.mp hgiven
      by_cases hspecial : v.Special
      · rw [resolve_of_special htype hgiven hspecial]
        exact .lost hv hspecial
      · rw [resolve_of_given? htype hgiven hspecial]
        cases hcoerce : type.coerce (v.resolved vars) with
        | ok w => exact .taken hv hspecial hcoerce
        | error fault => exact .refused hv hspecial hcoerce
  · intro h
    cases h with
    | zero hvalue hfallback =>
      exact resolve_of_given?_eq_none htype (given?_eq_none_iff.mpr ⟨hvalue, hfallback⟩)
    | taken hv hspecial hw =>
      rw [resolve_of_given? htype (given?_eq_some_iff.mpr hv) hspecial, hw]
      rfl
    | refused hv hspecial hfault =>
      rw [resolve_of_given? htype (given?_eq_some_iff.mpr hv) hspecial, hfault]
      rfl
    | lost hv hspecial =>
      exact resolve_of_special htype (given?_eq_some_iff.mpr hv) hspecial

end Types

/-- A parameter with a tagged null for its value, and a variable for its default. -/
def portDeclaration : ParamDeclaration where
  type := some "INTEGER "
  value := some (.tagged "draft" .null)
  fallback := some (.str " ${PORT}")

/-- It becomes what the variable writes. -/
theorem resolve_portDeclaration_becomes :
    let vars : Variables := { own := KeyMap.ofList [("PORT", "8080")] }
    portDeclaration.paramType? = .ok (some .integer) ∧
    portDeclaration.Supplies (.str " ${PORT}") ∧
    (portDeclaration.resolve vars "port" "manifest.yaml").result = .ok (some (.int 8080)) := by
  intro vars
  have htype : portDeclaration.paramType? = .ok (some .integer) := by rfl
  have hsupplies : portDeclaration.Supplies (.str " ${PORT}") :=
    .fallback (fun v hv => by cases hv; rfl) rfl (by simp [Value.untagged])
  have hresolved : (Value.str " ${PORT}").resolved vars = .str " 8080" := by
    exact congrArg Json.str (by decide +kernel : Interpolation.expand vars " ${PORT}" = " 8080")
  have hspecial : ¬ (Value.str " ${PORT}").Special := by simp [Value.Special, Value.untagged]
  have hcoerce : ParamType.integer.coerce ((Value.str " ${PORT}").resolved vars) =
      .ok (.int 8080) := by
    rw [hresolved]
    rfl
  exact ⟨htype, hsupplies, (resolve_eq_iff_becomes htype).mpr (.taken hsupplies hspecial hcoerce)⟩

/-- A parameter with a float for its value that is infinite. -/
def infiniteDeclaration : ParamDeclaration where
  type := some "float"
  value := some (.float (Binary64.infinity false))

/-- **A float is lost.**  Infinity is supplied, and is no value of the type as it is; but the
parameter becomes zero. -/
theorem resolve_loses_infinity :
    infiniteDeclaration.paramType? = .ok (some .float) ∧
    infiniteDeclaration.Supplies (.float (Binary64.infinity false)) ∧
    ParamType.float.coerce ((Value.float (Binary64.infinity false)).resolved {}) =
      .error (.wrongKind "float" "null") ∧
    (infiniteDeclaration.resolve {} "p" "manifest.yaml").result =
      .ok (some (.float Binary64.zero)) := by
  have htype : infiniteDeclaration.paramType? = .ok (some .float) := by rfl
  have hsupplies : infiniteDeclaration.Supplies (.float (Binary64.infinity false)) :=
    .value rfl (by simp [Value.untagged])
  have hspecial : (Value.float (Binary64.infinity false)).Special := ⟨_, rfl, by decide⟩
  refine ⟨htype, hsupplies, ?_,
    resolve_of_special htype (given?_eq_some_iff.mpr hsupplies) hspecial⟩
  rw [Value.resolved_eq_null_iff.mpr (.inr hspecial)]
  rfl

end ParamDeclaration

end DeployPlan
