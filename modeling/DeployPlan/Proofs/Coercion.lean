import DeployPlan.Proofs.Compose.Keys
import DeployPlan.Proofs.Json.Reader

/-!
# Declared types

A parameter that is declared with a type gets a value of that type, which the type would take as it
is.  There is one way around this: a text for a parameter of type JSON is read, and what it writes
is not looked at again, so that a number, a truth value, null or a text gets through that the type
does not take.

## Main definitions

* `ParamType.Holds` — the values of a type.
* `ParamType.LetsScalar` — a text that gets through although what it writes is not of the type.

## Main results

* `ParamType.coerce_eq_self_iff` — a type takes its values as they are, and no others.
* `ParamType.coerce_holds_iff` — what becomes of a value is of the type, but for such texts.
* `ParamDeclaration.resolve_sound` — so is the value of a declared parameter.
* `ParamDeclaration.resolve_letsScalar` — there are such texts.
-/

set_option autoImplicit false

namespace DeployPlan

namespace ParamType

/-- The values of a type: texts, integers, numbers of both kinds, truth values, and arrays and
objects. -/
inductive Holds : ParamType → Json → Prop
  | string (s : String) : Holds .string (.str s)
  | integer (n : Int) : Holds .integer (.int n)
  | whole (n : Int) : Holds .float (.int n)
  | float (x : Binary64) : Holds .float (.float x)
  | boolean (b : Bool) : Holds .boolean (.bool b)
  | array (items : List Json) : Holds .json (.arr items)
  | object (entries : List (String × Json)) : Holds .json (.obj entries)

/-- A text that writes JSON, but neither an array nor an object, for a parameter of that type. -/
def LetsScalar (type : ParamType) (v : Json) : Prop :=
  type = .json ∧ ∃ s w, v = .str s ∧ Json.parse? s = some w ∧ ¬ Holds .json w

/-- The value of a type for which none is given is of the type. -/
theorem holds_zero (type : ParamType) : type.Holds type.zero := by
  cases type <;> constructor

/-- A type takes its values as they are. -/
theorem Holds.coerce_eq {type : ParamType} {v : Json} (h : type.Holds v) :
    type.coerce v = .ok v := by
  cases h <;> rfl

/-- What is read from a text is of the type, unless that is JSON. -/
theorem holds_of_ofText {type : ParamType} {s : String} {v : Json} (hne : type ≠ .json)
    (h : type.ofText s = .ok v) : type.Holds v := by
  cases type with
  | string =>
    cases h
    exact .string s
  | integer =>
    cases hn : integerOfText? (Text.trim s) with
    | none => simp [ofText, hn] at h
    | some n =>
      simp only [ofText, hn, Option.map_some, Except.ok.injEq] at h
      subst h
      exact .integer n
  | float =>
    cases hx : floatOfText? (Text.trim s) with
    | none => simp [ofText, hx] at h
    | some x =>
      simp only [ofText, hx, Option.map_some, Except.ok.injEq] at h
      subst h
      exact .float x
  | boolean =>
    cases hb : boolOfText? (Text.trim s) with
    | none => simp [ofText, hb] at h
    | some b =>
      simp only [ofText, hb, Option.map_some, Except.ok.injEq] at h
      subst h
      exact .boolean b
  | json => exact absurd rfl hne

/-- A text for a parameter of type JSON becomes what it writes. -/
theorem ofText_json_eq_ok_iff {s : String} {v : Json} :
    ParamType.json.ofText s = .ok v ↔ Json.parse? s = some v := by
  cases hv : Json.parse? s <;> simp [ofText, hv]

/-- What is no text is of the type, or is not taken. -/
theorem coerce_eq_ok_iff_of_ne_str {type : ParamType} {v w : Json} (hv : ∀ s, v ≠ .str s) :
    type.coerce v = .ok w ↔ type.Holds v ∧ w = v := by
  constructor
  · intro h
    cases v with
    | str s => exact absurd rfl (hv s)
    | _ => cases type <;> cases h <;> exact ⟨by constructor, rfl⟩
  · rintro ⟨h, rfl⟩
    exact h.coerce_eq

/-- **A type takes its values as they are**, and no others. -/
theorem coerce_eq_self_iff {type : ParamType} {v : Json} :
    type.coerce v = .ok v ↔ type.Holds v := by
  refine ⟨fun h => ?_, Holds.coerce_eq⟩
  cases v with
  | str s =>
    by_cases htype : type = .json
    · subst htype
      exact absurd (ofText_json_eq_ok_iff.mp h) (Json.parse?_ne_self s)
    · exact holds_of_ofText htype (by cases type <;> exact h)
  | _ => exact ((coerce_eq_ok_iff_of_ne_str fun s hs => by cases hs).mp h).1

/-- **What becomes of a value** is of the type, unless it is a text that lets a scalar through. -/
theorem coerce_holds_iff {type : ParamType} {v w : Json} (h : type.coerce v = .ok w) :
    type.Holds w ↔ ¬ type.LetsScalar v := by
  by_cases hv : ∃ s, v = .str s
  · obtain ⟨s, rfl⟩ := hv
    by_cases htype : type = .json
    · subst htype
      have hparse : Json.parse? s = some w := ofText_json_eq_ok_iff.mp h
      constructor
      · rintro hholds ⟨-, s', w', hs, hparse', hnot⟩
        cases hs
        cases hparse.symm.trans hparse'
        exact hnot hholds
      · intro hnot
        by_contra hholds
        exact hnot ⟨rfl, s, w, rfl, hparse, hholds⟩
    · have hholds : type.Holds w := holds_of_ofText htype (by cases type <;> exact h)
      exact iff_of_true hholds fun hlets => htype hlets.1
  · have hne : ∀ s, v ≠ .str s := fun s hs => hv ⟨s, hs⟩
    obtain ⟨hholds, rfl⟩ := (coerce_eq_ok_iff_of_ne_str hne).mp h
    exact iff_of_true hholds fun hlets => hne _ hlets.2.choose_spec.choose_spec.1

end ParamType

/-! ## Parameters -/

namespace ParamDeclaration

/-- What is given for a declared parameter of a type becomes one of the type, if it is not null. -/
theorem typed_nonNull? {type : ParamType} {raw v : Json}
    (h : typed (some type) raw.nonNull? = .ok (some v)) :
    (raw = .null ∧ v = type.zero) ∨ type.coerce raw = .ok v := by
  cases raw with
  | null =>
    cases h
    exact .inl ⟨rfl, rfl⟩
  | _ =>
    obtain ⟨w, hw, hsome⟩ := Except.map_eq_ok_iff.mp h
    cases hsome
    exact .inr hw

/-- **The value of a declared parameter** is one that the type takes as it is, which are the values
of the type; but if a text is given for a parameter of type JSON and writes neither an array nor an
object, then it is what the text writes.  So too for what becomes of any value: it stays as it is
when it is made one of the type again, but for such texts.

**Proof sketch.** A parameter without a value gets that of the type.  Otherwise no value is taken
but those of the type, and texts, which are read as one of the type unless that is JSON. -/
theorem resolve_sound {d : ParamDeclaration} {type : ParamType}
    (htype : d.paramType? = .ok (some type)) {vars : Variables} {name path : String} {v : Json}
    (h : (d.resolve vars name path).result = .ok (some v)) :
    (type.coerce v = .ok v ↔ type.Holds v) ∧
      (type.Holds v ↔ ∀ given, d.given? = some given → ¬ type.LetsScalar (given.resolved vars)) ∧
      ∀ raw w, type.coerce raw = .ok w → (type.coerce w = .ok w ↔ ¬ type.LetsScalar raw) := by
  refine ⟨ParamType.coerce_eq_self_iff, ?_, fun raw w hw =>
    ParamType.coerce_eq_self_iff.trans (ParamType.coerce_holds_iff hw)⟩
  rw [resolve_result, htype] at h
  have htyped := Except.mapError_eq_ok_iff.mp h
  cases hgiven : d.given? with
  | none =>
    rw [hgiven] at htyped
    cases htyped
    exact iff_of_true type.holds_zero nofun
  | some given =>
    rw [hgiven, Option.bind_some] at htyped
    simp only [Option.some.injEq, forall_eq']
    obtain ⟨hnull, rfl⟩ | hcoerce := typed_nonNull? htyped
    · refine iff_of_true type.holds_zero ?_
      rintro ⟨-, s, w, hs, -⟩
      rw [hnull] at hs
      cases hs
    · exact ParamType.coerce_holds_iff hcoerce

/-- A parameter for which a text is given has what the type reads from that text. -/
theorem resolve_of_text {d : ParamDeclaration} {type : ParamType}
    (htype : d.paramType? = .ok (some type)) {given : String}
    (hgiven : d.given? = some (.str given)) {vars : Variables} {s : String}
    (hs : Interpolation.expand vars given = s) (name path : String) {v : Json}
    (h : type.ofText s = .ok v) : (d.resolve vars name path).result = .ok (some v) := by
  have hcoerce : type.coerce (.str s) = .ok v := by cases type <;> exact h
  have hresolved : (Yaml.Value.str given).resolved vars = .str s := congrArg Json.str hs
  rw [resolve_result, htype, hgiven, Option.bind_some, hresolved]
  exact Except.mapError_eq_ok_iff.mpr (congrArg (Except.map some) hcoerce)

/-- A parameter of type JSON, of which the value is a variable. -/
def portsDeclaration : ParamDeclaration where
  type := some " Json"
  value := some (.str "$PORTS")

/-- It is an array where the variable writes one. -/
theorem resolve_sound_ports :
    let vars : Variables := { own := KeyMap.ofList [("PORTS", "[80]")] }
    portsDeclaration.paramType? = .ok (some .json) ∧
    (portsDeclaration.resolve vars "ports" "manifest.yaml").result =
      .ok (some (.arr [.int 80])) ∧
    ParamType.json.coerce (.arr [.int 80]) = .ok (.arr [.int 80]) := by
  intro vars
  have htype : portsDeclaration.paramType? = .ok (some .json) := by rfl
  have hs : Interpolation.expand vars "$PORTS" = "[80]" := by decide +kernel
  have hparse : Json.parse? "[80]" = some (.arr [.int 80]) := by rfl
  have hresolve := resolve_of_text htype rfl hs "ports" "manifest.yaml"
    (ParamType.ofText_json_eq_ok_iff.mpr hparse)
  exact ⟨htype, hresolve, (resolve_sound htype hresolve).1.mpr (.array _)⟩

/-- **A scalar gets through** where the variable writes one.  The type takes no such value. -/
theorem resolve_letsScalar :
    let vars : Variables := { own := KeyMap.ofList [("PORTS", "80")] }
    portsDeclaration.paramType? = .ok (some .json) ∧
    (portsDeclaration.resolve vars "ports" "manifest.yaml").result = .ok (some (.int 80)) ∧
    ParamType.json.coerce (.int 80) = .error (.wrongKind "json" "integer") := by
  intro vars
  have htype : portsDeclaration.paramType? = .ok (some .json) := by rfl
  have hs : Interpolation.expand vars "$PORTS" = "80" := by decide +kernel
  have hparse : Json.parse? "80" = some (.int 80) := by rfl
  have hresolve := resolve_of_text htype rfl hs "ports" "manifest.yaml"
    (ParamType.ofText_json_eq_ok_iff.mpr hparse)
  exact ⟨htype, hresolve, rfl⟩

end ParamDeclaration

end DeployPlan
