import DeployPlan.Proofs.Manifest.RoundTrip
import DeployPlan.Proofs.Override.Inputs
import DeployPlan.Proofs.Parameter.Given

/-!
# Inputs that a descriptor states again

An input without a type can be read in two ways: as that of a manifest, where a value that is null
gives way to the default, and as that of a descriptor, where a value that is there is taken.  A null
without a tag is not there when the input is read from a document.  So the two readings are the
same, unless the value is null with a tag and the default is not null.  Even then nothing changes if
a descriptor states all inputs of a manifest again, because it sets no value where the readings
differ.

## Main definitions

* `ParamSpec.Untyped` — an input without a type.
* `ParamSpec.Decoded` — an input as it is read from a document.
* `ParamSpec.ReadAlike` — both readings of an input are the same.
* `ParamSpec.Veiled` — a null with a tag hides a default.

## Main results

* `ParamSpec.ownValue?_of_overrideValue?` — what is set is the value in a manifest.
* `ParamSpec.readAlike_iff` — the readings are the same, but where a default is hidden.
* `ParamSpec.not_readAlike_veiledInput` — it can be hidden.
-/

set_option autoImplicit false

namespace DeployPlan

open Yaml (Value Tree)
open KeyValues
open Override (mergeInputs inputValue?)

namespace ParamSpec

/-! ## Readings -/

/-- An input without a type: a free value, or a declaration that names no type. -/
def Untyped : ParamSpec → Prop
  | .literal _ => True
  | .declared d => d.paramType? = .ok none

/-- An input as it is read from a document, at whatever place in it. -/
def Decoded (spec : ParamSpec) : Prop := ∃ t : Tree, t.Sound ∧ ParamSpec.decoder t = .ok spec

/-- An input that a text writes is one. -/
theorem decoded_of_text {text : String} {v : Value} {spec : ParamSpec}
    (hread : (Tree.parse? text).bind Tree.value? = some v) (hspec : ofValue v = .ok spec) :
    spec.Decoded := by
  obtain ⟨t, ht, hv⟩ := Option.bind_eq_some_iff.mp hread
  refine ⟨t, Tree.sound_of_parse? ht, ?_⟩
  rw [decoder, Yaml.Decoder.value, hv]
  exact hspec

/-- The value of an input without a type, in a manifest. -/
def ownValue? (vars : Variables) : ParamSpec → Option Json
  | .literal v => (v.resolved vars).nonNull?
  | .declared d => d.given?.bind fun v => (v.resolved vars).nonNull?

/-- The input is read in both ways alike, whatever its place: what a manifest makes of it is what
merging it into no parameters gives. -/
def ReadAlike (vars : Variables) (spec : ParamSpec) : Prop :=
  ∀ path name key : String,
    (∀ v, (spec.resolve vars path name).result = .ok (some v) ↔
      mergeInputs vars (.single key spec) [] = [⟨key, v⟩]) ∧
    ((spec.resolve vars path name).result = .ok none ↔
      mergeInputs vars (.single key spec) [] = [])

/-- A null with a tag is the value, and the default is not null. -/
def Veiled (spec : ParamSpec) : Prop :=
  ∃ d tag v w, spec = .declared d ∧ d.value = some (.tagged tag v) ∧ v.untagged = .null ∧
    d.fallback = some w ∧ w.toJson ≠ .null

/-- An input without a type is always resolved. -/
theorem Untyped.resolve_result {spec : ParamSpec} (h : spec.Untyped) (vars : Variables)
    (path name : String) :
    (spec.resolve vars path name).result = .ok (spec.ownValue? vars) := by
  cases spec with
  | literal v => rfl
  | declared d =>
    rw [Untyped] at h
    rw [resolve, ParamDeclaration.resolve_result, h]
    rfl

/-- What merging one input into no parameters gives. -/
theorem mergeInputs_single (vars : Variables) (spec : ParamSpec) (key : String) :
    mergeInputs vars (.single key spec) [] =
      (spec.overrideValue? vars).elim [] fun v => [⟨key, v⟩] := by
  have hentries : mergeInputs vars (.single key spec) [] =
      ofMap (.single key spec) (overrideValue? vars) := by
    rw [mergeInputs, Override.inputEntries_eq]
    rfl
  rw [hentries]
  change [(key, spec)].filterMap (fun e => (e.2.overrideValue? vars).map (KeyValue.mk e.1)) = _
  cases h : spec.overrideValue? vars <;> simp [h]

/-- The readings are alike if they give the same value, or both none. -/
theorem Untyped.readAlike_iff_eq {spec : ParamSpec} (h : spec.Untyped) (vars : Variables) :
    spec.ReadAlike vars ↔ spec.overrideValue? vars = spec.ownValue? vars := by
  simp only [ReadAlike, h.resolve_result, mergeInputs_single, Except.ok.injEq]
  constructor
  · intro halike
    obtain ⟨hsome, hnone⟩ := halike "" "" ""
    cases hown : spec.ownValue? vars with
    | none =>
      have hempty := hnone.mp hown
      cases hset : spec.overrideValue? vars with
      | none => rfl
      | some v => simp [hset] at hempty
    | some v =>
      have hsingle := (hsome v).mp hown
      cases hset : spec.overrideValue? vars with
      | none => simp [hset] at hsingle
      | some w => simpa [hset] using hsingle
  · intro heq path name key
    rw [heq]
    cases spec.ownValue? vars <;> simp

/-! ## Where they differ -/

/-- A value is there if it is not null as JSON. -/
theorem exists_nonNull?_iff (vars : Variables) {v : Value} :
    (∃ j, (v.resolved vars).nonNull? = some j) ↔ v.toJson ≠ .null := by
  rw [← Option.isSome_iff_exists, Json.isSome_nonNull?, Value.isNull_resolved, Bool.not_eq_true',
    ← Bool.not_eq_true, Json.isNull_iff]

/-- Then it is not null. -/
theorem untagged_ne_null {vars : Variables} {v : Value} {j : Json}
    (h : (v.resolved vars).nonNull? = some j) : v.untagged ≠ .null := fun hnull =>
  (exists_nonNull?_iff vars).mp ⟨j, h⟩ ((Value.toJson_eq_null_iff v).mpr (.inl hnull))

/-- **What is set** by an input of a descriptor is its value in a manifest. -/
theorem ownValue?_of_overrideValue? {vars : Variables} {spec : ParamSpec} {j : Json}
    (h : spec.overrideValue? vars = some j) : spec.ownValue? vars = some j := by
  cases spec with
  | literal v => exact (overrideValue?_literal vars v).symm.trans h
  | declared d =>
    obtain ⟨v, hraw, hj⟩ := Option.bind_eq_some_iff.mp h
    have hsupplies : d.Supplies v := by
      obtain hvalue | ⟨hvalue, hfallback⟩ := Option.or_eq_some_iff.mp hraw
      · exact .value hvalue (untagged_ne_null hj)
      · exact .fallback (by simp [ParamDeclaration.Absent, hvalue]) hfallback (untagged_ne_null hj)
    rw [ownValue?, ParamDeclaration.given?_eq_some_iff.mpr hsupplies, Option.bind_some, hj]

/-- Where a default is hidden no value is set. -/
theorem Veiled.overrideValue?_eq_none {spec : ParamSpec} (h : spec.Veiled) (vars : Variables) :
    spec.overrideValue? vars = none := by
  obtain ⟨d, tag, v, w, rfl, hvalue, hnull, -, -⟩ := h
  have hresolved : (Value.tagged tag v).resolved vars = .null :=
    Value.resolved_eq_null_iff.mpr (.inl hnull)
  rw [overrideValue?, rawValue?, hvalue, Option.some_or, Option.bind_some, hresolved]
  rfl

/-- But there is one in a manifest. -/
theorem Veiled.exists_ownValue? {spec : ParamSpec} (h : spec.Veiled) (vars : Variables) :
    ∃ j, spec.ownValue? vars = some j := by
  obtain ⟨d, tag, v, w, rfl, hvalue, hnull, hfallback, hw⟩ := h
  obtain ⟨j, hj⟩ := (exists_nonNull?_iff vars).mpr hw
  have habsent : ParamDeclaration.Absent d.value := by
    rw [hvalue]
    rintro _ ⟨⟩
    exact hnull
  have hgiven : d.given? = some w := ParamDeclaration.given?_eq_some_iff.mpr
    (.fallback habsent hfallback (untagged_ne_null hj))
  exact ⟨j, by rw [ownValue?, hgiven, Option.bind_some, hj]⟩

/-- **The readings differ** only where a default is hidden.

**Proof sketch.** Where a manifest has the value, a descriptor would set it; and where it has the
default, either there is no value, so that a descriptor would set the default, or the value is null.
That null has a tag, because one without is not there when the input is read. -/
theorem Readable.veiled {vars : Variables} {spec : ParamSpec} {j : Json} (h : spec.Readable)
    (hset : spec.overrideValue? vars = none) (hown : spec.ownValue? vars = some j) :
    spec.Veiled := by
  cases h with
  | @literal v hdistinct hdeclares =>
    rw [overrideValue?_literal, ← ownValue?, hown] at hset
    cases hset
  | @declared d hread =>
    obtain ⟨w, hgiven, hj⟩ := Option.bind_eq_some_iff.mp hown
    rw [overrideValue?, rawValue?] at hset
    cases ParamDeclaration.given?_eq_some_iff.mp hgiven with
    | value hvalue hnull =>
      rw [hvalue, Option.some_or, Option.bind_some, hj] at hset
      cases hset
    | fallback habsent hfallback hnull =>
      cases hvalue : d.value with
      | none =>
        rw [hvalue, Option.none_or, hfallback, Option.bind_some, hj] at hset
        cases hset
      | some v =>
        have huntagged : v.untagged = .null := habsent v hvalue
        have hnotnull : v.isNull = false := (hread.value v hvalue).1
        cases v with
        | tagged tag v =>
          have hw : w.toJson ≠ .null := (exists_nonNull?_iff vars).mp ⟨j, hj⟩
          exact ⟨d, tag, v, w, rfl, hvalue, huntagged, hfallback, hw⟩
        | null => cases hnotnull
        | _ => cases huntagged

/-! ## All inputs of a manifest -/

/-- Inputs without types are all resolved. -/
theorem resolveParams_untyped {inputs : KeyMap ParamSpec} (h : inputs.All Untyped)
    (vars : Variables) (path : String) :
    (resolveParams vars path inputs).result = .ok (ofMap inputs (ownValue? vars)) := by
  have hresolved : (inputs.entries.mapM fun e => (do
      return (← e.2.resolve vars path e.1).map (KeyValue.mk e.1) : Report _).result) =
      .ok (inputs.entries.map fun e => (e.2.ownValue? vars).map (KeyValue.mk e.1)) := by
    rw [Except.mapM_eq_ok_iff, List.forall₂_map_right_iff, List.forall₂_same]
    intro e he
    rw [Report.result_bind, (h e.1 e.2 (KeyMap.mem_entries_iff.mp he)).resolve_result]
    rfl
  rw [resolveParams, Report.result_bind, Report.result_mapM, hresolved, ofMap]
  change Except.ok ((inputs.entries.map _).filterMap id) = _
  rw [List.filterMap_map]
  rfl

/-- **Both readings of an input without a type** are the same, unless a null with a tag hides a
default.  Then a manifest has the default for the value, and a descriptor sets nothing.  In either
case nothing changes if a descriptor states all inputs of a manifest again.

**Proof sketch.** A descriptor sets nothing but the values that a manifest has, and where it sets
none though a manifest has one, a default is hidden. -/
theorem readAlike_iff {spec : ParamSpec} (hdecoded : spec.Decoded) (huntyped : spec.Untyped)
    (vars : Variables) :
    (spec.ReadAlike vars ↔ ¬ spec.Veiled) ∧
    (spec.Veiled → ∀ path name key : String,
      (∃ v, (spec.resolve vars path name).result = .ok (some v)) ∧
      mergeInputs vars (.single key spec) [] = []) ∧
    ∀ (inputs : KeyMap ParamSpec) (path : String), inputs.All Untyped →
      ∃ parameters, (resolveParams vars path inputs).result = .ok parameters ∧
        ∀ key, find? key (mergeInputs vars inputs parameters) = find? key parameters := by
  refine ⟨?_, fun hveiled path name key => ⟨?_, ?_⟩, fun inputs path hinputs => ?_⟩
  · rw [huntyped.readAlike_iff_eq]
    constructor
    · intro heq hveiled
      obtain ⟨j, hj⟩ := hveiled.exists_ownValue? vars
      rw [hveiled.overrideValue?_eq_none, hj] at heq
      cases heq
    · intro hveiled
      cases hset : spec.overrideValue? vars with
      | some j => exact (ownValue?_of_overrideValue? hset).symm
      | none =>
        obtain ⟨t, ht, hspec⟩ := hdecoded
        refine (Option.eq_none_iff_forall_ne_some.mpr fun j hj => hveiled ?_).symm
        exact (decoder_gives_readable t ht spec hspec).veiled hset hj
  · obtain ⟨j, hj⟩ := hveiled.exists_ownValue? vars
    exact ⟨j, by rw [huntyped.resolve_result, hj]⟩
  · rw [mergeInputs_single, hveiled.overrideValue?_eq_none]
    rfl
  · refine ⟨_, resolveParams_untyped hinputs vars path, fun key => ?_⟩
    rw [Override.find?_mergeInputs_eq, find?_ofMap]
    cases hset : inputValue? vars inputs key with
    | none => rfl
    | some j =>
      obtain ⟨spec, hspec, hj⟩ := Option.bind_eq_some_iff.mp hset
      rw [hspec, Option.bind_some, ownValue?_of_overrideValue? hj]
      rfl

/-- A declaration with nothing but a default. -/
def defaultInput : ParamSpec := .declared { fallback := some (.int 5) }

/-- It is what is read where the value is null without a tag. -/
theorem decoded_defaultInput : defaultInput.Decoded := by
  have hread : (Tree.parse? "\x7bvalue: ~, default: 5\x7d").bind Tree.value? =
      some (.map [(.str "value", .null), (.str "default", .int 5)]) := by decide +kernel
  exact decoded_of_text hread (by rfl)

/-- A declaration with a null that has a tag, and a default. -/
def veiledInput : ParamSpec :=
  .declared { value := some (.tagged "draft" .null), fallback := some (.int 5) }

/-- It is read from a document as well. -/
theorem decoded_veiledInput : veiledInput.Decoded := by
  have hread : (Tree.parse? "\x7bvalue: !draft ~, default: 5\x7d").bind Tree.value? =
      some (.map [(.str "value", .tagged "draft" .null), (.str "default", .int 5)]) := by
    decide +kernel
  exact decoded_of_text hread (by rfl)

/-- The default is hidden. -/
theorem veiled_veiledInput : veiledInput.Veiled := ⟨_, _, _, _, rfl, rfl, rfl, rfl, nofun⟩

/-- The first is read alike, and nothing changes if it is stated again; in the second the default is
hidden from a descriptor. -/
theorem readAlike_defaultInput :
    defaultInput.ReadAlike {} ∧
      (∃ parameters,
        (resolveParams {} "m.yaml" (.single "p" defaultInput)).result = .ok parameters ∧
        ∀ key, find? key (mergeInputs {} (.single "p" defaultInput) parameters) =
          find? key parameters) ∧
      (∃ v, (veiledInput.resolve {} "m.yaml" "p").result = .ok (some v)) ∧
      mergeInputs {} (.single "p" veiledInput) [] = [] := by
  have huntyped : defaultInput.Untyped := by rfl
  have hplain : ¬ defaultInput.Veiled := by
    rintro ⟨d, tag, v, w, ⟨⟩, ⟨⟩, -⟩
  have hinputs : (KeyMap.single "p" defaultInput).All Untyped := fun key spec hspec =>
    (KeyMap.get?_single_eq_some_iff.mp hspec).2 ▸ huntyped
  obtain ⟨halike, -, hrestated⟩ := readAlike_iff decoded_defaultInput huntyped {}
  obtain ⟨-, hveiled, -⟩ := readAlike_iff decoded_veiledInput (by rfl) {}
  exact ⟨halike.mpr hplain, hrestated _ "m.yaml" hinputs,
    hveiled veiled_veiledInput "m.yaml" "p" "p"⟩

/-- **The readings differ.**  A manifest has the default for such an input, and a descriptor sets
nothing. -/
theorem not_readAlike_veiledInput :
    veiledInput.Decoded ∧ veiledInput.Untyped ∧
      (veiledInput.resolve {} "m.yaml" "p").result = .ok (some (.int 5)) ∧
      mergeInputs {} (.single "p" veiledInput) [] = [] ∧ ¬ veiledInput.ReadAlike {} := by
  have huntyped : veiledInput.Untyped := by rfl
  have hresolve : (veiledInput.resolve {} "m.yaml" "p").result = .ok (some (.int 5)) := by
    rw [huntyped.resolve_result]
    rfl
  have hmerge : mergeInputs {} (.single "p" veiledInput) [] = [] := by
    rw [mergeInputs_single, veiled_veiledInput.overrideValue?_eq_none]
    rfl
  refine ⟨decoded_veiledInput, huntyped, hresolve, hmerge, fun halike => ?_⟩
  have hset := ((halike "m.yaml" "p" "p").1 _).mp hresolve
  rw [hmerge] at hset
  cases hset

end ParamSpec

end DeployPlan
