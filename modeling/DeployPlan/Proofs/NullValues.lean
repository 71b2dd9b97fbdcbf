import DeployPlan.Proofs.Compose.Build
import DeployPlan.Proofs.Compose.Keys

/-!
# Null values in plans

A parameter or an annotation that is null should not be there at all, and what is resolved to null
is left out.  Two ways around this remain.  A parameter that is declared as JSON is read from its
text after it was resolved, and the text may read `null`; and a descriptor replaces the value of an
annotation by whatever it gives.  There is no third way.

## Main definitions

* `ParamSpec.WritesNull` — a parameter that is declared as JSON, with a text that reads `null`.
* `EntityLaw.nulls` — values are null in these two ways only.

## Main results

* `ParamType.coerce_eq_null_iff`, `ParamSpec.resolve_eq_null_iff` — when a value becomes null.
* `buildPlan_nulls` — which parameters and annotations of a plan can be null.
* `buildPlan_has_null_values` — some can.
-/

set_option autoImplicit false

namespace DeployPlan

/-! ## Values that become null -/

/-- A value that is left after null was left out is not null. -/
theorem Json.ne_null_of_nonNull? {v w : Json} (h : v.nonNull? = some w) : w ≠ .null := by
  rw [Json.nonNull?] at h
  split at h
  · cases h
  · rename_i hnull
    cases h
    rintro rfl
    exact hnull rfl

/-- A type has a value that is not null. -/
theorem ParamType.zero_ne_null (type : ParamType) : type.zero ≠ .null := by
  cases type <;> simp [zero]

/-- A text is read as null only if the type is JSON. -/
theorem ParamType.ofText_eq_null_iff {type : ParamType} {s : String} :
    type.ofText s = .ok .null ↔ type = .json ∧ Json.parse? s = some .null := by
  cases type with
  | string => simp [ofText]
  | integer => cases hn : integerOfText? (Text.trim s) <;> simp [ofText, hn]
  | float => cases hx : floatOfText? (Text.trim s) <;> simp [ofText, hx]
  | boolean => cases hb : boolOfText? (Text.trim s) <;> simp [ofText, hb]
  | json => cases hv : Json.parse? s <;> simp [ofText, hv]

/-- **A value becomes null** as a value of a type only if the type is JSON and the value a text
that reads null. -/
theorem ParamType.coerce_eq_null_iff {type : ParamType} {v : Json} :
    type.coerce v = .ok .null ↔ type = .json ∧ ∃ s, v = .str s ∧ Json.parse? s = some .null := by
  cases v with
  | str s => simp [coerce, ofText_eq_null_iff]
  | _ => cases type <;> simp [coerce]

/-- The same with defaults: where no value is given, none becomes null. -/
theorem ParamDeclaration.typed_eq_null_iff {type : Option ParamType} {raw : Option Json}
    (hraw : raw ≠ some .null) :
    typed type raw = .ok (some .null) ↔
      type = some .json ∧ ∃ s, raw = some (.str s) ∧ Json.parse? s = some .null := by
  cases type with
  | none => simp [typed, hraw]
  | some type =>
    cases raw with
    | none => simp [typed, type.zero_ne_null]
    | some v =>
      have hmap : typed (some type) (some v) = .ok (some .null) ↔ type.coerce v = .ok .null := by
        rw [typed]
        cases type.coerce v <;> simp [Except.map]
      simp [hmap, ParamType.coerce_eq_null_iff]

/-! ## Parameters -/

/-- A parameter that is declared as JSON, with a text that reads `null`. -/
def ParamSpec.WritesNull (vars : Variables) : ParamSpec → Prop
  | .literal _ => False
  | .declared d => d.paramType? = .ok (some .json) ∧
      ∃ v s, d.given? = some v ∧ v.resolved vars = .str s ∧ Json.parse? s = some .null

/-- **A parameter becomes null** exactly if it writes null. -/
theorem ParamSpec.resolve_eq_null_iff {vars : Variables} {path name : String}
    {spec : ParamSpec} :
    (spec.resolve vars path name).result = .ok (some .null) ↔ spec.WritesNull vars := by
  cases spec with
  | literal v =>
    refine ⟨fun h => ?_, False.elim⟩
    exact Json.ne_null_of_nonNull? (Except.ok.inj h) rfl
  | declared d =>
    have hraw : (d.given?.bind fun v => (v.resolved vars).nonNull?) ≠ some .null := by
      intro h
      obtain ⟨v, -, hv⟩ := Option.bind_eq_some_iff.mp h
      exact Json.ne_null_of_nonNull? hv rfl
    have hstr : ∀ s, ((d.given?.bind fun v => (v.resolved vars).nonNull?) = some (.str s) ↔
        ∃ v, d.given? = some v ∧ v.resolved vars = .str s) := by
      intro s
      rw [Option.bind_eq_some_iff]
      refine exists_congr fun v => and_congr_right fun _ => ?_
      cases v.resolved vars <;> simp [Json.nonNull?, Json.isNull]
    simp only [ParamSpec.resolve, ParamDeclaration.resolve_result, Except.bind_eq_ok_iff,
      Except.mapError_eq_ok_iff, ParamDeclaration.typed_eq_null_iff hraw, hstr, WritesNull]
    constructor
    · rintro ⟨_, htype, rfl, s, ⟨v, hv, hs⟩, hnull⟩
      exact ⟨htype, v, s, hv, hs, hnull⟩
    · rintro ⟨htype, v, s, hv, hs, hnull⟩
      exact ⟨_, htype, rfl, s, ⟨v, hv, hs⟩, hnull⟩

/-- Inputs of which one writes null under a key. -/
def InputsWriteNull (vars : Variables) (inputs : KeyMap ParamSpec) (key : String) : Prop :=
  ∃ spec, inputs.get? key = some spec ∧ spec.WritesNull vars

namespace KeyValues

/-- Entries are null only under keys for which that is allowed. -/
def NullOnly (allowed : String → Prop) (list : List KeyValue) : Prop :=
  ∀ kv ∈ list, kv.value = .null → allowed kv.key

end KeyValues

open KeyValues

/-- Parameters are null only where an input writes null. -/
theorem nullOnly_resolveParams {vars : Variables} {path : String} {inputs : KeyMap ParamSpec}
    {parameters : List KeyValue} (h : (resolveParams vars path inputs).result = .ok parameters) :
    NullOnly (InputsWriteNull vars inputs) parameters := by
  rw [resolveParams, Report.result_bind, Report.result_mapM, Except.bind_eq_ok_iff] at h
  obtain ⟨resolved, hresolved, h⟩ := h
  cases h
  intro kv hkv hnull
  obtain ⟨o, ho, rfl⟩ := List.mem_filterMap.mp hkv
  obtain ⟨e, he, hmade⟩ := Except.mem_of_mapM_eq_ok hresolved ho
  obtain ⟨value, hvalue, hmade⟩ :=
    Except.bind_eq_ok_iff.mp ((Report.result_bind _ _).symm.trans hmade)
  cases value with
  | none => cases hmade
  | some value =>
    cases hmade
    cases hnull
    exact ⟨e.2, KeyMap.mem_entries_iff.mp he, ParamSpec.resolve_eq_null_iff.mp hvalue⟩

/-- Merged inputs are not null. -/
theorem nullOnly_mergeInputs {vars : Variables} {inputs : KeyMap ParamSpec}
    {allowed : String → Prop} {parameters : List KeyValue} (h : NullOnly allowed parameters) :
    NullOnly allowed (Override.mergeInputs vars inputs parameters) := by
  intro kv hkv hnull
  rcases Override.mem_of_mem_mergeInputs hkv with hset | hkept
  · obtain ⟨e, -, he⟩ := List.mem_filterMap.mp hset
    obtain ⟨v, -, hv⟩ := Option.bind_eq_some_iff.mp he
    obtain ⟨value, hvalue, rfl⟩ := Option.map_eq_some_iff.mp hv
    exact absurd hnull (Json.ne_null_of_nonNull? hvalue)
  · exact h kv hkept hnull

/-! ## Annotations -/

/-- Resolved annotations are not null. -/
theorem nullOnly_resolvedAnnotations (vars : Variables) (declared : KeyMap Yaml.Value)
    (allowed : String → Prop) : NullOnly allowed (resolvedAnnotations vars declared) := by
  intro kv hkv hnull
  obtain ⟨e, -, he⟩ := List.mem_filterMap.mp hkv
  obtain ⟨value, hvalue, rfl⟩ := Option.map_eq_some_iff.mp he
  exact absurd hnull (Json.ne_null_of_nonNull? hvalue)

namespace Context

variable {ctx : Context} {allowed : String → Prop}

/-- A context whose marker, if it has one, is not null. -/
def MarkerNotNull (ctx : Context) : Prop :=
  ∀ marker, ctx.marker = some marker → marker.value ≠ .null

/-- The context of a document is one. -/
theorem ofManifest_markerNotNull {settings : Settings} {vars : Variables} {m : Manifest}
    (h : ofManifest settings vars m = .ok ctx) : ctx.MarkerNotNull := by
  intro marker hmarker
  rw [ofManifest] at h
  split at h
  · obtain ⟨marker', hmarker', rfl⟩ := Except.map_eq_ok_iff.mp h
    cases hmarker
    obtain ⟨entries, hvalue⟩ := marker_value hmarker'
    rw [hvalue]
    exact Json.noConfusion
  · cases h
    cases hmarker

/-- A marker brings no null value. -/
theorem nullOnly_mark (hctx : ctx.MarkerNotNull) {annotations : List KeyValue}
    (h : NullOnly allowed annotations) : NullOnly allowed (ctx.mark annotations) := by
  rw [mark]
  cases hmarker : ctx.marker with
  | none => exact h
  | some marker =>
    intro kv hkv hnull
    rcases List.mem_append.mp hkv with hkept | hlast
    · exact h kv (List.mem_of_mem_filter hkept) hnull
    · obtain rfl := List.mem_singleton.mp hlast
      exact absurd hnull (hctx _ hmarker)

/-- A feed brings no null value. -/
theorem nullOnly_withFeed (feed : String) {annotations : List KeyValue}
    (h : NullOnly allowed annotations) : NullOnly allowed (withFeed feed annotations) := by
  rw [withFeed]
  split
  · exact h
  · intro kv hkv hnull
    rcases List.mem_cons.mp hkv with rfl | hkept
    · cases hnull
    · exact h kv (List.mem_of_mem_filter hkept) hnull

/-- A web mode brings no null value. -/
theorem nullOnly_annotationsFor (hctx : ctx.MarkerNotNull) (spec : ActionSpec) :
    NullOnly allowed (ctx.annotationsFor spec) := by
  have hmark := nullOnly_mark hctx (nullOnly_resolvedAnnotations ctx.vars spec.annotations allowed)
  rw [annotationsFor]
  split
  · intro kv hkv hnull
    rcases List.mem_append.mp hkv with hkept | hweb
    · exact hmark kv (List.mem_of_mem_filter hkept) hnull
    · simp only [WebMode.annotations, List.mem_cons, List.not_mem_nil, or_false] at hweb
      rcases hweb with rfl | rfl | rfl <;> cases hnull
  · exact hmark

end Context

/-- Replaced values are null only if null is given. -/
theorem nullOnly_withValues {given : KeyMap Yaml.Value} {allowed : String → Prop}
    {annotations : List KeyValue} (h : NullOnly allowed annotations)
    (hgiven : ∀ key v, given.get? key = some v → v.toJson = .null → allowed key) :
    NullOnly allowed (Override.withValues given annotations) := by
  refine Override.withValues_induction h fun key v hv l hl kv hkv hnull => ?_
  rcases mem_of_mem_replaceFirst hkv with hkept | rfl
  · exact hl kv hkept hnull
  · exact hgiven key v hv hnull

/-! ## Plans -/

/-- The parameters and the annotations of an entity are null only under keys for which that is
allowed. -/
structure Entity.NullOnly {σ : Type} [Entity σ] (parameter annotation : String → Prop) (s : σ) :
    Prop where
  parameters : KeyValues.NullOnly parameter (Entity.parameters s)
  annotations : KeyValues.NullOnly annotation (Entity.annotations s)

/-- **Null values in two ways only**: a parameter is null only where an input of its declaration
writes null, and an annotation only where its entity is given null under its key. -/
def EntityLaw.nulls (vars : Variables) (given : EntityName → String → Prop) : EntityLaw where
  package name spec p :=
    Entity.NullOnly (InputsWriteNull vars spec.inputs) (given (.package name)) p
  action package name spec r :=
    Entity.NullOnly (InputsWriteNull vars spec.inputs) (given (.action package name)) r
  sequence _ _ _ r := Entity.NullOnly (fun _ => False) (fun _ => False) r
  trigger name spec x :=
    Entity.NullOnly (InputsWriteNull vars spec.inputs) (given (.trigger name)) x
  dependency spec d := NullOnly (InputsWriteNull vars spec.inputs) d.parameters ∧
    NullOnly (fun _ => False) d.annotations

/-- What is composed has null values in these ways only. -/
theorem Context.followsAt_nulls [Host] {ctx : Context} (hctx : ctx.MarkerNotNull)
    (given : EntityName → String → Prop) (t : FileTree) :
    ctx.FollowsAt (.nulls ctx.vars given) t where
  package _ spec p h := by
    rw [composePackage_result] at h
    obtain ⟨parameters, hparameters, rfl⟩ := Except.map_eq_ok_iff.mp h
    exact ⟨nullOnly_resolveParams hparameters,
      nullOnly_mark hctx (nullOnly_resolvedAnnotations _ _ _)⟩
  action package name spec r h := by
    obtain ⟨loaded, kind, parameters, -, -, hparameters, -, rfl⟩ :=
      (composeAction_eq_ok_iff (P := Host.packer package name) ctx).mp h
    exact ⟨nullOnly_resolveParams hparameters, nullOnly_annotationsFor hctx spec⟩
  sequence _ _ spec r h := by
    rw [composeSequence_result] at h
    cases h
    exact ⟨fun _ hkv => absurd hkv List.not_mem_nil,
      nullOnly_mark hctx (nullOnly_resolvedAnnotations _ _ _)⟩
  trigger _ spec x h := by
    rw [composeTrigger_result] at h
    obtain ⟨parameters, hparameters, rfl⟩ := Except.map_eq_ok_iff.mp h
    exact ⟨nullOnly_resolveParams hparameters,
      nullOnly_mark hctx (nullOnly_withFeed _ (nullOnly_resolvedAnnotations _ _ _))⟩
  dependency _ _ spec d h := by
    rw [composeDependency_result] at h
    cases hlocation : Location.ofText? spec.location with
    | none => rw [hlocation] at h; cases h
    | some location =>
      rw [hlocation] at h
      obtain ⟨parameters, hparameters, rfl⟩ := Except.map_eq_ok_iff.mp h
      exact ⟨nullOnly_resolveParams hparameters, nullOnly_resolvedAnnotations _ _ _⟩

/-- Overriding an entity adds null values only under keys to which null is given. -/
theorem Entity.NullOnly.overridden {σ : Type} [Entity σ] {vars : Variables}
    {descriptor : Manifest} {entity : EntityName} {inputs : KeyMap ParamSpec}
    {given : KeyMap Yaml.Value} {parameter annotation : String → Prop} {s : σ}
    (h : Entity.NullOnly parameter annotation s)
    (hgives : descriptor.GivesEntity entity inputs given)
    (hnull : ∀ key, descriptor.GivesValue entity key .null → annotation key) :
    Entity.NullOnly parameter annotation (Override.overriddenEntity vars inputs given s) where
  parameters := by
    rw [Override.overriddenEntity, Entity.parameters_withLists]
    exact nullOnly_mergeInputs h.parameters
  annotations := by
    rw [Override.overriddenEntity, Entity.annotations_withLists]
    exact nullOnly_withValues h.annotations fun key v hv hjson =>
      hnull key ⟨inputs, given, v, hgives, hv, hjson⟩

/-- These ways survive a descriptor that gives null only where that is allowed. -/
theorem EntityLaw.survives_nulls {vars : Variables} {descriptor : Manifest}
    {given : EntityName → String → Prop}
    (h : ∀ entity key, descriptor.GivesValue entity key .null → given entity key) :
    (EntityLaw.nulls vars given).Survives vars descriptor where
  package _ _ _ hgives _ _ hp := hp.overridden hgives (h _)
  action _ _ _ _ hgives _ _ hr := hr.overridden hgives (h _)
  trigger _ _ _ hgives _ _ hx := hx.overridden hgives (h _)

/-- **Null values in a plan that is built**: a parameter is null only if its declaration writes
null, and an annotation only if the descriptor gives its entity null under its key.  Annotations
of sequences and dependencies are never null.

**Proof sketch.** What is resolved to null is left out of parameters and annotations alike, and
neither the marker, nor a feed, nor a web mode is null.  A value can turn to null later on only
where a text is read as JSON, or where an annotation is replaced. -/
theorem buildPlan_nulls [Host] {settings : Settings} {vars : Variables} {manifest : String}
    {deployment : Option String} {t : FileTree} {plan : Plan}
    (h : (buildPlan settings vars manifest deployment).resultAt t = .ok plan) :
    ∃ m, (Manifest.load manifest).resultAt t = .ok m ∧
      plan.Obeys (.nulls vars fun entity key => GivenAt deployment t entity key .null) m vars := by
  obtain ⟨m, _, hm, -, -⟩ := buildPlan_eq_ok_iff.mp h
  refine ⟨m, hm, buildPlan_obeys h hm (fun ctx hctx => ?_) fun descriptor hdescriptor => ?_⟩
  · obtain rfl := Context.ofManifest_vars hctx
    exact Context.followsAt_nulls (Context.ofManifest_markerNotNull hctx) _ t
  · exact EntityLaw.survives_nulls fun _ _ hkey => ⟨descriptor, hdescriptor, hkey⟩

/-! ## Null values that remain -/

attribute [local instance] oneHost

/-- A manifest with a parameter that writes null, and a descriptor that gives null to an
annotation. -/
def FileTree.nullTexts : FileTree := .ofTexts
  [("manifest.yaml", "packages:\n  demo:\n    inputs:\n      cfg:\n        type: json\n" ++
      "        value: 'null'\n    annotations:\n      owner: a\n"),
    ("deployment.yaml", "packages:\n  demo:\n    annotations:\n      owner: ~\n")]

/-- Whether a list has a null value under a key. -/
def KeyValues.hasNull (key : String) (list : List KeyValue) : Bool :=
  list.any fun kv => kv.key == key && kv.value.isNull

/-- If it has one, there is an entry with it. -/
theorem KeyValues.mem_of_hasNull {key : String} {list : List KeyValue}
    (h : hasNull key list = true) : ⟨key, .null⟩ ∈ list := by
  obtain ⟨⟨key', value⟩, hmem, hnull⟩ := List.any_eq_true.mp h
  obtain ⟨hkey, hvalue⟩ := Bool.and_eq_true_iff.mp hnull
  obtain rfl : key' = key := eq_of_beq hkey
  cases value with
  | null => exact hmem
  | _ => cases hvalue

/-- A package with a null parameter and a null annotation. -/
def Plan.hasNulls (plan : Plan) : Bool := (plan.packages.get? "demo").any fun q =>
  hasNull "cfg" q.package.parameters && hasNull "owner" q.package.annotations

/-- Their plan is built, and has such a package. -/
theorem FileTree.nullTexts_build :
    ∃ plan, (buildPlan {} {} "manifest.yaml" (some "deployment.yaml")).resultAt nullTexts =
      .ok plan ∧ plan.hasNulls = true := by
  have hmanifest : nullTexts.readText "manifest.yaml" = .ok _ :=
    readText_ofTexts (by decide +kernel) rfl
  have hdeployment : nullTexts.readText "deployment.yaml" = .ok _ :=
    readText_ofTexts (by decide +kernel) rfl
  refine Except.exists_of_any ?_
  rw [buildPlan_some_resultAt, Manifest.load_resultAt hmanifest,
    Manifest.load_resultAt hdeployment]
  decide +kernel

/-- Null values in the two ways, and in no other, in the plan of these texts. -/
theorem buildPlan_nulls_of_nullTexts :
    ∃ plan, (buildPlan {} {} "manifest.yaml" (some "deployment.yaml")).resultAt .nullTexts =
        .ok plan ∧
      ∃ m, (Manifest.load "manifest.yaml").resultAt .nullTexts = .ok m ∧
        plan.Obeys (.nulls {} fun entity key =>
          GivenAt (some "deployment.yaml") .nullTexts entity key .null) m {} := by
  obtain ⟨plan, hplan, -⟩ := FileTree.nullTexts_build
  exact ⟨plan, hplan, buildPlan_nulls hplan⟩

/-- **A plan can have null values**, of a parameter as well as of an annotation. -/
theorem buildPlan_has_null_values :
    ∃ plan q, (buildPlan {} {} "manifest.yaml" (some "deployment.yaml")).resultAt .nullTexts =
        .ok plan ∧
      plan.packages.get? "demo" = some q ∧ ⟨"cfg", .null⟩ ∈ q.package.parameters ∧
      ⟨"owner", .null⟩ ∈ q.package.annotations := by
  obtain ⟨plan, hplan, hnulls⟩ := FileTree.nullTexts_build
  obtain ⟨q, hq, hnull⟩ := (Option.any_eq_true _ _).mp hnulls
  obtain ⟨hparameter, howner⟩ := Bool.and_eq_true_iff.mp hnull
  exact ⟨plan, q, hplan, hq, mem_of_hasNull hparameter, mem_of_hasNull howner⟩

end DeployPlan
