import DeployPlan.Proofs.Compose.Entity
import DeployPlan.Proofs.KeyValues

/-!
# Keys of composed entities

Annotations are edited in several ways before they are part of a plan: a feed is put at the front,
the marker of the project at the end, and the annotations of a web mode behind that.  Each edit
removes what has its keys, so that keys stay distinct, and leaves the keys of the others in place.
Which parameters and annotations there are at all is decided by their declarations, whatever
variables stand for.

## Main definitions

* `ParamSpec.hasValue` — whether a parameter has a value.
* `Context.MarksIf` — a context that marks entities if it should.

## Main results

* `keys_resolveParams`, `keys_resolvedAnnotations` — the keys of parameters and annotations.
* `distinct_resolveParams`, `distinct_resolvedAnnotations` — keys come out distinct.
* `Context.keys_mark`, `Context.head?_keys_mark_withFeed`, `WebMode.keys_annotate` — where the
  marker, the feed and the annotations of a web mode are.
-/

set_option autoImplicit false

namespace DeployPlan

open KeyValues

/-! ## Keys of what has a value -/

/-- Whether a value is null as JSON does not depend on variables. -/
theorem Yaml.Value.isNull_resolved (vars : Variables) :
    ∀ v : Yaml.Value, (v.resolved vars).isNull = v.toJson.isNull
  | .tagged _ v => isNull_resolved vars v
  | .null | .bool _ | .int _ | .float _ | .str _ | .seq _ | .map _ => rfl

/-- Whether a parameter has a value: it is given one, or has a type. -/
def ParamSpec.hasValue : ParamSpec → Bool
  | .literal v => !v.toJson.isNull
  | .declared d => match d.paramType? with
    | .ok none => d.given?.any fun v => !v.toJson.isNull
    | _ => true

/-- A value that may be null is there if it is not. -/
theorem Json.isSome_nonNull? (v : Json) : v.nonNull?.isSome = !v.isNull := by
  rw [nonNull?]
  cases v.isNull <;> rfl

/-- A declared parameter is resolved before it is made one of its type. -/
theorem ParamDeclaration.resolve_result (d : ParamDeclaration) (vars : Variables)
    (name path : String) :
    (d.resolve vars name path).result =
      (d.paramType?.mapError (.parameter name path) >>= fun type =>
        (typed type (d.given?.bind fun v => (v.resolved vars).nonNull?)).mapError
          (.parameter name path)) := by
  rw [ParamDeclaration.resolve, Report.result_bind]
  refine bind_congr fun type => ?_
  cases d.given? <;> rfl

/-- **A parameter that can be resolved** is there if it has a value, whatever the variables. -/
theorem ParamSpec.isSome_of_resolve {spec : ParamSpec} {vars : Variables} {path name : String}
    {value : Option Json} (h : (spec.resolve vars path name).result = .ok value) :
    value.isSome = spec.hasValue := by
  cases spec with
  | literal v =>
    cases h
    rw [Json.isSome_nonNull?, Yaml.Value.isNull_resolved]
    rfl
  | declared d =>
    rw [ParamSpec.resolve, ParamDeclaration.resolve_result] at h
    obtain ⟨type, htype, h⟩ := Except.bind_eq_ok_iff.mp h
    rw [Except.mapError_eq_ok_iff] at htype h
    rw [hasValue, htype]
    cases type with
    | none =>
      cases h
      cases d.given? <;> simp [Json.isSome_nonNull?, Yaml.Value.isNull_resolved]
    | some type =>
      cases hraw : d.given?.bind fun v => (v.resolved vars).nonNull? with
      | none =>
        rw [hraw] at h
        cases h
        rfl
      | some raw =>
        rw [hraw] at h
        obtain ⟨v, -, rfl⟩ := Except.map_eq_ok_iff.mp h
        rfl

/-! ## Parameters -/

/-- **Keys of parameters** are those of the inputs that have a value. -/
theorem keys_resolveParams {vars : Variables} {path : String} {inputs : KeyMap ParamSpec}
    {parameters : List KeyValue} (h : (resolveParams vars path inputs).result = .ok parameters) :
    keys parameters = (inputs.entries.filter fun e => e.2.hasValue).map (·.1) := by
  rw [resolveParams, Report.result_bind, Report.result_mapM, Except.bind_eq_ok_iff] at h
  obtain ⟨resolved, hresolved, h⟩ := h
  cases h
  refine keys_filterMap_id (fun e => e.2.hasValue)
    ((Except.mapM_eq_ok_iff.mp hresolved).imp fun e o ho => ?_)
  obtain ⟨value, hvalue, ho⟩ := Except.bind_eq_ok_iff.mp ((Report.result_bind _ _).symm.trans ho)
  cases ho
  rw [← ParamSpec.isSome_of_resolve hvalue]
  cases value <;> rfl

/-- So they are distinct. -/
theorem distinct_resolveParams {vars : Variables} {path : String} {inputs : KeyMap ParamSpec}
    {parameters : List KeyValue} (h : (resolveParams vars path inputs).result = .ok parameters) :
    Distinct parameters := by
  rw [Distinct, keys_resolveParams h]
  exact inputs.nodup_keys_filter _

/-- **Keys of annotations** are those of the declared ones that are not null as JSON. -/
theorem keys_resolvedAnnotations (vars : Variables) (annotations : KeyMap Yaml.Value) :
    keys (resolvedAnnotations vars annotations) =
      (annotations.entries.filter fun e => !e.2.toJson.isNull).map (·.1) := by
  have hmade : resolvedAnnotations vars annotations = (annotations.entries.map fun e =>
      (e.2.resolved vars).nonNull?.map (KeyValue.mk e.1)).filterMap id := by
    rw [List.filterMap_map]
    rfl
  rw [hmade]
  refine keys_filterMap_id (fun e : String × Yaml.Value => !e.2.toJson.isNull) ?_
  rw [List.forall₂_map_right_iff, List.forall₂_same]
  intro e _
  rw [← Yaml.Value.isNull_resolved vars, ← Json.isSome_nonNull?]
  cases (e.2.resolved vars).nonNull? <;> rfl

/-- So they are distinct. -/
theorem distinct_resolvedAnnotations (vars : Variables) (annotations : KeyMap Yaml.Value) :
    Distinct (resolvedAnnotations vars annotations) := by
  rw [Distinct, keys_resolvedAnnotations]
  exact annotations.nodup_keys_filter _

/-! ## Web modes -/

namespace WebMode

/-- The annotations of a web mode come behind what is left of the others. -/
theorem keys_annotate (mode : WebMode) (list : List KeyValue) :
    KeyValues.keys (mode.annotate list) =
      (KeyValues.keys list).filter (fun key => !keys.contains key) ++ keys := by
  rw [annotate, keys_append]
  congr 1
  rw [KeyValues.keys, KeyValues.keys, List.filter_map]
  rfl

/-- Keys stay distinct when a web mode is set. -/
theorem distinct_annotate (mode : WebMode) {list : List KeyValue} (h : Distinct list) :
    Distinct (mode.annotate list) := by
  have hkeys : keys.Nodup := by decide
  rw [Distinct, keys_annotate, List.nodup_append]
  refine ⟨h.filter _, hkeys, fun key hkey other hother heq => ?_⟩
  rw [List.mem_filter, heq] at hkey
  simp [hother] at hkey

/-- What comes last before the annotations of a web mode stays there, if it is none of them. -/
theorem suffix_keys_annotate (mode : WebMode) {list : List KeyValue} {key : String}
    (h : [key] <:+ KeyValues.keys list) (hkey : key ∉ keys) :
    key :: keys <:+ KeyValues.keys (mode.annotate list) := by
  obtain ⟨before, hbefore⟩ := h
  refine ⟨before.filter fun key => !keys.contains key, ?_⟩
  rw [keys_annotate, ← hbefore, List.filter_append]
  simp [hkey]

end WebMode

namespace Context

/-! ## Marked annotations -/

/-- A context that marks entities if it should: it has a marker exactly then. -/
def MarksIf (managed : Bool) (ctx : Context) : Prop :=
  ctx.marker.map (·.key) = if managed then some markerKey else none

/-- The marker of a document has one key, whatever the document. -/
theorem marker_key {m : Manifest} {marker : KeyValue} (h : m.marker = .ok marker) :
    marker.key = markerKey := by
  rw [Manifest.marker] at h
  split at h
  · cases h
  split at h
  · cases h
  cases h
  rfl

/-- Its value is an object. -/
theorem marker_value {m : Manifest} {marker : KeyValue} (h : m.marker = .ok marker) :
    ∃ entries, marker.value = .obj entries := by
  rw [Manifest.marker] at h
  split at h
  · cases h
  split at h
  · cases h
  cases h
  exact ⟨_, rfl⟩

/-- The context of a document has the given variables, and marks entities if the settings say
so. -/
theorem ofManifest_spec {settings : Settings} {vars : Variables} {m : Manifest} {ctx : Context}
    (h : ofManifest settings vars m = .ok ctx) :
    ctx.vars = vars ∧ ctx.MarksIf settings.managed := by
  rw [ofManifest] at h
  rw [MarksIf]
  cases hmanaged : settings.managed with
  | false =>
    rw [hmanaged] at h
    cases h
    exact ⟨rfl, rfl⟩
  | true =>
    rw [hmanaged, if_pos rfl] at h
    obtain ⟨marker, hmarker, rfl⟩ := Except.map_eq_ok_iff.mp h
    exact ⟨rfl, congrArg some (marker_key hmarker)⟩

variable {managed : Bool} {ctx : Context}

/-- The marker comes behind what is left of the other annotations. -/
theorem keys_mark (hctx : ctx.MarksIf managed) (annotations : List KeyValue) :
    keys (ctx.mark annotations) =
      if managed then (keys annotations).filter (· != markerKey) ++ [markerKey]
      else keys annotations := by
  rw [MarksIf] at hctx
  rw [mark]
  cases hmarker : ctx.marker with
  | none =>
    cases managed with
    | false => rfl
    | true => rw [hmarker] at hctx; cases hctx
  | some marker =>
    cases managed with
    | false => rw [hmarker] at hctx; cases hctx
    | true =>
      rw [hmarker] at hctx
      have hkey : marker.key = markerKey := Option.some.inj hctx
      dsimp only
      rw [keys_append, keys_remove, hkey, keys_cons, hkey]
      rfl

/-- Keys stay distinct when an entity is marked. -/
theorem distinct_mark (hctx : ctx.MarksIf managed) {annotations : List KeyValue}
    (h : Distinct annotations) : Distinct (ctx.mark annotations) := by
  rw [Distinct, keys_mark hctx]
  split
  · rw [List.nodup_append]
    refine ⟨h.filter _, List.nodup_singleton _, fun key hkey other hother heq => ?_⟩
    rw [List.mem_singleton] at hother
    simp [heq, hother] at hkey
  · exact h

/-- The marker comes last. -/
theorem suffix_keys_mark (hctx : ctx.MarksIf true) (annotations : List KeyValue) :
    [markerKey] <:+ keys (ctx.mark annotations) := by
  rw [keys_mark hctx]
  exact List.suffix_append _ _

/-! ## Feeds -/

/-- Keys stay distinct when a feed is named. -/
theorem distinct_withFeed (feed : String) {annotations : List KeyValue}
    (h : Distinct annotations) : Distinct (withFeed feed annotations) := by
  rw [withFeed]
  split
  · exact h
  · exact List.nodup_cons.mpr ⟨not_mem_keys_remove _ _, h.remove _⟩

/-- A feed comes first, also if entities are marked. -/
theorem head?_keys_mark_withFeed (hctx : ctx.MarksIf managed) {feed : String} (hfeed : feed ≠ "")
    (annotations : List KeyValue) :
    (keys (ctx.mark (withFeed feed annotations))).head? = some feedKey := by
  have hkeys : keys (withFeed feed annotations) =
      feedKey :: keys (KeyValues.remove feedKey annotations) := by
    rw [withFeed, if_neg (by simpa using hfeed)]
    rfl
  rw [keys_mark hctx, hkeys]
  split
  · rw [List.filter_cons_of_pos (by decide)]
    rfl
  · rfl

end Context

end DeployPlan
