import DeployPlan.Proofs.Compose.Build
import DeployPlan.Proofs.Compose.Keys

/-!
# The marker in plans

In managed mode every package, action, sequence and trigger carries one annotation that marks it
as owned by the project of the document.  What a manifest declares under the key of the marker
gives way to it.  A descriptor can replace its value, as it can that of any annotation, except in
sequences, which no descriptor reaches.

## Main definitions

* `KeyValues.under` — the entries under a key.
* `KeyValues.MarkedBy` — one marker, with a value of some kind.
* `EntityLaw.marked` — all entities that can be marked are.

## Main results

* `KeyValues.under_mark`, `under_annotationsFor` — what is composed carries the marker once.
* `buildPlan_marks` — so does what is built; the value is that of the document, or one that the
  descriptor gives the same entity.
* `buildPlan_marker_replaced` — a descriptor can give one.
-/

set_option autoImplicit false

namespace DeployPlan

/-! ## Entries under a key -/

namespace KeyValues

/-- The entries under a key. -/
def under (key : String) (list : List KeyValue) : List KeyValue :=
  list.filter fun kv => kv.key == key

/-- The entries under a key in two lists come one after the other. -/
@[simp] theorem under_append (key : String) (list others : List KeyValue) :
    under key (list ++ others) = under key list ++ under key others :=
  List.filter_append _ _

/-- There are none under a key that was removed. -/
@[simp] theorem under_remove (key : String) (list : List KeyValue) :
    under key (remove key list) = [] := by
  rw [under, remove, List.filter_filter, List.filter_eq_nil_iff]
  simp

/-- Without the entries of other keys, those under a key stay. -/
theorem under_filter {key : String} {p : String → Bool} (hp : p key = true)
    (list : List KeyValue) : under key (list.filter fun kv => p kv.key) = under key list := by
  rw [under, List.filter_filter]
  refine List.filter_congr fun kv _ => ?_
  by_cases hkey : kv.key = key
  · simp [hkey, hp]
  · simp [hkey]

/-- **One marker**, with a value of some kind. -/
def MarkedBy (value : Json → Prop) (list : List KeyValue) : Prop :=
  ∃ v, under markerKey list = [⟨markerKey, v⟩] ∧ value v

/-- A value that replaces another under a key leaves one marker, and may be its value. -/
theorem MarkedBy.replaceFirst {value : Json → Prop} {list : List KeyValue}
    (h : MarkedBy value list) {key : String} {v : Json} (hv : key = markerKey → value v) :
    MarkedBy value (replaceFirst key v list) := by
  obtain ⟨w, hw, hvalue⟩ := h
  have hunder : under markerKey (KeyValues.replaceFirst key v list) =
      KeyValues.replaceFirst key v [⟨markerKey, w⟩] :=
    (filter_replaceFirst (· == markerKey) key v list).trans (congrArg _ hw)
  by_cases hkey : markerKey = key
  · refine ⟨v, hunder.trans ?_, hv hkey.symm⟩
    simp [KeyValues.replaceFirst, hkey]
  · refine ⟨w, hunder.trans ?_, hvalue⟩
    simp [KeyValues.replaceFirst, hkey]

/-- Given values leave one marker, and may be its value. -/
theorem MarkedBy.withValues {value : Json → Prop} {list : List KeyValue}
    (h : MarkedBy value list) {given : KeyMap Yaml.Value}
    (hgiven : ∀ v, given.get? markerKey = some v → value v.toJson) :
    MarkedBy value (Override.withValues given list) := by
  refine Override.withValues_induction h fun key v hv l hl => hl.replaceFirst ?_
  rintro rfl
  exact hgiven v hv

end KeyValues

open KeyValues

/-! ## Composed entities -/

namespace Context

variable {ctx : Context} {marker : KeyValue}

/-- Whatever an entity is given under its key, the marker is there once. -/
theorem under_mark (hctx : ctx.marker = some marker) (hkey : marker.key = markerKey)
    (annotations : List KeyValue) : under markerKey (ctx.mark annotations) = [marker] := by
  rw [mark, hctx]
  dsimp only
  rw [under_append, hkey, under_remove]
  simp [under, hkey]

/-- An action that is reached over the web keeps the marker. -/
theorem under_annotationsFor (hctx : ctx.marker = some marker) (hkey : marker.key = markerKey)
    (spec : ActionSpec) : under markerKey (ctx.annotationsFor spec) = [marker] := by
  rw [annotationsFor]
  split
  · have hweb : under markerKey WebMode.exported.annotations = [] := by decide
    rw [WebMode.annotate, under_append, hweb, List.append_nil,
      under_filter (p := fun key => !WebMode.keys.contains key) (by decide), under_mark hctx hkey]
  · exact under_mark hctx hkey _

end Context

/-- All packages, actions, sequences and triggers are marked: sequences by the marker of the
document, others by a marker with its value or one that they are given. -/
def EntityLaw.marked (value : Json) (given : EntityName → Json → Prop) : EntityLaw where
  package name _ p := MarkedBy (fun v => v = value ∨ given (.package name) v) p.annotations
  action package name _ r :=
    MarkedBy (fun v => v = value ∨ given (.action package name) v) r.action.annotations
  sequence _ _ _ r := MarkedBy (· = value) r.action.annotations
  trigger name _ x := MarkedBy (fun v => v = value ∨ given (.trigger name) v) x.annotations
  dependency _ _ := True

/-- What is composed in a context with a marker is marked by it. -/
theorem Context.followsAt_marked [Host] {ctx : Context} {value : Json}
    (hctx : ctx.marker = some ⟨markerKey, value⟩) (given : EntityName → Json → Prop)
    (t : FileTree) : ctx.FollowsAt (.marked value given) t where
  package _ spec p h := by
    rw [composePackage_result] at h
    obtain ⟨parameters, -, rfl⟩ := Except.map_eq_ok_iff.mp h
    exact ⟨value, under_mark hctx rfl _, .inl rfl⟩
  action package name spec r h := by
    obtain ⟨loaded, kind, parameters, -, -, -, -, rfl⟩ :=
      (composeAction_eq_ok_iff (P := Host.packer package name) ctx).mp h
    exact ⟨value, under_annotationsFor hctx rfl spec, .inl rfl⟩
  sequence _ _ spec r h := by
    rw [composeSequence_result] at h
    cases h
    exact ⟨value, under_mark hctx rfl _, rfl⟩
  trigger _ spec x h := by
    rw [composeTrigger_result] at h
    obtain ⟨parameters, -, rfl⟩ := Except.map_eq_ok_iff.mp h
    exact ⟨value, under_mark hctx rfl _, .inl rfl⟩
  dependency _ _ _ _ _ := trivial

/-! ## Plans -/

/-- An overridden entity is still marked, by a value that may be given. -/
theorem Override.markedBy_overriddenEntity {σ : Type} [Entity σ] {vars : Variables}
    {descriptor : Manifest} {entity : EntityName} {inputs : KeyMap ParamSpec}
    {annotations : KeyMap Yaml.Value} {value : Json} {given : EntityName → Json → Prop} {s : σ}
    (hgives : descriptor.GivesEntity entity inputs annotations)
    (hgiven : ∀ entity v, descriptor.GivesValue entity markerKey v → given entity v)
    (h : MarkedBy (fun v => v = value ∨ given entity v) (Entity.annotations s)) :
    MarkedBy (fun v => v = value ∨ given entity v)
      (Entity.annotations (overriddenEntity vars inputs annotations s)) := by
  rw [overriddenEntity, Entity.annotations_withLists]
  exact h.withValues fun v hv => .inr (hgiven _ _ ⟨inputs, annotations, v, hgives, hv, rfl⟩)

/-- Marked entities stay marked, whatever a descriptor gives them. -/
theorem EntityLaw.survives_marked {vars : Variables} {descriptor : Manifest} {value : Json}
    {given : EntityName → Json → Prop}
    (h : ∀ entity v, descriptor.GivesValue entity markerKey v → given entity v) :
    (EntityLaw.marked value given).Survives vars descriptor where
  package _ _ _ hgives _ p := Override.markedBy_overriddenEntity (s := p) hgives h
  action _ _ _ _ hgives _ r := Override.markedBy_overriddenEntity (s := r) hgives h
  trigger _ _ _ hgives _ x := Override.markedBy_overriddenEntity (s := x) hgives h

/-- In managed mode, the context of a document has the marker of the document. -/
theorem Context.marker_of_managed {settings : Settings} {vars : Variables} {m : Manifest}
    {ctx : Context} (hmanaged : settings.managed = true)
    (h : ofManifest settings vars m = .ok ctx) :
    ∃ value, m.marker = .ok ⟨markerKey, value⟩ ∧ ctx.marker = some ⟨markerKey, value⟩ := by
  rw [ofManifest, if_pos hmanaged] at h
  obtain ⟨⟨key, value⟩, hmarker, rfl⟩ := Except.map_eq_ok_iff.mp h
  obtain rfl : key = markerKey := marker_key hmarker
  exact ⟨value, hmarker, rfl⟩

/-- A plan that is composed is composed in a context. -/
theorem Manifest.exists_context_of_composePlan [Host] {m : Manifest} {settings : Settings}
    {vars : Variables} {t : FileTree} {plan : Plan}
    (h : (m.composePlan settings vars).resultAt t = .ok plan) :
    ∃ ctx, Context.ofManifest settings vars m = .ok ctx := by
  rw [composePlan_resultAt] at h
  obtain ⟨parts, heach, -⟩ := Except.map_eq_ok_iff.mp h
  obtain ⟨ctx, hctx, -⟩ := eachAt_eq_ok_iff.mp heach
  exact ⟨ctx, hctx⟩

/-- **In managed mode every entity carries one marker.**  Its value is that of the document, or
one that the descriptor gives that entity under the same key; that of a sequence is always that of
the document.

**Proof sketch.** The marker removes what the manifest declares under its key, and neither a feed
nor the annotations of a web mode have that key.  A descriptor adds no entry and replaces the
value of the one that is there, if it gives one. -/
theorem buildPlan_marks [Host] {settings : Settings} {vars : Variables} {manifest : String}
    {deployment : Option String} {t : FileTree} {plan : Plan} (hmanaged : settings.managed = true)
    (h : (buildPlan settings vars manifest deployment).resultAt t = .ok plan) :
    ∃ m value, (Manifest.load manifest).resultAt t = .ok m ∧
      m.marker = .ok ⟨markerKey, value⟩ ∧
      plan.Obeys (.marked value fun entity v => GivenAt deployment t entity markerKey v) m vars
      := by
  obtain ⟨m, composed, hm, hcomposed, -⟩ := buildPlan_eq_ok_iff.mp h
  obtain ⟨ctx, hctx⟩ := Manifest.exists_context_of_composePlan hcomposed
  obtain ⟨value, hmarker, -⟩ := Context.marker_of_managed hmanaged hctx
  refine ⟨m, value, hm, hmarker, buildPlan_obeys h hm (fun ctx hctx => ?_) fun d hd => ?_⟩
  · obtain ⟨value', hmarker', hctxmarker⟩ := Context.marker_of_managed hmanaged hctx
    obtain rfl : value' = value := by simpa using hmarker'.symm.trans hmarker
    exact Context.followsAt_marked hctxmarker _ t
  · exact EntityLaw.survives_marked fun _ _ hv => ⟨d, hd, hv⟩

attribute [local instance] oneHost

/-- A manifest of a project, and a descriptor that gives the marker of its package a value. -/
def FileTree.markedTexts : FileTree := .ofTexts
  [("manifest.yaml", "project:\n  name: Shop\n  packages:\n    cart: \x7b\x7d\n"),
    ("deployment.yaml", "packages:\n  cart:\n    annotations:\n      whisk-managed: mine\n")]

/-- A package of a plan with a marker that is a text. -/
def Plan.hasTextMarker (plan : Plan) : Bool := (plan.packages.get? "cart").any fun q =>
  q.package.annotations.any fun kv => kv.key == markerKey && kv.value.str?.isSome

/-- Their plan is built in managed mode, and has such a package. -/
theorem FileTree.markedTexts_build :
    ∃ plan, (buildPlan { managed := true } {} "manifest.yaml"
        (some "deployment.yaml")).resultAt markedTexts = .ok plan ∧
      plan.hasTextMarker = true := by
  have hmanifest : markedTexts.readText "manifest.yaml" = .ok _ :=
    readText_ofTexts (by decide +kernel) rfl
  have hdeployment : markedTexts.readText "deployment.yaml" = .ok _ :=
    readText_ofTexts (by decide +kernel) rfl
  refine Except.exists_of_any ?_
  rw [buildPlan_some_resultAt, Manifest.load_resultAt hmanifest,
    Manifest.load_resultAt hdeployment]
  decide +kernel

/-- The entities of their plan are marked once each. -/
theorem buildPlan_marks_markedTexts :
    ∃ plan, (buildPlan { managed := true } {} "manifest.yaml"
        (some "deployment.yaml")).resultAt .markedTexts = .ok plan ∧
      ∃ m value, (Manifest.load "manifest.yaml").resultAt .markedTexts = .ok m ∧
        m.marker = .ok ⟨markerKey, value⟩ ∧
        plan.Obeys (.marked value fun entity v =>
          GivenAt (some "deployment.yaml") .markedTexts entity markerKey v) m {} := by
  obtain ⟨plan, hplan, -⟩ := FileTree.markedTexts_build
  exact ⟨plan, hplan, buildPlan_marks rfl hplan⟩

/-- **A descriptor can replace the marker** by a value that is not that of the document. -/
theorem buildPlan_marker_replaced :
    ∃ plan m marker q kv,
      (buildPlan { managed := true } {} "manifest.yaml"
        (some "deployment.yaml")).resultAt .markedTexts = .ok plan ∧
      (Manifest.load "manifest.yaml").resultAt .markedTexts = .ok m ∧
      m.marker = .ok marker ∧ plan.packages.get? "cart" = some q ∧
      kv ∈ q.package.annotations ∧ kv.key = marker.key ∧ kv.value ≠ marker.value := by
  obtain ⟨plan, hplan, htext⟩ := FileTree.markedTexts_build
  obtain ⟨m, composed, hm, hcomposed, -⟩ := buildPlan_eq_ok_iff.mp hplan
  obtain ⟨ctx, hctx⟩ := Manifest.exists_context_of_composePlan hcomposed
  obtain ⟨value, hmarker, -⟩ := Context.marker_of_managed rfl hctx
  obtain ⟨q, hq, hany⟩ := (Option.any_eq_true _ _).mp htext
  obtain ⟨kv, hkv, hboth⟩ := List.any_eq_true.mp hany
  obtain ⟨hkey, hstr⟩ := Bool.and_eq_true_iff.mp hboth
  refine ⟨plan, m, _, q, kv, hplan, hm, hmarker, hq, hkv, eq_of_beq hkey, fun hsame => ?_⟩
  -- the marker of a document is an object, and not a text
  obtain ⟨entries, hvalue⟩ := Context.marker_value hmarker
  rw [hsame, hvalue] at hstr
  cases hstr

end DeployPlan
