import DeployPlan.Proofs.EntityMaps
import DeployPlan.Proofs.Marker

/-!
# Plans with and without the marker

In managed mode a document is composed into the same plan as otherwise, but for the marker: each
package, action, sequence and trigger gets it as one more annotation, in place of what has its
key.  The one thing that can fail on the way is the digest of the document, which is that of its
canonical text; not every document has one.

## Main definitions

* `KeyValues.markedBefore` — annotations with a marker in front of the last of them.
* `Manifest.webCount` — how many annotations of an action tell of the web.
* `EntityMaps.marking` — puts a marker into all entities of a document.

## Main results

* `Context.adjusts_marked` — what is composed with a marker is what is composed without, marked.
* `Manifest.composePlan_managed` — so are plans, if the document has a canonical text.
* `Manifest.composePlan_managed_fails` — a document without one, with a plan.
-/

set_option autoImplicit false

namespace DeployPlan

/-! ## Marked lists -/

namespace KeyValues

/-- The entries of other keys, with a marker in front of the last `behind` of them. -/
def markedBefore (marker : KeyValue) (behind : Nat) (list : List KeyValue) : List KeyValue :=
  let others := remove marker.key list
  others.take (others.length - behind) ++ marker :: others.drop (others.length - behind)

/-- The marker comes between a list and an ending without its key. -/
theorem markedBefore_append {marker : KeyValue} {ending : List KeyValue}
    (h : marker.key ∉ keys ending) (list : List KeyValue) :
    markedBefore marker ending.length (list ++ ending) =
      remove marker.key list ++ marker :: ending := by
  have hothers : remove marker.key (list ++ ending) = remove marker.key list ++ ending := by
    rw [remove, List.filter_append, ← remove, ← remove, remove_of_not_mem h]
  simp [markedBefore, hothers]

/-- Without an ending, it comes last. -/
theorem markedBefore_zero (marker : KeyValue) (list : List KeyValue) :
    markedBefore marker 0 list = remove marker.key list ++ [marker] := by
  simp [markedBefore]

end KeyValues

open KeyValues

/-- A web mode leaves a marker alone, and puts its annotations behind it. -/
theorem WebMode.annotate_marked (mode : WebMode) {marker : KeyValue} (h : marker.key ∉ keys)
    (list : List KeyValue) :
    mode.annotate (remove marker.key list ++ [marker]) =
      markedBefore marker mode.annotations.length (mode.annotate list) := by
  have hstays : [marker].filter (fun kv => !keys.contains kv.key) = [marker] := by
    simpa [List.filter_cons] using h
  have hcomm : (remove marker.key list).filter (fun kv => !keys.contains kv.key) =
      remove marker.key (list.filter fun kv => !keys.contains kv.key) := by
    rw [remove, remove, List.filter_filter, List.filter_filter]
    exact List.filter_congr fun kv _ => Bool.and_comm _ _
  rw [annotate, List.filter_append, hstays, hcomm, List.append_assoc, annotate,
    markedBefore_append h]
  rfl

/-- An entity with a marker in front of its last annotations. -/
def Entity.markedBefore {σ : Type} [Entity σ] (marker : KeyValue) (behind : Nat) (s : σ) : σ :=
  Entity.withLists (Entity.parameters s)
    (KeyValues.markedBefore marker behind (Entity.annotations s)) s

/-! ## Marked documents -/

/-- How many annotations of an action tell of the web: those of the web mode, if the action is
exported. -/
def ActionSpec.webCount (spec : ActionSpec) : Nat :=
  if spec.webExport = "true" then WebMode.exported.annotations.length else 0

/-- The same for an action that a document declares. -/
def Manifest.webCount (m : Manifest) (package name : String) : Nat :=
  ((m.action? package name).map ActionSpec.webCount).getD 0

/-- **Puts a marker into all entities of a document.**  It comes last, but in front of the
annotations that tell of the web. -/
def EntityMaps.marking (m : Manifest) (marker : KeyValue) : EntityMaps where
  package := Entity.markedBefore marker 0
  action package name := Entity.markedBefore marker (m.webCount package name)
  sequence := Entity.markedBefore marker 0
  trigger := Entity.markedBefore marker 0

/-! ## Marked entities -/

namespace Context

variable {ctx : Context} (hctx : ctx.marker = none) {marker : KeyValue}

/-- The same context with a marker. -/
def marked (ctx : Context) (marker : KeyValue) : Context :=
  { ctx with settings := { ctx.settings with managed := true }, marker := some marker }

include hctx

/-- With a marker, annotations are what they are without, marked. -/
theorem mark_marked (list : List KeyValue) :
    (ctx.marked marker).mark list = markedBefore marker 0 (ctx.mark list) := by
  have hplain : ctx.mark list = list := by rw [mark, hctx]
  rw [hplain, markedBefore_zero]
  rfl

/-- In those of an action, the marker comes in front of the ones that tell of the web. -/
theorem annotationsFor_marked (hkey : marker.key = markerKey) (spec : ActionSpec) :
    (ctx.marked marker).annotationsFor spec =
      markedBefore marker spec.webCount (ctx.annotationsFor spec) := by
  have hweb : marker.key ∉ WebMode.keys := by
    rw [hkey]
    decide
  have hplain : ctx.mark (resolvedAnnotations ctx.vars spec.annotations) =
      resolvedAnnotations ctx.vars spec.annotations := by rw [mark, hctx]
  rw [annotationsFor, annotationsFor, ActionSpec.webCount]
  split
  · rw [hplain, ← WebMode.annotate_marked _ hweb]
    rfl
  · exact mark_marked hctx _

variable (m : Manifest) (t : FileTree)

/-- **What is composed with a marker** is what is composed without it, marked. -/
theorem adjusts_marked [Host] (hkey : marker.key = markerKey) :
    ctx.Adjusts (.marking m marker) m t (ctx.marked marker) where
  package name spec := by
    rw [composePackage_result, composePackage_result, mark_marked hctx, Functor.map_map]
    rfl
  action package name action haction := by
    have hcount : m.webCount package name = action.webCount := by
      rw [Manifest.webCount, haction]
      rfl
    have hrecord : ∀ loaded kind parameters,
        (ctx.marked marker).actionRecord package name action loaded kind parameters =
          (EntityMaps.marking m marker).action package name
            (ctx.actionRecord package name action loaded kind parameters) := by
      intro loaded kind parameters
      rw [actionRecord, annotationsFor_marked hctx hkey, ← hcount]
      rfl
    have hactionOf : ∀ loaded, ((ctx.marked marker).actionOf package name action loaded).result =
        (EntityMaps.marking m marker).action package name <$>
          (ctx.actionOf package name action loaded).result := by
      intro loaded
      rw [actionOf_result, actionOf_result]
      simp only [hrecord, map_bind, map_pure]
      rfl
    rw [composeAction_resultAt (P := Host.packer package name),
      composeAction_resultAt (P := Host.packer package name), map_bind]
    exact bind_congr hactionOf
  sequence package name spec := by
    rw [composeSequence_result, composeSequence_result, mark_marked hctx]
    rfl
  trigger name spec := by
    rw [composeTrigger_result, composeTrigger_result, mark_marked hctx, Functor.map_map]
    rfl
  rule _ _ _ := rfl
  routes _ _ := rfl
  dependencies := composeDependencies_congr rfl rfl

end Context

/-! ## Marked plans -/

/-- The annotations of an exported action end with those that tell of the web. -/
def EntityLaw.webLast : EntityLaw := .ofActions fun spec r =>
  spec.webExport = "true" → WebMode.exported.annotations <:+ r.action.annotations

/-- So they are composed. -/
theorem Context.followsAt_webLast [Host] (ctx : Context) (t : FileTree) :
    ctx.FollowsAt .webLast t := by
  refine followsAt_ofActions fun package name spec r h hweb => ?_
  obtain ⟨loaded, kind, parameters, -, -, -, -, rfl⟩ :=
    (composeAction_eq_ok_iff (P := Host.packer package name) ctx).mp h
  show _ <:+ ctx.annotationsFor spec
  rw [annotationsFor, if_pos hweb, WebMode.annotate]
  exact List.suffix_append _ _

namespace Manifest

/-- The marker of a document of a project exists if the document has a canonical text. -/
theorem marker_of_projectName {m : Manifest} {project : String}
    (hproject : m.projectName? = some project) :
    (m.canonicalText? = none → m.marker = .error .noCanonicalText) ∧
      ∀ text, m.canonicalText? = some text → ∃ marker, m.marker = .ok marker := by
  constructor
  · intro htext
    rw [marker, hproject, digest?, htext]
    rfl
  · intro text htext
    rw [marker, hproject, digest?, htext]
    exact ⟨_, rfl⟩

/-- **Managed mode** composes the document of a project as other modes do, and puts the marker
into the entities: last, but in front of the annotations that tell of the web.  If the document
has no canonical text, there is no marker, and nothing is composed.  This is so whatever is drawn
for the archives of directories, if both modes draw the same.

**Proof sketch.** Both plans are composed in a context, and the contexts differ only in the mode and
the marker.  What an entity becomes depends on the marker only by its annotations. -/
theorem composePlan_managed [Host] {m : Manifest} {project : String}
    (hproject : m.projectName? = some project) (settings : Settings) (vars : Variables)
    (t : FileTree) :
    (m.canonicalText? = none →
      (m.composePlan { settings with managed := true } vars).resultAt t =
        .error .noCanonicalText) ∧
    ∀ text, m.canonicalText? = some text →
      ∃ marker, m.marker = .ok marker ∧ marker.key = markerKey ∧
        (m.composePlan { settings with managed := true } vars).resultAt t =
          Plan.mapEntities (.marking m marker) <$>
            (m.composePlan { settings with managed := false } vars).resultAt t ∧
        ∀ plan, (m.composePlan { settings with managed := false } vars).resultAt t = .ok plan →
          plan.Obeys .webLast m vars := by
  have hmanaged : Context.ofManifest { settings with managed := true } vars m =
      m.marker.map fun marker =>
        ⟨{ settings with managed := true }, vars, m.path, some marker⟩ := rfl
  obtain ⟨hnone, hsome⟩ := marker_of_projectName hproject
  constructor
  case left =>
    intro htext
    rw [composePlan_eq_planIn, hmanaged, hnone htext]
    rfl
  case right =>
    intro text htext
    obtain ⟨marker, hmarker⟩ := hsome text htext
    have hkey : marker.key = markerKey := Context.marker_key hmarker
    let ctx : Context := ⟨{ settings with managed := false }, vars, m.path, none⟩
    have hplain : (m.composePlan { settings with managed := false } vars).resultAt t =
        m.planIn ctx t := by
      rw [composePlan_eq_planIn]
      rfl
    have hmarked : (m.composePlan { settings with managed := true } vars).resultAt t =
        m.planIn (ctx.marked marker) t := by
      rw [composePlan_eq_planIn, hmanaged, hmarker]
      rfl
    refine ⟨marker, hmarker, hkey, ?_, fun plan hplan => ?_⟩
    · rw [hmarked, hplain]
      exact planIn_mapEntities (Context.adjusts_marked rfl m t hkey)
    · exact composePlan_obeys hplan fun ctx _ => ctx.followsAt_webLast t

attribute [local instance] oneHost

/-- A document of a project with an action that is exported. -/
def shopText : String :=
  "project:\n  name: Shop\n  packages:\n    cart:\n      annotations:\n" ++
  "        whisk-managed: mine\n      actions:\n        show:\n          runtime: nodejs:6\n" ++
  "          web-export: 'true'\n"

/-- Whether a document of a project has a canonical text and a plan. -/
def hasTextAndPlan (m : Manifest) : Bool :=
  m.projectName? == some "Shop" && (m.canonicalText?.isSome &&
    ((m.composePlan {} {}).resultAt default).isOk)

/-- Its plan in managed mode is its plan otherwise, marked. -/
theorem composePlan_managed_shop :
    ∃ m marker plan, parse shopText = .ok m ∧ m.projectName? = some "Shop" ∧
      m.canonicalText?.isSome = true ∧ m.marker = .ok marker ∧ marker.key = markerKey ∧
      (m.composePlan { managed := false } {}).resultAt default = .ok plan ∧
      (m.composePlan { managed := true } {}).resultAt default =
        .ok (plan.mapEntities (.marking m marker)) ∧
      plan.Obeys .webLast m {} := by
  obtain ⟨m, hm, htest⟩ := Except.exists_of_any (r := parse shopText) (p := hasTextAndPlan)
    (by decide +kernel)
  simp only [hasTextAndPlan, Bool.and_eq_true, beq_iff_eq] at htest
  obtain ⟨hproject, htext, hplan⟩ := htest
  obtain ⟨text, hcanonical⟩ := Option.isSome_iff_exists.mp htext
  obtain ⟨plan, hplan⟩ := Except.exists_of_isOk hplan
  obtain ⟨marker, hmarker, hkey, hmanaged, hobeys⟩ :=
    (composePlan_managed hproject {} {} default).2 text hcanonical
  refine ⟨m, marker, plan, hm, hproject, htext, hmarker, hkey, hplan, ?_, hobeys plan hplan⟩
  rw [hmanaged]
  exact congrArg _ hplan

/-- A document of a project with a package that has no name, and so does not count, and that has
a mapping with a single key which is such a mapping. -/
def opaqueText : String :=
  "package:\n  inputs:\n    x:\n      ? \x7ba: 1\x7d\n      : 2\nproject:\n  name: Shop\n"

/-- **A document can have a plan and no plan in managed mode**, since it has no canonical text. -/
theorem composePlan_managed_fails :
    ∃ m plan, parse opaqueText = .ok m ∧ m.projectName? = some "Shop" ∧
      m.canonicalText? = none ∧
      (m.composePlan { managed := false } {}).resultAt default = .ok plan ∧
      (m.composePlan { managed := true } {}).resultAt default = .error .noCanonicalText := by
  obtain ⟨m, hm, htest⟩ := Except.exists_of_any (r := parse opaqueText)
    (p := fun m => m.projectName? == some "Shop" && (m.canonicalText?.isNone &&
      ((m.composePlan {} {}).resultAt default).isOk)) (by decide +kernel)
  simp only [Bool.and_eq_true, beq_iff_eq, Option.isNone_iff_eq_none] at htest
  obtain ⟨hproject, htext, hplan⟩ := htest
  obtain ⟨plan, hplan⟩ := Except.exists_of_isOk hplan
  have hmarker := (marker_of_projectName hproject).1 htext
  refine ⟨m, plan, hm, hproject, htext, hplan, ?_⟩
  rw [composePlan_eq_planIn, Context.ofManifest, if_pos rfl, hmarker]
  rfl

end Manifest

end DeployPlan
