import DeployPlan.Proofs.EntityMaps

/-!
# Plans in strict mode

The mode decides about one thing: what becomes of a declared runtime if the source of the action
is a file that suggests another family.  Whatever happens otherwise, failures and overrides
included, happens in both modes.

## Main definitions

* `ActionSpec.sourceIn` — the source of an action, as a tree has it.
* `DeployPlan.RuntimeMismatch`, `Manifest.mismatch?` — a declared runtime of another family than
  the source suggests.
* `EntityMaps.withKinds` — gives the actions of a document with such a runtime a kind.

## Main results

* `Source.mismatch?_eq_some_iff` — when a source and a declared runtime do not match.
* `decideRuntime_of_mismatch`, `decideRuntime_of_match` — the decisions that depend on the mode,
  and those that do not.
* `Manifest.composePlan_withKinds` — the plan of a document in either mode.
* `buildPlan_strict` — the same for plans from files.
-/

set_option autoImplicit false

namespace DeployPlan

/-! ## Mismatches -/

/-- A declared runtime of another family than a source file suggests. -/
structure RuntimeMismatch where
  declared : String
  family : RuntimeFamily

/-- The kind of runtime that an action with a mismatch gets: the declared one in strict mode, and
otherwise that of the source file. -/
def RuntimeMismatch.kind (x : RuntimeMismatch) (strict : Bool) : String :=
  if strict then x.declared else x.family.defaultKind

/-- The mismatch of a source and a declared runtime.  There is none unless the runtime is supported
and the source suggests a family. -/
def Source.mismatch? (source : Source) (declared : String) : Option RuntimeMismatch :=
  match source with
  | .stub | .archive => none
  | .file ext =>
    ((RuntimeFamily.ofExtension? ext).filter fun f =>
      RuntimeFamily.supports declared && !f.kinds.contains declared).map fun f => ⟨declared, f⟩

/-- **A source and a declared runtime do not match** if the source is a file with the extension of
one family, and the runtime a supported one of another. -/
theorem Source.mismatch?_eq_some_iff {source : Source} {declared : String} {x : RuntimeMismatch} :
    source.mismatch? declared = some x ↔
      ∃ ext, source = .file ext ∧ RuntimeFamily.ofExtension? ext = some x.family ∧
        x.declared = declared ∧ RuntimeFamily.supports declared = true ∧
        declared ∉ x.family.kinds := by
  cases source with
  | stub => simp [mismatch?]
  | archive => simp [mismatch?]
  | file ext =>
    simp only [mismatch?, Option.map_eq_some_iff, Option.filter_eq_some_iff, Bool.and_eq_true,
      Bool.not_eq_true', List.contains_eq_mem, decide_eq_false_iff_not, Source.file.injEq,
      exists_eq_left']
    constructor
    · rintro ⟨family, ⟨hext, hsupported, hkind⟩, rfl⟩
      exact ⟨hext, rfl, hsupported, hkind⟩
    · rintro ⟨hext, rfl, hsupported, hkind⟩
      exact ⟨x.family, ⟨hext, hsupported, hkind⟩, rfl⟩

example : ((Source.file "js").mismatch? "python:3").map (·.kind false) = some "nodejs:6" := by
  decide

/-- Over a mismatch, the mode decides. -/
theorem decideRuntime_of_mismatch {source : Source} {declared : String} {x : RuntimeMismatch}
    (h : source.mismatch? declared = some x) (strict : Bool) :
    decideRuntime source declared strict =
        (if strict then .declaredOverMismatch else .inferredOverMismatch) ∧
      source.inferred? = some x.family.defaultKind := by
  obtain ⟨ext, rfl, hext, -, hsupported, hkind⟩ := Source.mismatch?_eq_some_iff.mp h
  have hdefault : RuntimeFamily.defaultKind? ext = some x.family.defaultKind := by
    rw [RuntimeFamily.defaultKind?, hext]
    rfl
  have hconsistent : RuntimeFamily.isConsistent ext declared = false := by
    rw [RuntimeFamily.isConsistent, hext]
    simpa using hkind
  refine ⟨?_, hdefault⟩
  simp [decideRuntime, hsupported, hdefault, hconsistent]

/-- Without a mismatch, the mode does not count. -/
theorem decideRuntime_of_match {source : Source} {declared : String}
    (h : source.mismatch? declared = none) (strict : Bool) :
    decideRuntime source declared strict = decideRuntime source declared false := by
  cases source with
  | stub => rfl
  | archive => rfl
  | file ext =>
    rw [decideRuntime, decideRuntime]
    cases hsupported : RuntimeFamily.supports declared with
    | false => rfl
    | true =>
      cases hext : RuntimeFamily.ofExtension? ext with
      | none =>
        have hdefault : (RuntimeFamily.defaultKind? ext).isNone = true := by
          rw [RuntimeFamily.defaultKind?, hext]
          rfl
        simp [hdefault]
      | some family =>
        have hconsistent : RuntimeFamily.isConsistent ext declared = true := by
          rw [RuntimeFamily.isConsistent, hext]
          simpa [Source.mismatch?, hext, hsupported, Option.filter] using h
        simp [hconsistent]

/-! ## Sources -/

/-- The source of an action of a document in a directory, as a tree has it. -/
def ActionSpec.sourceIn (spec : ActionSpec) (directory : String) (t : FileTree) : Source :=
  let path := FilePath.join directory spec.source
  if spec.source.isEmpty then .stub
  else if t.isDirectory path then .archive
  else Context.fileSource (FilePath.extension path)

namespace Context

/-- What is found out about a directory that was packed is found out with its archive. -/
theorem exists_of_withDirectory [P : Packer] {α : Type} {name path : String}
    {spec : ActionSpec} {body : LoadedSource → Compose α} {t : FileTree} {a : α}
    (h : (withDirectory name path spec body).resultAt t = .ok a) :
    ∃ loaded t', loaded.source = .archive ∧ (body loaded).resultAt t' = .ok a := by
  rw [withDirectory] at h
  split at h
  · cases h
  · obtain ⟨archive, t', h⟩ := Archive.exists_of_pack h
    rw [Compose.resultAt_bind (Compose.leavesTree_looking _)] at h
    obtain ⟨code, -, h⟩ := Except.bind_eq_ok_iff.mp h
    rw [Compose.resultAt_liftM_bind] at h
    exact ⟨⟨path, .archive, code⟩, t', rfl, h⟩

/-- A file that was loaded is a source by its extension. -/
theorem source_of_loadFile {name path : String} {spec : ActionSpec} {t : FileTree}
    {s : LoadedSource} (h : (loadFile name path spec t).result = .ok s) :
    s.source = fileSource (FilePath.extension path) := by
  rw [loadFile] at h
  split at h
  · cases h
  · rw [Report.result_bind] at h
    obtain ⟨code, -, h⟩ := Except.bind_eq_ok_iff.mp h
    cases h
    rfl

/-- **The source that is found** is what the tree has. -/
theorem sourceOf_of_sourceAt [P : Packer] {ctx : Context} {name : String}
    {spec : ActionSpec} {t : FileTree} {loaded : Option LoadedSource}
    (h : ctx.sourceAt name spec t = .ok loaded) :
    sourceOf loaded = spec.sourceIn ctx.directory t := by
  rw [sourceAt, Compose.resultAt, withSource_apply] at h
  rw [ActionSpec.sourceIn]
  split at h
  case isTrue hempty =>
    rw [if_pos hempty]
    cases h
    rfl
  case isFalse hsource =>
    rw [if_neg hsource]
    split at h
    case isTrue hdirectory =>
      rw [if_pos hdirectory]
      obtain ⟨s, t', hs, h⟩ := exists_of_withDirectory h
      cases h
      exact hs
    case isFalse hfile =>
      rw [if_neg hfile]
      change Compose.resultAt _ t = _ at h
      rw [Compose.resultAt_bind (Compose.leavesTree_looking _)] at h
      obtain ⟨s, hs, h⟩ := Except.bind_eq_ok_iff.mp h
      cases h
      exact source_of_loadFile hs

end Context

/-! ## Kinds of runtime -/

/-- An action that runs in a runtime of a kind. -/
def ActionRecord.withKind (kind : String) (r : ActionRecord) : ActionRecord :=
  { r with action := { r.action with
      exec := some { r.action.exec.getD { kind := kind } with kind := kind } } }

/-- The directory of a document, from which sources are found. -/
def Manifest.directory (m : Manifest) : String := (FilePath.parent? m.path).getD ""

/-- The context of a document has its directory. -/
theorem Context.ofManifest_directory {settings : Settings} {vars : Variables} {m : Manifest}
    {ctx : Context} (h : ofManifest settings vars m = .ok ctx) : ctx.directory = m.directory :=
  congrArg (fun path => (FilePath.parent? path).getD "") (ofManifest_path h)

/-- The mismatch of an action that a document declares. -/
def Manifest.mismatch? (m : Manifest) (t : FileTree) (package name : String) :
    Option RuntimeMismatch :=
  (m.action? package name).bind fun spec =>
    (spec.sourceIn m.directory t).mismatch? spec.runtime

/-- **Gives the actions with a mismatch a kind of runtime.**  All others stay. -/
def EntityMaps.withKinds (m : Manifest) (t : FileTree) (kind : RuntimeMismatch → String) :
    EntityMaps where
  action package name r := (m.mismatch? t package name).elim r fun x => r.withKind (kind x)
  action_name package name r := by cases m.mismatch? t package name <;> rfl

/-- Kinds of runtime have nothing to do with parameters and annotations. -/
theorem EntityMaps.withKinds_leavesLists (m : Manifest) (t : FileTree)
    (kind : RuntimeMismatch → String) : (withKinds m t kind).LeavesLists where
  package := ⟨fun _ => rfl, fun _ => rfl, fun _ _ _ => rfl⟩
  action package name := by
    show Entity.LeavesLists fun r => (m.mismatch? t package name).elim r _
    cases m.mismatch? t package name with
    | none => exact ⟨fun _ => rfl, fun _ => rfl, fun _ _ _ => rfl⟩
    | some x => exact ⟨fun _ => rfl, fun _ => rfl, fun _ _ _ => rfl⟩
  trigger := ⟨fun _ => rfl, fun _ => rfl, fun _ _ _ => rfl⟩

namespace Context

variable (ctx : Context)

/-- The same context in another mode. -/
def withStrict (strict : Bool) : Context :=
  { ctx with settings := { ctx.settings with strict } }

/-- The kind of runtime depends on the mode if there is a mismatch. -/
theorem runtimeKind_withStrict (strict : Bool) (name declared : String)
    (loaded : Option LoadedSource) :
    ((ctx.withStrict strict).runtimeKind name declared loaded).result =
      match (sourceOf loaded).mismatch? declared with
      | some x => .ok (some (x.kind strict))
      | none => ((ctx.withStrict false).runtimeKind name declared loaded).result := by
  cases h : (sourceOf loaded).mismatch? declared with
  | none =>
    rw [runtimeKind, runtimeKind]
    dsimp only [withStrict]
    rw [decideRuntime_of_match h strict]
  | some x =>
    obtain ⟨hdecision, hinferred⟩ := decideRuntime_of_mismatch h strict
    obtain ⟨ext, -, -, hdeclared, hsupported, -⟩ := Source.mismatch?_eq_some_iff.mp h
    -- the empty kind is not supported, so a runtime was declared
    have hempty : declared.isEmpty = false := by
      cases hempty : declared.isEmpty with
      | false => rfl
      | true =>
        rw [String.isEmpty_iff.mp hempty] at hsupported
        cases hsupported
    show _ = Except.ok (some (x.kind strict))
    rw [runtimeKind, hempty, RuntimeMismatch.kind]
    dsimp only [withStrict]
    rw [hdecision, hinferred, hdeclared]
    cases strict <;> rfl

/-- An action is composed in either mode as it is without strictness, but for the kind of a
mismatched runtime. -/
theorem actionOf_withStrict (strict : Bool) (package name : String) (spec : ActionSpec)
    (loaded : Option LoadedSource) :
    ((ctx.withStrict strict).actionOf package name spec loaded).result =
      (fun r => ((sourceOf loaded).mismatch? spec.runtime).elim r fun x =>
        r.withKind (x.kind strict)) <$>
      ((ctx.withStrict false).actionOf package name spec loaded).result := by
  have hmode := runtimeKind_withStrict ctx strict name spec.runtime loaded
  have hlax := runtimeKind_withStrict ctx false name spec.runtime loaded
  rw [actionOf_result, actionOf_result]
  cases hx : (sourceOf loaded).mismatch? spec.runtime with
  | none =>
    rw [hx] at hmode
    rw [hmode]
    exact (id_map _).symm
  | some x =>
    rw [hx] at hmode hlax
    -- both records have a kind here, so that the change only replaces it
    have hrecord : ∀ parameters,
        (ctx.withStrict strict).actionRecord package name spec loaded (some (x.kind strict))
            parameters =
          ((ctx.withStrict false).actionRecord package name spec loaded (some (x.kind false))
            parameters).withKind (x.kind strict) := by
      intro parameters
      cases loaded <;> rfl
    simp only [hmode, hlax, Except.ok_bind, map_bind, map_pure, Option.elim_some, hrecord]
    rfl

variable {m : Manifest} (hdirectory : ctx.directory = m.directory) (t : FileTree)

include hdirectory

/-- **What is composed in either mode** is what is composed without strictness, up to the kinds of
mismatched runtimes.

**Proof sketch.** Only actions depend on the mode, by their kinds.  The source that an action is
composed from is the one that the tree has, and so the mismatch is that of the declaration. -/
theorem adjusts_withStrict [Host] (strict : Bool) :
    (ctx.withStrict false).Adjusts (.withKinds m t (·.kind strict)) m t
      (ctx.withStrict strict) where
  package _ _ := (id_map _).symm
  action package name spec haction := by
    let := Host.packer package name
    have hsource : (ctx.withStrict strict).sourceAt name spec t =
        (ctx.withStrict false).sourceAt name spec t := rfl
    rw [composeAction_resultAt, composeAction_resultAt, map_bind, hsource]
    -- without a source there is nothing to decide, and with one the mismatch is known
    cases hloaded : (ctx.withStrict false).sourceAt name spec t with
    | error failure => rfl
    | ok loaded =>
      have hmismatch : m.mismatch? t package name = (sourceOf loaded).mismatch? spec.runtime := by
        rw [sourceOf_of_sourceAt hloaded, Manifest.mismatch?, haction, ← hdirectory]
        rfl
      rw [Except.ok_bind, Except.ok_bind, actionOf_withStrict, ← hmismatch]
      rfl
  sequence _ _ _ := (id_map _).symm
  trigger _ _ := (id_map _).symm
  rule _ _ _ := rfl
  routes _ _ := rfl
  dependencies := composeDependencies_congr rfl rfl

omit hdirectory in
/-- The context of a document in another mode. -/
theorem ofManifest_withStrict (settings : Settings) (vars : Variables) (m : Manifest)
    (strict : Bool) :
    ofManifest { settings with strict } vars m =
      (·.withStrict strict) <$> ofManifest settings vars m := by
  rw [ofManifest, ofManifest]
  by_cases hmanaged : settings.managed = true
  · rw [if_pos hmanaged, if_pos hmanaged]
    cases m.marker <;> rfl
  · rw [if_neg hmanaged, if_neg hmanaged]
    rfl

end Context

/-! ## Plans -/

section Plans

variable (settings : Settings) (vars : Variables) (t : FileTree) (strict : Bool)

/-- **The plan of a document in either mode** is the one without strictness, up to the kinds of
mismatched runtimes. -/
theorem Manifest.composePlan_withKinds [Host] (m : Manifest) :
    (m.composePlan { settings with strict } vars).resultAt t =
      Plan.mapEntities (.withKinds m t (·.kind strict)) <$>
        (m.composePlan { settings with strict := false } vars).resultAt t := by
  rw [composePlan_eq_planIn, composePlan_eq_planIn,
    Context.ofManifest_withStrict settings vars m strict,
    Context.ofManifest_withStrict settings vars m false]
  cases hctx : Context.ofManifest settings vars m with
  | error failure => rfl
  | ok ctx =>
    exact planIn_mapEntities (ctx.adjusts_withStrict (Context.ofManifest_directory hctx) t strict)

/-- An override does not depend on the mode. -/
theorem Plan.revised_apply_strict (descriptor : Manifest) (plan : Plan) :
    (plan.revised (Override.apply { settings with strict } vars descriptor)).result =
      (plan.revised (Override.apply settings vars descriptor)).result := by
  rw [Plan.revised_apply_result, Plan.revised_apply_result]
  rfl

/-- The same for the plan of a manifest with a descriptor. -/
theorem buildPlan_withKinds [Host] (manifest : String) (deployment : Option String) {m : Manifest}
    (hm : (Manifest.load manifest).resultAt t = .ok m) :
    (buildPlan { settings with strict } vars manifest deployment).resultAt t =
      Plan.mapEntities (.withKinds m t (·.kind strict)) <$>
        (buildPlan { settings with strict := false } vars manifest deployment).resultAt t := by
  have hcompose := m.composePlan_withKinds settings vars t strict
  cases deployment with
  | none =>
    rw [buildPlan_none_resultAt, buildPlan_none_resultAt, hm, Except.ok_bind, hcompose]
    rfl
  | some path =>
    rw [buildPlan_some_resultAt, buildPlan_some_resultAt, hm, Except.ok_bind, Except.ok_bind,
      hcompose, bind_map_left, map_bind]
    refine bind_congr fun plan => ?_
    rw [map_bind]
    refine bind_congr fun descriptor => ?_
    have hleaves := EntityMaps.withKinds_leavesLists m t (·.kind strict)
    rw [Plan.revised_mapEntities hleaves, Plan.revised_apply_strict settings vars strict,
      Plan.revised_apply_strict settings vars false]

/-- **Strict mode** has the same outcome as other modes, up to the kinds of mismatched runtimes: a
mismatched action has the declared kind in strict mode, and otherwise the one that its source
file suggests.  This is so whatever is drawn for the archives of directories, if both modes draw
the same.

**Proof sketch.** Each action is composed in either mode as it is without strictness, up to the kind
of a mismatched runtime, and an override keeps kinds.  Without strictness, the plan is its own
image under this change, so that the kinds are those that the change gives. -/
theorem buildPlan_strict [Host] (manifest : String) (deployment : Option String) :
    (∃ failure,
      (buildPlan { settings with strict := true } vars manifest deployment).resultAt t =
        .error failure ∧
      (buildPlan { settings with strict := false } vars manifest deployment).resultAt t =
        .error failure) ∨
    ∃ m plan, (Manifest.load manifest).resultAt t = .ok m ∧
      (buildPlan { settings with strict := false } vars manifest deployment).resultAt t =
        .ok plan ∧
      (buildPlan { settings with strict := true } vars manifest deployment).resultAt t =
        .ok (plan.mapEntities (.withKinds m t (·.declared))) ∧
      ∀ package q name r x, plan.packages.get? package = some q → q.actions.get? name = some r →
        m.mismatch? t package name = some x →
          ∃ exec, r.action.exec = some exec ∧ exec.kind = x.family.defaultKind := by
  cases hm : (Manifest.load manifest).resultAt t with
  | error failure =>
    have hfails : ∀ settings : Settings,
        (buildPlan settings vars manifest deployment).resultAt t = .error failure := by
      intro settings
      cases deployment with
      | none =>
        rw [buildPlan_none_resultAt, hm]
        rfl
      | some path =>
        rw [buildPlan_some_resultAt, hm]
        rfl
    exact .inl ⟨failure, hfails _, hfails _⟩
  | ok m =>
    have hmodes := fun strict =>
      buildPlan_withKinds settings vars t strict manifest deployment hm
    cases hlax : (buildPlan { settings with strict := false } vars manifest deployment).resultAt t
      with
    | error failure =>
      refine .inl ⟨failure, ?_, rfl⟩
      rw [hmodes true, hlax]
      rfl
    | ok plan =>
      have hfixed : plan.mapEntities (.withKinds m t (·.kind false)) = plan := by
        have hsame := hmodes false
        rw [hlax] at hsame
        exact (Except.ok.inj hsame).symm
      refine .inr ⟨m, plan, rfl, rfl, ?_, ?_⟩
      · rw [hmodes true, hlax]
        rfl
      · intro package q name r x hq hr hx
        have hkind : r.withKind x.family.defaultKind = r := by
          have haction := Plan.action_eq_of_mapEntities_eq hfixed hq hr
          simp only [EntityMaps.withKinds, hx] at haction
          exact haction
        rw [← hkind]
        exact ⟨_, rfl, rfl⟩

end Plans

end DeployPlan
