import DeployPlan.Proofs.Compose.Build
import DeployPlan.Proofs.Compose.Declared
import DeployPlan.Proofs.Strict

/-!
# Well-formed plans

What the platform may rely on in a plan.  Everything is kept under its name and nothing is
published.  An action has code if it declares a source, in a supported runtime; no kind of runtime
is known only for a file that suggests none and whose declared runtime is not supported.  Limits
are those that were declared, and within bounds.  This holds of the plan of a document, and stays
so under overrides.

## Main definitions

* `ActionSpec.LacksRuntime` — nothing tells the runtime of an action.
* `Limits.Keeps` — the limits that are left of the declared ones.
* `ActionRecord.WellFormed`, `WellFormedSequence`, `PackagePlan.WellFormed`, `Plan.WellFormed` —
  an action, a sequence, a package and a plan as they are composed.

## Main results

* `Context.sourceAt_cases`, `runtimeKind_cases` — what is known of a source that was found, and of
  a kind of runtime that was decided on.
* `Context.composeAction_wellFormed` — actions are composed well-formed.
* `Manifest.composePlan_wellFormed`, `Plan.WellFormed.revised` — so are plans, and what an override
  may change leaves them well-formed.
* `Override.run_composePlan_wellFormed` — plans stay so, whatever overrides follow.
-/

set_option autoImplicit false

namespace DeployPlan

/-! ## Well-formed actions -/

/-- The path of the source of an action of a document in a directory. -/
def ActionSpec.pathIn (spec : ActionSpec) (directory : String) : String :=
  FilePath.join directory spec.source

/-- The source of an action is a single file, whose extension suggests no runtime, and the one that
is declared is not supported. -/
structure ActionSpec.LacksRuntime (spec : ActionSpec) (directory : String) (t : FileTree) :
    Prop where
  source : spec.source ≠ ""
  file : t.isFile (spec.pathIn directory) = true
  extension : FilePath.extension (spec.pathIn directory) ≠ zipExtension
  family : RuntimeFamily.ofExtension? (FilePath.extension (spec.pathIn directory)) = none
  declared : spec.runtime ≠ ""
  unsupported : RuntimeFamily.supports spec.runtime = false

/-- A limit that is kept is the declared one, and within its bounds. -/
def LimitBounds.Keeps (b : LimitBounds) (declared kept : Option Int) : Prop :=
  ∀ n, kept = some n → declared = some n ∧ b.least ≤ n ∧ n ≤ b.greatest

/-- Limits of which at least one is left, with nothing but declared ones within their bounds. -/
structure Limits.Keeps (declared : LimitsSpec) (l : Limits) : Prop where
  nonempty : l.isEmpty = false
  timeout : LimitBounds.timeout.Keeps declared.timeout l.timeout
  memory : LimitBounds.memory.Keeps declared.memorySize l.memory
  logs : LimitBounds.logs.Keeps declared.logSize l.logs

/-- What an action runs, as its declaration has it. -/
structure ActionSpec.Runs (spec : ActionSpec) (directory : String) (t : FileTree)
    (run : Option Exec) : Prop where
  /-- The kind of runtime is supported, or empty if there is none. -/
  kind : ∀ exec, run = some exec →
    (RuntimeFamily.supports exec.kind = true ∧ ¬ spec.LacksRuntime directory t) ∨
      (exec.kind = "" ∧ spec.LacksRuntime directory t)
  /-- There is code if a source is declared. -/
  code : (∃ exec text, run = some exec ∧ exec.code = some text) ↔ spec.source ≠ ""
  /-- Without a source, there is something to run if the declared runtime is supported. -/
  stub : spec.source = "" → (run.isSome = true ↔ RuntimeFamily.supports spec.runtime = true)

/-- An action as it is composed from its declaration, for a document in a directory. -/
structure ActionRecord.WellFormed (directory : String) (t : FileTree) (package name : String)
    (spec : ActionSpec) (r : ActionRecord) : Prop where
  placed : r.packageName = package
  named : r.action.name = name
  publish : r.action.publish = false
  exec : spec.Runs directory t r.action.exec
  limits : ∀ limits, r.action.limits = some limits →
    ∃ declared, spec.limits = some declared ∧ limits.Keeps declared

/-- A sequence as it is composed. -/
structure ActionRecord.WellFormedSequence (package name : String) (r : ActionRecord) : Prop where
  placed : r.packageName = package
  named : r.action.name = name
  publish : r.action.publish = false
  exec : ∃ exec, r.action.exec = some exec ∧ exec.kind = "sequence" ∧ exec.code = none
  limits : r.action.limits = none

/-- A package as it is composed from its declaration, with its actions and sequences. -/
structure PackagePlan.WellFormed (directory : String) (t : FileTree) (name : String)
    (spec : PackageSpec) (q : PackagePlan) : Prop where
  named : q.package.name = name
  publish : q.package.publish = false
  actions : KeyMap.RelAt (ActionRecord.WellFormed directory t name) spec.actions q.actions
  sequences : KeyMap.RelAt (fun sequence _ r => r.WellFormedSequence name sequence)
    spec.sequences q.sequences

/-- A plan as it is composed from a document. -/
structure Plan.WellFormed (m : Manifest) (t : FileTree) (plan : Plan) : Prop where
  packages : KeyMap.RelAt (PackagePlan.WellFormed m.directory t) m.resolved plan.packages
  triggers : ∀ name x, plan.triggers.get? name = some x → x.name = name ∧ x.publish = false
  rules : ∀ name x, plan.rules.get? name = some x → x.name = name ∧ x.publish = false

/-! ## Overrides -/

/-- Other parameters and annotations leave an action well-formed. -/
theorem ActionRecord.WellFormed.revised {directory : String} {t : FileTree}
    {package name : String} {spec : ActionSpec} {r r' : ActionRecord}
    (h : r.WellFormed directory t package name spec) (hr : Entity.Revised r r') :
    r'.WellFormed directory t package name spec := by
  rw [hr.rest]
  exact ⟨h.placed, h.named, h.publish, h.exec, h.limits⟩

/-- The same for a package with its actions. -/
theorem PackagePlan.WellFormed.revised {directory : String} {t : FileTree} {name : String}
    {spec : PackageSpec} {q q' : PackagePlan} (h : q.WellFormed directory t name spec)
    (hq : q.Revised q') : q'.WellFormed directory t name spec where
  named := by
    rw [hq.package.rest]
    exact h.named
  publish := by
    rw [hq.package.rest]
    exact h.publish
  actions := h.actions.trans (fun _ _ _ _ hr hr' => hr.revised hr') hq.actions
  sequences := hq.sequences ▸ h.sequences

/-- **What an override may change** leaves a plan well-formed. -/
theorem Plan.WellFormed.revised {m : Manifest} {t : FileTree} {p p' : Plan}
    (h : p.WellFormed m t) (hp : p.Revised p') : p'.WellFormed m t where
  packages := h.packages.trans (fun _ _ _ _ hq hq' => hq.revised hq') hp.packages
  triggers name x' hx' := by
    obtain ⟨x, hx, hrevised⟩ := hp.triggers.get?_right hx'
    rw [hrevised.rest]
    exact h.triggers name x hx
  rules := hp.rules ▸ h.rules

/-! ## Kinds of runtime -/

/-- The kind that an extension suggests is supported. -/
theorem RuntimeFamily.supports_of_defaultKind? {ext kind : String}
    (h : defaultKind? ext = some kind) : supports kind = true := by
  obtain ⟨family, hfamily, rfl⟩ := Option.map_eq_some_iff.mp h
  obtain ⟨e, -, hfind⟩ := Option.bind_eq_some_iff.mp hfamily
  have hall : ∀ family ∈ all, supports family.defaultKind = true := by decide
  exact hall family (List.mem_of_find?_eq_some hfind)

/-- The kind that a source suggests is supported. -/
theorem Source.supports_of_inferred? {source : Source} {kind : String}
    (h : source.inferred? = some kind) : RuntimeFamily.supports kind = true := by
  cases source with
  | stub => cases h
  | archive => cases h
  | file ext => exact RuntimeFamily.supports_of_defaultKind? h

/-- A supported runtime is kept, unless the source suggests another. -/
theorem decideRuntime_of_supported {declared : String}
    (h : RuntimeFamily.supports declared = true) (source : Source) (strict : Bool) :
    decideRuntime source declared strict = .declared ∨
    decideRuntime source declared strict = .declaredOverMismatch ∨
    (decideRuntime source declared strict = .inferredOverMismatch ∧
      ∃ kind, source.inferred? = some kind) := by
  cases source with
  | stub => simp [decideRuntime, h]
  | archive => simp [decideRuntime, h]
  | file ext =>
    rw [decideRuntime, h, Source.inferred?]
    cases RuntimeFamily.defaultKind? ext with
    | none => simp
    | some kind => cases RuntimeFamily.isConsistent ext declared <;> cases strict <;> simp

/-- An unsupported runtime gives way to the kind that the source suggests; an archive suggests
none. -/
theorem decideRuntime_of_unsupported {declared : String}
    (h : RuntimeFamily.supports declared = false) (source : Source) (strict : Bool) :
    decideRuntime source declared strict =
      if source = .archive then .invalid else .inferredOverUnsupported := by
  cases source <;> simp [decideRuntime, h]

/-! ## Files and directories -/

namespace FileTree

variable {t : FileTree} {path : String}

/-- What can be read is a file. -/
theorem isFile_of_read {bytes : ByteArray} (h : t.read path = .ok bytes) :
    t.isFile path = true := by
  rw [read] at h
  rw [isFile]
  split at h <;> simp_all

/-- A file is no directory. -/
theorem isDirectory_of_isFile (h : t.isFile path = true) : t.isDirectory path = false := by
  rw [isFile] at h
  rw [isDirectory]
  split at h <;> simp_all

end FileTree

namespace Context

variable {ctx : Context} {package name : String} {spec : ActionSpec} {t : FileTree}

/-- With a supported runtime declared, the kind that was decided on is the declared one, or the one
that the source suggests. -/
theorem runtimeKind_of_supported {declared : String} {loaded : Option LoadedSource}
    {kind : Option String} (hsupported : RuntimeFamily.supports declared = true)
    (h : (ctx.runtimeKind name declared loaded).result = .ok kind) :
    ∃ k, kind = some k ∧ (k = declared ∨ (sourceOf loaded).inferred? = some k) := by
  have hempty : declared.isEmpty = false := by
    cases hempty : declared.isEmpty with
    | false => rfl
    | true =>
      rw [String.isEmpty_iff.mp hempty] at hsupported
      cases hsupported
  rw [runtimeKind, hempty, if_neg Bool.false_ne_true] at h
  obtain hd | hd | ⟨hd, k, hk⟩ :=
    decideRuntime_of_supported hsupported (sourceOf loaded) ctx.settings.strict
  · rw [hd] at h
    cases h
    exact ⟨declared, rfl, .inl rfl⟩
  · rw [hd] at h
    cases h
    exact ⟨declared, rfl, .inl rfl⟩
  · rw [hd] at h
    cases h
    exact ⟨k, hk, .inr hk⟩

/-- Without a supported runtime declared, it is what the source suggests.  The source is no archive
then, unless nothing was declared. -/
theorem runtimeKind_of_unsupported {declared : String} {loaded : Option LoadedSource}
    {kind : Option String} (hunsupported : RuntimeFamily.supports declared = false)
    (h : (ctx.runtimeKind name declared loaded).result = .ok kind) :
    kind = (sourceOf loaded).inferred? ∧ (declared = "" ∨ sourceOf loaded ≠ .archive) := by
  rw [runtimeKind] at h
  cases hempty : declared.isEmpty with
  | true =>
    obtain rfl := String.isEmpty_iff.mp hempty
    cases h
    exact ⟨rfl, .inl rfl⟩
  | false =>
    rw [hempty, if_neg Bool.false_ne_true, decideRuntime_of_unsupported hunsupported] at h
    by_cases harchive : sourceOf loaded = .archive
    · rw [if_pos harchive] at h
      cases h
    · rw [if_neg harchive] at h
      cases h
      exact ⟨rfl, .inr harchive⟩

/-- **A kind of runtime that was decided on** is supported, and either declared or suggested by the
source.  There is none if the source suggests none and the declared one is not supported; the
source is no archive then, unless nothing was declared. -/
theorem runtimeKind_cases {declared : String} {loaded : Option LoadedSource}
    {kind : Option String} (h : (ctx.runtimeKind name declared loaded).result = .ok kind) :
    (∃ k, kind = some k ∧ RuntimeFamily.supports k = true ∧
      (k = declared ∨ (sourceOf loaded).inferred? = some k)) ∨
    (kind = none ∧ (sourceOf loaded).inferred? = none ∧
      RuntimeFamily.supports declared = false ∧
      (declared = "" ∨ sourceOf loaded ≠ .archive)) := by
  cases hsupported : RuntimeFamily.supports declared with
  | true =>
    obtain ⟨k, hkind, hk⟩ := runtimeKind_of_supported hsupported h
    refine .inl ⟨k, hkind, ?_, hk⟩
    rcases hk with rfl | hinferred
    · exact hsupported
    · exact Source.supports_of_inferred? hinferred
  | false =>
    obtain ⟨rfl, hsure⟩ := runtimeKind_of_unsupported hsupported h
    cases hinferred : (sourceOf loaded).inferred? with
    | none => exact .inr ⟨rfl, rfl, rfl, hsure⟩
    | some k => exact .inl ⟨k, rfl, Source.supports_of_inferred? hinferred, .inr rfl⟩

/-! ## Sources -/

/-- A file that was loaded is there, and may do without a declared runtime if its extension
suggests one. -/
theorem loadFile_cases {path : String} {s : LoadedSource}
    (h : (loadFile name path spec t).result = .ok s) :
    t.isFile path = true ∧ s.source = fileSource (FilePath.extension path) ∧
      (spec.runtime = "" → fileFault? (FilePath.extension path) = none) := by
  have hsource := source_of_loadFile h
  rw [loadFile] at h
  split at h
  case h_1 => cases h
  case h_2 hfault =>
    rw [Report.result_bind, Code.load] at h
    cases hread : t.read path with
    | error fault =>
      rw [hread] at h
      cases h
    | ok bytes =>
      refine ⟨FileTree.isFile_of_read hread, hsource, ?_⟩
      intro hruntime
      rw [hruntime] at hfault
      exact hfault

/-- **A source that was found** is a directory or a file, and if no runtime is declared, then a
file whose extension suggests one. -/
theorem sourceAt_cases [P : Packer] {loaded : Option LoadedSource}
    (h : ctx.sourceAt name spec t = .ok loaded) :
    (spec.source = "" ∧ loaded = none) ∨
    ∃ s, spec.source ≠ "" ∧ loaded = some s ∧
      ((t.isDirectory (spec.pathIn ctx.directory) = true ∧ s.source = .archive ∧
          spec.runtime ≠ "") ∨
        (t.isFile (spec.pathIn ctx.directory) = true ∧
          s.source = fileSource (FilePath.extension (spec.pathIn ctx.directory)) ∧
          (spec.runtime = "" →
            fileFault? (FilePath.extension (spec.pathIn ctx.directory)) = none))) := by
  rw [sourceAt, Compose.resultAt, withSource_apply] at h
  split at h
  case isTrue hempty =>
    cases h
    exact .inl ⟨String.isEmpty_iff.mp hempty, rfl⟩
  case isFalse hsource =>
    rw [String.isEmpty_iff] at hsource
    split at h
    case isTrue hdirectory =>
      have hruntime : spec.runtime ≠ "" := by
        intro hruntime
        rw [withDirectory, hruntime] at h
        cases h
      obtain ⟨s, t', hs, h⟩ := exists_of_withDirectory h
      cases h
      exact .inr ⟨s, hsource, rfl, .inl ⟨hdirectory, hs, hruntime⟩⟩
    case isFalse =>
      change Compose.resultAt _ t = _ at h
      rw [Compose.resultAt_bind (Compose.leavesTree_looking _)] at h
      obtain ⟨s, hs, h⟩ := Except.bind_eq_ok_iff.mp h
      cases h
      exact .inr ⟨s, hsource, rfl, .inr (loadFile_cases hs)⟩

/-! ## Composed actions -/

/-- A file may do without a declared runtime if it is no archive and its extension suggests one. -/
theorem fileFault?_eq_none_iff {ext : String} :
    fileFault? ext = none ↔ ext ≠ zipExtension ∧ RuntimeFamily.defaultKind? ext ≠ none := by
  rw [fileFault?]
  by_cases hzip : ext = zipExtension
  · simp [hzip]
  · simp [hzip]

/-- An action with a source has no kind of runtime only if nothing tells it. -/
theorem lacksRuntime_of_kind_eq_none [P : Packer] {s : LoadedSource}
    (hloaded : ctx.sourceAt name spec t = .ok (some s))
    (hkind : (ctx.runtimeKind name spec.runtime (some s)).result = .ok none) :
    spec.LacksRuntime ctx.directory t := by
  obtain ⟨-, hnone⟩ | ⟨s', hsource, hs', hfound⟩ := sourceAt_cases hloaded
  · cases hnone
  cases hs'
  obtain ⟨k, hk, -⟩ | ⟨-, hinferred, hunsupported, hsure⟩ := runtimeKind_cases hkind
  · cases hk
  change s.source.inferred? = none at hinferred
  change spec.runtime = "" ∨ s.source ≠ .archive at hsure
  obtain ⟨-, harchive, hruntime⟩ | ⟨hfile, hs, hfault⟩ := hfound
  · exact absurd harchive (hsure.resolve_left hruntime)
  rw [fileFault?_eq_none_iff] at hfault
  have hzip : FilePath.extension (spec.pathIn ctx.directory) ≠ zipExtension := by
    intro hzip
    rw [fileSource, if_pos hzip] at hs
    exact (hfault (hsure.resolve_right (not_not_intro hs))).1 hzip
  rw [hs, fileSource, if_neg hzip, Source.inferred?] at hinferred
  refine ⟨hsource, hfile, hzip, ?_, fun hruntime => ?_, hunsupported⟩
  · rw [RuntimeFamily.defaultKind?, Option.map_eq_none_iff] at hinferred
    exact hinferred
  · exact (hfault hruntime).2 hinferred

/-- If nothing tells it, it has none. -/
theorem kind_eq_none_of_lacksRuntime [P : Packer] {s : LoadedSource} {kind : Option String}
    (hlacks : spec.LacksRuntime ctx.directory t)
    (hloaded : ctx.sourceAt name spec t = .ok (some s))
    (hkind : (ctx.runtimeKind name spec.runtime (some s)).result = .ok kind) : kind = none := by
  obtain ⟨-, hnone⟩ | ⟨s', -, hs', hfound⟩ := sourceAt_cases hloaded
  · cases hnone
  cases hs'
  obtain ⟨k, -, hsupported, hk⟩ | ⟨hnone, -⟩ := runtimeKind_cases hkind
  case inr => exact hnone
  exfalso
  obtain ⟨hdirectory, -⟩ | ⟨-, hs, -⟩ := hfound
  · rw [FileTree.isDirectory_of_isFile hlacks.file] at hdirectory
    cases hdirectory
  rcases hk with rfl | hinferred
  · rw [hlacks.unsupported] at hsupported
    cases hsupported
  · change s.source.inferred? = some k at hinferred
    rw [hs, fileSource, if_neg hlacks.extension, Source.inferred?, RuntimeFamily.defaultKind?,
      hlacks.family] at hinferred
    cases hinferred

/-- **An action with a source has no kind of runtime** if and only if nothing tells it. -/
theorem kind_eq_none_iff [P : Packer] {s : LoadedSource} {kind : Option String}
    (hloaded : ctx.sourceAt name spec t = .ok (some s))
    (hkind : (ctx.runtimeKind name spec.runtime (some s)).result = .ok kind) :
    kind = none ↔ spec.LacksRuntime ctx.directory t := by
  constructor
  · rintro rfl
    exact lacksRuntime_of_kind_eq_none hloaded hkind
  · exact fun hlacks => kind_eq_none_of_lacksRuntime hlacks hloaded hkind

/-- What an action runs has a kind of runtime if one is told, and code if there is a source. -/
theorem runs_exec? [P : Packer] {loaded : Option LoadedSource} {kind : Option String}
    (hloaded : ctx.sourceAt name spec t = .ok loaded)
    (hkind : (ctx.runtimeKind name spec.runtime loaded).result = .ok kind) :
    spec.Runs ctx.directory t (exec? loaded kind spec.main) := by
  have hkinds := runtimeKind_cases hkind
  obtain ⟨hsource, rfl⟩ | ⟨s, hsource, rfl, -⟩ := sourceAt_cases hloaded
  · -- without a source, only a supported runtime is left to run
    have hlacks : ¬ spec.LacksRuntime ctx.directory t := fun h => h.source hsource
    obtain ⟨k, rfl, hsupported, hk⟩ | ⟨rfl, -, hunsupported, -⟩ := hkinds
    · obtain rfl : k = spec.runtime := hk.resolve_right fun hk => by cases hk
      constructor <;> simp [exec?, hsource, hsupported, hlacks]
    · constructor <;> simp [exec?, hsource, hunsupported]
  · have hnone := kind_eq_none_iff hloaded hkind
    obtain ⟨k, rfl, hsupported, -⟩ | ⟨rfl, -⟩ := hkinds
    · have hlacks : ¬ spec.LacksRuntime ctx.directory t := fun h => by cases hnone.mpr h
      constructor <;> simp [exec?, hsource, hsupported, hlacks]
    · constructor <;> simp [exec?, hsource, hnone.mp rfl]

/-- A limit that is kept was checked. -/
theorem keeps_check (b : LimitBounds) (declared : Option Int) :
    b.Keeps declared (b.check declared).kept? := by
  intro n hn
  cases declared with
  | none => cases hn
  | some value =>
    rw [LimitBounds.check] at hn
    split at hn
    case isTrue hbounds =>
      cases hn
      exact ⟨rfl, hbounds⟩
    case isFalse => cases hn

/-- **Actions are composed well-formed.** -/
theorem composeAction_wellFormed [P : Packer] {r : ActionRecord}
    (h : (ctx.composeAction package name spec).resultAt t = .ok r) :
    r.WellFormed ctx.directory t package name spec := by
  obtain ⟨loaded, kind, parameters, hloaded, hkind, -, -, rfl⟩ :=
    (composeAction_eq_ok_iff ctx).mp h
  refine ⟨rfl, rfl, rfl, runs_exec? hloaded hkind, ?_⟩
  intro limits hlimits
  obtain ⟨declared, hdeclared, hkept⟩ := Option.bind_eq_some_iff.mp hlimits
  obtain ⟨hkept, hnonempty⟩ := Option.filter_eq_some_iff.mp hkept
  cases hkept
  refine ⟨declared, hdeclared, ?_, keeps_check _ _, keeps_check _ _, keeps_check _ _⟩
  simpa using hnonempty

/-- So are sequences. -/
theorem composeSequence_wellFormed {spec : SequenceSpec} {r : ActionRecord}
    (h : (ctx.composeSequence package name spec).result = .ok r) :
    r.WellFormedSequence package name := by
  rw [composeSequence_result] at h
  cases h
  exact ⟨rfl, rfl, rfl, ⟨_, rfl, rfl, rfl⟩, rfl⟩

end Context

/-! ## Composed plans -/

/-- Entities have their names and are not published, and actions and sequences are well-formed. -/
def EntityLaw.wellFormed (directory : String) (t : FileTree) : EntityLaw where
  package name _ p := p.name = name ∧ p.publish = false
  action package name spec r := r.WellFormed directory t package name spec
  sequence package name _ r := r.WellFormedSequence package name
  trigger name _ x := x.name = name ∧ x.publish = false
  dependency _ _ := True

/-- What is composed over a tree is well-formed. -/
theorem Context.followsAt_wellFormed [Host] (ctx : Context) (t : FileTree) :
    ctx.FollowsAt (.wellFormed ctx.directory t) t where
  package name spec p h := by
    rw [composePackage_result] at h
    obtain ⟨parameters, -, rfl⟩ := Except.map_eq_ok_iff.mp h
    exact ⟨rfl, rfl⟩
  action package name _ _ := composeAction_wellFormed (P := Host.packer package name)
  sequence _ _ _ _ := composeSequence_wellFormed
  trigger name spec x h := by
    rw [composeTrigger_result] at h
    obtain ⟨parameters, -, rfl⟩ := Except.map_eq_ok_iff.mp h
    exact ⟨rfl, rfl⟩
  dependency _ _ _ _ _ := trivial

section Plans

variable [Host] {m : Manifest} {settings : Settings} {vars : Variables} {t : FileTree}
  {plan : Plan}

/-- A rule of a plan was composed, and is kept under its name. -/
theorem Manifest.composePlan_rule (h : (m.composePlan settings vars).resultAt t = .ok plan)
    {name : String} {x : Rule} (hx : plan.rules.get? name = some x) :
    x.name = name ∧ ∃ ctx : Context, ∃ package rule spec,
      (ctx.composeRule package rule spec).result = .ok x := by
  obtain ⟨ctx, parts, -, hparts, rfl⟩ := composePlan_eq_ok_iff.mp h
  obtain ⟨x', hmem, he⟩ := List.mem_map.mp (KeyMap.mem_of_get?_ofList hx)
  cases he
  obtain ⟨d, -, hd⟩ := exists_of_forall₂ (Context.forall₂_rules hparts) hmem
  exact ⟨rfl, ctx, d.1, d.2.1, d.2.2, hd⟩

/-- **The plan of a document** is well-formed. -/
theorem Manifest.composePlan_wellFormed
    (h : (m.composePlan settings vars).resultAt t = .ok plan) : plan.WellFormed m t := by
  have hobeys : plan.Obeys (.wellFormed m.directory t) m vars :=
    composePlan_obeys h fun ctx hctx =>
      Context.ofManifest_directory hctx ▸ ctx.followsAt_wellFormed t
  constructor
  case packages =>
    exact hobeys.packages.imp fun _ _ _ hq =>
      ⟨hq.package.1, hq.package.2, hq.actions, hq.sequences⟩
  case triggers =>
    intro name x hx
    obtain ⟨_, -, hlaw⟩ := hobeys.triggers.get?_right hx
    exact hlaw
  case rules =>
    intro name x hx
    obtain ⟨hname, ctx, package, rule, spec, hcomposed⟩ := composePlan_rule h hx
    rw [Context.composeRule_result] at hcomposed
    cases hcomposed
    exact ⟨hname, rfl⟩

/-- **Whatever overrides follow**, and whether they fail or not, the plan of a document stays
well-formed.

**Proof sketch.** An action is well-formed because of what is found out on the way about its source
and its runtime; an override changes neither what an action runs nor its limits, and no name. -/
theorem Override.run_composePlan_wellFormed
    (h : (m.composePlan settings vars).resultAt t = .ok plan) (calls : List Call) :
    (run calls plan).WellFormed m t :=
  (Manifest.composePlan_wellFormed h).revised (run_revised calls plan)

end Plans

attribute [local instance] onePacker oneHost

/-- An action in an unknown runtime, whose source is a file that suggests none; one of its limits is
out of bounds. -/
def rustAction : ActionSpec where
  function := "pay.rs"
  runtime := "rust:1.34"
  limits := some { timeout := some 50, memorySize := some 256 }

/-- A package of this action and another without a source. -/
def rustPackage : PackageSpec where
  actions := .ofList [("pay", rustAction), ("refund", { runtime := "nodejs:8" })]
  sequences := .single "buy" { actions := "pay, refund" }
  triggers := .single "tick" {}
  rules := .single "hourly" { trigger := "tick", action := "pay" }

/-- A document of this package. -/
def Manifest.rustManifest : Manifest where
  packages := .single "shop" rustPackage

/-- A tree with the source of the action. -/
def rustTree : FileTree := .ofTexts [("pay.rs", "fn main() \x7b\x7d")]

/-- The source of the action is the name of a file. -/
theorem isName_rustAction : FileTree.IsName rustAction.source := by decide +kernel

/-- The document has a plan. -/
theorem Manifest.exists_composePlan_rustManifest :
    ∃ plan, (rustManifest.composePlan {} {}).resultAt rustTree = .ok plan := by
  refine exists_composePlan_iff.mpr ⟨_, Context.ofManifest_unmanaged rfl _ _, fun e he => ?_⟩
  obtain rfl := List.mem_singleton.mp he
  have hloaded : (⟨{}, {}, "", none⟩ : Context).sourceAt "pay" rustAction rustTree = .ok _ :=
    Context.sourceAt_ofTexts rfl rfl isName_rustAction rfl (by decide +kernel)
  have hpay : (Context.composeAction _ "shop" "pay" rustAction).resultAt rustTree = .ok _ :=
    (Context.composeAction_eq_ok_iff _).mpr ⟨_, _, _, hloaded, rfl, rfl, ⟨_, rfl⟩, rfl⟩
  have hactions : (Context.composeActions _ "shop" rustPackage).resultAt rustTree = .ok [_, _] :=
    Context.composeActions_eq_ok_iff.mpr (.cons hpay (.cons rfl .nil))
  exact ⟨⟨_, _, _, _, _, _, _⟩, rfl, hactions, rfl, rfl, rfl, rfl, rfl⟩

/-- The plan stays well-formed, although the override fails at the action. -/
theorem Override.rustManifest_stays_wellFormed :
    rustAction.LacksRuntime Manifest.rustManifest.directory rustTree ∧
    ∃ plan, (Manifest.rustManifest.composePlan {} {}).resultAt rustTree = .ok plan ∧
      (run [⟨{}, {}, shopDescriptor⟩] plan).WellFormed Manifest.rustManifest rustTree := by
  have hfile : rustTree.isFile rustAction.source = true := by
    rw [FileTree.isFile, rustTree, FileTree.resolve_ofTexts isName_rustAction rfl]
  obtain ⟨plan, hplan⟩ := Manifest.exists_composePlan_rustManifest
  have hlacks : rustAction.LacksRuntime Manifest.rustManifest.directory rustTree :=
    ⟨by decide, hfile, by decide +kernel, by decide +kernel, by decide, by decide⟩
  refine ⟨hlacks, plan, hplan, ?_⟩
  exact run_composePlan_wellFormed hplan [⟨{}, {}, shopDescriptor⟩]

end DeployPlan
