import DeployPlan.Proofs.Code
import DeployPlan.Proofs.WellFormed

/-!
# What becomes of an action

Composing an action is a run of checks: its source is found, its runtime is reconciled with the
source, and its inputs and outputs are resolved.  The first check that fails tells why the action
cannot be composed, and there is no other reason.

## Main definitions

* `Context.packedCode`, `ActionSpec.codeIn` — the code of a directory, and that of any source.
* `Context.FirstUnresolvable` — the first of some parameters that has no value.
* `Context.SourceFails`, `Context.ActionFails` — why the source of an action, and an action, cannot
  be had.
* `ActionSpec.KeepsRuntime`, `ActionSpec.Executes` — whether the declared runtime is taken, and what
  an action that was composed runs.

## Main results

* `Context.parameters_eq_error_iff` — parameters fail with the first that has no value.
* `Context.sourceAndKind_eq_error_iff` — the source and the runtime of an action fail as told.
* `Context.composeAction_outcome` — so does an action; if none of the checks fails, it is composed.
-/

set_option autoImplicit false

namespace DeployPlan

/-! ## Parameters -/

/-- What stands before an entry of a map are the entries with lesser keys. -/
theorem KeyMap.mem_front_iff {α : Type} {m : KeyMap α} {front back : List (String × α)}
    {e e' : String × α} (h : m.entries = front ++ e :: back) :
    e' ∈ front ↔ m.get? e'.1 = some e'.2 ∧ e'.1 < e.1 := by
  have hsorted := m.sorted
  rw [h, Entries.Sorted, List.pairwise_append, List.pairwise_cons] at hsorted
  obtain ⟨-, ⟨hback, -⟩, hfront⟩ := hsorted
  rw [← KeyMap.mem_entries_iff, h, List.mem_append, List.mem_cons]
  constructor
  · exact fun hmem => ⟨.inl hmem, hfront e' hmem e List.mem_cons_self⟩
  · rintro ⟨hmem | rfl | hmem, hlt⟩
    · exact hmem
    · exact absurd hlt (String.lt_irrefl _)
    · exact absurd (String.lt_trans hlt (hback e' hmem)) (String.lt_irrefl _)

/-- What cannot be resolved is told with the name of the parameter and the path of the document. -/
theorem ParamSpec.exists_fault_of_resolve {vars : Variables} {path name : String}
    {spec : ParamSpec} {failure : Failure}
    (h : (spec.resolve vars path name).result = .error failure) :
    ∃ fault, failure = .parameter name path fault := by
  have hfault : ∀ {α : Type} {r : Except ParameterFault α},
      (Report.ofExcept (r.mapError (Failure.parameter name path))).result = .error failure →
        ∃ fault, failure = .parameter name path fault := by
    intro α r hr
    cases r with
    | ok a => cases hr
    | error fault => exact ⟨fault, (Except.error.inj hr).symm⟩
  cases spec with
  | literal v => cases h
  | declared d =>
    simp only [resolve, ParamDeclaration.resolve, Report.result_bind,
      Except.bind_eq_error_iff] at h
    obtain h | ⟨type, -, h⟩ := h
    · exact hfault h
    · split at h
      · obtain h | ⟨raw, -, h⟩ := Except.bind_eq_error_iff.mp (Report.result_bind .. ▸ h)
        · cases h
        · exact hfault h
      · exact hfault h

/-! ## Sources by their paths -/

namespace ActionSpec

/-- The extension of the source of an action of a document in a directory. -/
abbrev extensionIn (spec : ActionSpec) (directory : String) : String :=
  FilePath.extension (spec.pathIn directory)

/-- Where an action starts, if that is declared. -/
def entryPoint? (spec : ActionSpec) : Option String :=
  if spec.main.isEmpty then none else some spec.main

/-- An action has a source, and it is a directory. -/
def IsDirectoryIn (spec : ActionSpec) (directory : String) (t : FileTree) : Prop :=
  spec.source ≠ "" ∧ t.isDirectory (spec.pathIn directory) = true

/-- An action has a source, and it is no directory: it counts as a file, whether or not it is
there. -/
def IsFileIn (spec : ActionSpec) (directory : String) (t : FileTree) : Prop :=
  spec.source ≠ "" ∧ t.isDirectory (spec.pathIn directory) = false

end ActionSpec

/-- With a source of some sort, a declared runtime is taken if it is supported; if the source is a
file, then unless its extension suggests a family of others, or if that does not count. -/
def Source.Keeps (source : Source) (declared : String) (strict : Bool) : Prop :=
  RuntimeFamily.supports declared = true ∧
    match source with
    | .stub | .archive => True
    | .file ext =>
      (∃ family, RuntimeFamily.ofExtension? ext = some family ∧ declared ∈ family.kinds) ∨
        RuntimeFamily.ofExtension? ext = none ∨ strict = true

namespace Context

/-- The first parameter, in the order of names, that has no value, and why. -/
def FirstUnresolvable (ctx : Context) (specs : KeyMap ParamSpec) (failure : Failure) : Prop :=
  ∃ name spec fault, specs.get? name = some spec ∧
    failure = .parameter name ctx.path fault ∧
    (spec.resolve ctx.vars ctx.path name).result = .error failure ∧
    ∀ name' spec', specs.get? name' = some spec' → name' < name →
      ∃ v, (spec'.resolve ctx.vars ctx.path name').result = .ok v

/-- **Parameters fail with the first that has no value.** -/
theorem parameters_eq_error_iff {ctx : Context} {specs : KeyMap ParamSpec} {failure : Failure} :
    (ctx.parameters specs).result = .error failure ↔ ctx.FirstUnresolvable specs failure := by
  have hentry : ∀ e : String × ParamSpec,
      (do return (← e.2.resolve ctx.vars ctx.path e.1).map (KeyValue.mk e.1) :
        Report (Option KeyValue)).result =
      (fun v : Option Json => v.map (KeyValue.mk e.1)) <$>
        (e.2.resolve ctx.vars ctx.path e.1).result := fun e => by
    rw [Report.result_bind]
    exact Except.bind_ok_eq_map _ _
  have hkept : ∀ resolved : List (Option KeyValue),
      (pure (resolved.filterMap id) : Report (List KeyValue)).result ≠ .error failure := nofun
  rw [parameters, resolveParams, Report.result_bind, Report.result_mapM, Except.bind_eq_error_iff]
  simp only [hentry, Except.mapM_eq_error_iff, Except.map_eq_error_iff, hkept, and_false,
    exists_false, or_false]
  constructor
  · rintro ⟨front, ⟨name, spec⟩, back, hentries, hfront, herror⟩
    obtain ⟨fault, hfault⟩ := spec.exists_fault_of_resolve herror
    have hget : specs.get? name = some spec := KeyMap.mem_entries_iff.mp (hentries ▸ by simp)
    refine ⟨name, spec, fault, hget, hfault, herror, fun name' spec' hget' hlt => ?_⟩
    obtain ⟨_, hv⟩ := hfront (name', spec') ((KeyMap.mem_front_iff hentries).mpr ⟨hget', hlt⟩)
    obtain ⟨v, hv, -⟩ := Except.map_eq_ok_iff.mp hv
    exact ⟨v, hv⟩
  · rintro ⟨name, spec, fault, hget, -, herror, hbefore⟩
    obtain ⟨front, back, hentries⟩ := List.append_of_mem (KeyMap.mem_entries_iff.mpr hget)
    refine ⟨front, (name, spec), back, hentries, fun e he => ?_, herror⟩
    obtain ⟨hget', hlt⟩ := (KeyMap.mem_front_iff hentries).mp he
    obtain ⟨v, hv⟩ := hbefore e.1 e.2 hget' hlt
    exact ⟨_, Except.map_eq_ok_iff.mpr ⟨v, hv, rfl⟩⟩

/-! ## Sources -/

/-- The code of a directory: its archive is written, and loaded again. -/
def packedCode [P : Packer] (path : String) (t : FileTree) : Except Failure Code :=
  (Archive.pack path fun archive =>
    Compose.looking fun t => Code.load t archive zipExtension).resultAt t

/-- No place for an archive is found if the directory for it cannot be read or written. -/
theorem choose_fault [P : Packer] {t : FileTree} {dir : String} {failure : Failure}
    (h : ScratchFile.choose t dir = .error failure) :
    ∃ path fault, failure = .unreadableSource path fault := by
  rw [ScratchFile.choose] at h
  split at h
  · split at h
    · exact ⟨_, _, (Except.error.inj h).symm⟩
    · dsimp only at h
      split at h
      · exact ⟨_, _, (Except.error.inj h).symm⟩
      · cases h
  · exact ⟨_, _, (Except.error.inj h).symm⟩
  · exact ⟨_, _, (Except.error.inj h).symm⟩

/-- An entry is not added to an archive if it cannot be copied, or if its name is taken. -/
theorem addMember_fault [P : Packer] {s : ScratchFile} {dir : String} {here : List String}
    {es : List Zip.Entry} {member : List String × FileEntry} {failure : Failure}
    (h : (Archive.addMember s dir here es member).result = .error failure) :
    (∃ path fault, failure = .unreadableSource path fault) ∨ failure = .duplicateName s.path := by
  rw [Archive.addMember] at h
  split at h
  · cases h
  split at h
  · exact .inr (Except.error.inj h).symm
  split at h
  · exact .inl ⟨_, _, (Except.error.inj h).symm⟩
  · cases h

/-- An archive has no entries if something in the directory cannot be read, or if two of them would
have one name. -/
theorem entriesAt_fault [P : Packer] {t : FileTree} {dir : String} {s : ScratchFile}
    {failure : Failure} (h : (Archive.entriesAt t dir s).result = .error failure) :
    (∃ path fault, failure = .unreadableSource path fault) ∨ failure = .duplicateName s.path := by
  have hfold : ∀ here members es,
      (List.foldlM (Archive.addMember s dir here) es members).result = .error failure →
        (∃ path fault, failure = .unreadableSource path fault) ∨
          failure = .duplicateName s.path := by
    intro here members
    induction members with
    | nil => nofun
    | cons member members ih =>
      intro es h
      rw [List.foldlM_cons, Report.result_bind, Except.bind_eq_error_iff] at h
      obtain h | ⟨es', -, h⟩ := h
      · exact addMember_fault h
      · exact ih es' h
  rw [Archive.entriesAt] at h
  split at h
  · split at h
    · exact .inl ⟨_, _, (Except.error.inj h).symm⟩
    · rw [Report.result_bind, Except.bind_eq_error_iff] at h
      obtain h | ⟨es, -, h⟩ := h
      · exact hfold _ _ _ h
      · cases h
  · exact .inl ⟨_, _, (Except.error.inj h).symm⟩
  · exact .inl ⟨_, _, (Except.error.inj h).symm⟩

/-- The code of a directory is not had if something in it, or beside it, cannot be read or written,
or if two entries of its archive would have one name. -/
theorem packedCode_fault [P : Packer] {path : String} {t : FileTree} {failure : Failure}
    (h : packedCode path t = .error failure) :
    (∃ path fault, failure = .unreadableSource path fault) ∨
      ∃ path, failure = .duplicateName path := by
  rw [packedCode, Compose.resultAt, Archive.pack_apply] at h
  cases hchoose : ScratchFile.choose t path with
  | error fault =>
    rw [hchoose] at h
    obtain rfl := Except.error.inj h
    exact .inl (choose_fault hchoose)
  | ok s =>
    rw [hchoose] at h
    dsimp only at h
    rcases hentries : Archive.entriesAt (s.addTo t Packer.found) path s with ⟨events, fault | es⟩
    · rw [hentries] at h
      obtain rfl := Except.error.inj h
      exact (entriesAt_fault (by rw [hentries])).imp_right fun hname => ⟨_, hname⟩
    · rw [hentries] at h
      obtain ⟨fault, -, rfl⟩ := Code.load_eq_error_iff.mp h
      exact .inl ⟨_, _, rfl⟩

/-- What goes on with a directory goes on with its code, if a runtime is declared. -/
theorem withDirectory_resultAt [P : Packer] {α : Type} (name path : String) (spec : ActionSpec)
    (f : LoadedSource → Report α) (t : FileTree) :
    (withDirectory name path spec fun loaded => Compose.ofReport (f loaded)).resultAt t =
      if spec.runtime = "" then .error (.runtime .missingForDirectory path name noRuntime)
      else packedCode path t >>= fun code => (f ⟨path, .archive, code⟩).result := by
  rw [withDirectory]
  by_cases hruntime : spec.runtime = ""
  · rw [if_pos hruntime, if_pos (String.isEmpty_iff.mpr hruntime)]
    rfl
  · rw [if_neg hruntime, if_neg (mt String.isEmpty_iff.mp hruntime), packedCode]
    have hlog : ∀ code : Code,
        ((liftM (Report.log .debug ("packed action " ++ name ++ " from " ++ path)) :
          Compose Unit) >>= fun _ => Compose.ofReport (f ⟨path, .archive, code⟩)) =
        Compose.ofReport (Report.log .debug ("packed action " ++ name ++ " from " ++ path) >>=
          fun _ => f ⟨path, .archive, code⟩) := fun code => rfl
    simp only [hlog]
    rw [Archive.pack_bind_resultAt]
    simp only [Report.result_bind, Report.result_log, Except.ok_bind]

/-- Where the source of an action is found, and as what. -/
theorem sourceAt_eq [P : Packer] (ctx : Context) (name : String) (spec : ActionSpec)
    (t : FileTree) :
    ctx.sourceAt name spec t =
      if spec.source = "" then .ok none
      else if t.isDirectory (spec.pathIn ctx.directory) then
        if spec.runtime = "" then
          .error (.runtime .missingForDirectory (spec.pathIn ctx.directory) name noRuntime)
        else (fun code => some ⟨spec.pathIn ctx.directory, .archive, code⟩) <$>
          packedCode (spec.pathIn ctx.directory) t
      else some <$> (loadFile name (spec.pathIn ctx.directory) spec t).result := by
  rw [sourceAt, Compose.resultAt, withSource_apply, ActionSpec.pathIn]
  by_cases hsource : spec.source = ""
  · rw [if_pos hsource, if_pos (String.isEmpty_iff.mpr hsource)]
    rfl
  rw [if_neg hsource, if_neg (mt String.isEmpty_iff.mp hsource)]
  split
  · exact (withDirectory_resultAt name _ spec (fun loaded => pure (some loaded)) t).trans
      (by rw [← Except.bind_ok_eq_map]; rfl)
  · rw [← Except.bind_ok_eq_map]
    exact Compose.resultAt_bind (Compose.leavesTree_looking _) _ t

/-! ## Reasons to fail -/

/-- **Why the source of an action, or a runtime for it, cannot be had**, in the order of the checks:
for a directory, that a runtime is declared, that it is packed and loaded, and that the runtime is
supported; for a file, that a runtime is declared or suggested, that it can be read, and that the
runtime is supported if the file is an archive. -/
inductive SourceFails [P : Packer] (ctx : Context) (name : String) (spec : ActionSpec)
    (t : FileTree) : Failure → Prop
  | directoryWithoutRuntime (h : spec.IsDirectoryIn ctx.directory t)
      (hruntime : spec.runtime = "") :
      SourceFails ctx name spec t
        (.runtime .missingForDirectory (spec.pathIn ctx.directory) name noRuntime)
  | unpacked {failure : Failure} (h : spec.IsDirectoryIn ctx.directory t)
      (hruntime : spec.runtime ≠ "")
      (hpack : packedCode (spec.pathIn ctx.directory) t = .error failure) :
      SourceFails ctx name spec t failure
  | directoryUnsupported {code : Code} (h : spec.IsDirectoryIn ctx.directory t)
      (hruntime : spec.runtime ≠ "")
      (hpack : packedCode (spec.pathIn ctx.directory) t = .ok code)
      (hunsupported : RuntimeFamily.supports spec.runtime = false) :
      SourceFails ctx name spec t
        (.runtime .notSupported (spec.pathIn ctx.directory) name spec.runtime)
  | zipWithoutRuntime (h : spec.IsFileIn ctx.directory t) (hruntime : spec.runtime = "")
      (hzip : spec.extensionIn ctx.directory = zipExtension) :
      SourceFails ctx name spec t
        (.runtime .missingForZip (spec.pathIn ctx.directory) name noRuntime)
  | undiscovered (h : spec.IsFileIn ctx.directory t) (hruntime : spec.runtime = "")
      (hzip : spec.extensionIn ctx.directory ≠ zipExtension)
      (hfamily : RuntimeFamily.ofExtension? (spec.extensionIn ctx.directory) = none) :
      SourceFails ctx name spec t
        (.runtime .notDiscovered (spec.pathIn ctx.directory) name noRuntime)
  | unreadable {fault : FileFault} (h : spec.IsFileIn ctx.directory t)
      (hruntime : spec.runtime = "" → spec.extensionIn ctx.directory ≠ zipExtension ∧
        RuntimeFamily.ofExtension? (spec.extensionIn ctx.directory) ≠ none)
      (hread : t.read (spec.pathIn ctx.directory) = .error fault) :
      SourceFails ctx name spec t (.unreadableSource (spec.pathIn ctx.directory) fault)
  | zipUnsupported {bytes : ByteArray} (h : spec.IsFileIn ctx.directory t)
      (hruntime : spec.runtime ≠ "") (hzip : spec.extensionIn ctx.directory = zipExtension)
      (hread : t.read (spec.pathIn ctx.directory) = .ok bytes)
      (hunsupported : RuntimeFamily.supports spec.runtime = false) :
      SourceFails ctx name spec t
        (.runtime .notSupported (spec.pathIn ctx.directory) name spec.runtime)

/-- **Why an action cannot be composed**, in the order of the checks: its source and its runtime,
its inputs, and its outputs. -/
inductive ActionFails [P : Packer] (ctx : Context) (name : String) (spec : ActionSpec)
    (t : FileTree) : Failure → Prop
  | source {failure : Failure} (h : ctx.SourceFails name spec t failure) :
      ActionFails ctx name spec t failure
  | input {failure : Failure} (hsource : ∀ f, ¬ ctx.SourceFails name spec t f)
      (h : ctx.FirstUnresolvable spec.inputs failure) : ActionFails ctx name spec t failure
  | output {failure : Failure} (hsource : ∀ f, ¬ ctx.SourceFails name spec t f)
      (hinputs : ∀ f, ¬ ctx.FirstUnresolvable spec.inputs f)
      (h : ctx.FirstUnresolvable spec.outputs failure) : ActionFails ctx name spec t failure

/-- A declared runtime is refused if it is not supported and the source is an archive. -/
theorem runtimeKind_eq_error_iff {ctx : Context} {name declared : String}
    {loaded : Option LoadedSource} {failure : Failure} :
    (ctx.runtimeKind name declared loaded).result = .error failure ↔
      declared ≠ "" ∧ RuntimeFamily.supports declared = false ∧ sourceOf loaded = .archive ∧
        failure = .runtime .notSupported ((loaded.map (·.path)).getD "") name declared := by
  rw [runtimeKind]
  by_cases hempty : declared = ""
  · simp [hempty, pure]
  rw [if_neg (mt String.isEmpty_iff.mp hempty)]
  cases hsupported : RuntimeFamily.supports declared with
  | true =>
    obtain hd | hd | ⟨hd, -⟩ :=
      decideRuntime_of_supported hsupported (sourceOf loaded) ctx.settings.strict <;> simp [hd]
  | false =>
    by_cases harchive : sourceOf loaded = .archive
    · simp [decideRuntime_of_unsupported hsupported, harchive, hempty, eq_comm]
    · simp [decideRuntime_of_unsupported hsupported, harchive]

/-- A file is no source if a runtime is needed. -/
theorem loadFile_of_fault {name path : String} {spec : ActionSpec} {fault : RuntimeFault}
    (hruntime : spec.runtime = "") (h : fileFault? (FilePath.extension path) = some fault)
    (t : FileTree) :
    (loadFile name path spec t).result = .error (.runtime fault path name noRuntime) := by
  rw [loadFile, if_pos (String.isEmpty_iff.mpr hruntime), h]
  rfl

/-- If none is, a file has the result of loading its code. -/
theorem loadFile_of_no_fault {name path : String} {spec : ActionSpec}
    (h : spec.runtime = "" → fileFault? (FilePath.extension path) = none) (t : FileTree) :
    (loadFile name path spec t).result =
      (fun code => ⟨path, fileSource (FilePath.extension path), code⟩) <$>
        (Code.load t path (FilePath.extension path)).result := by
  have hnone : (if spec.runtime.isEmpty then fileFault? (FilePath.extension path) else none) =
      none := by
    split
    next hempty => exact h (String.isEmpty_iff.mp hempty)
    next => rfl
  rw [loadFile, hnone]
  dsimp only
  rw [Report.result_bind]
  exact Except.bind_ok_eq_map _ _

/-- Without a declared runtime, a file is no source if its extension suggests none. -/
theorem fileFault?_eq_some_iff {ext : String} {fault : RuntimeFault} :
    fileFault? ext = some fault ↔
      (ext = zipExtension ∧ fault = .missingForZip) ∨
        (ext ≠ zipExtension ∧ RuntimeFamily.ofExtension? ext = none ∧ fault = .notDiscovered) := by
  rw [fileFault?]
  by_cases hzip : ext = zipExtension
  · simp [hzip, eq_comm (a := fault)]
  · simp [hzip, RuntimeFamily.defaultKind?, eq_comm (a := fault)]

/-- It is one if its extension suggests one. -/
theorem fileFault?_eq_none {ext : String}
    (h : ext ≠ zipExtension ∧ RuntimeFamily.ofExtension? ext ≠ none) : fileFault? ext = none :=
  fileFault?_eq_none_iff.mpr ⟨h.1, fun hnone => h.2 (Option.map_eq_none_iff.mp hnone)⟩

/-- A file is an archive by its extension. -/
theorem fileSource_eq_archive_iff {ext : String} :
    fileSource ext = .archive ↔ ext = zipExtension := by
  rw [fileSource]
  split <;> simp [*]

/-- Parameters have values if none of them fails. -/
theorem exists_parameters_iff {ctx : Context} {specs : KeyMap ParamSpec} :
    (∃ parameters, (ctx.parameters specs).result = .ok parameters) ↔
      ∀ f, ¬ ctx.FirstUnresolvable specs f := by
  simp only [← parameters_eq_error_iff]
  cases (ctx.parameters specs).result <;> simp

/-- The source of an action, with the kind of runtime that it gets. -/
def sourceAndKind [P : Packer] (ctx : Context) (name : String) (spec : ActionSpec) (t : FileTree) :
    Except Failure (Option LoadedSource × Option String) := do
  let loaded ← ctx.sourceAt name spec t
  let kind ← (ctx.runtimeKind name spec.runtime loaded).result
  return (loaded, kind)

section Failures

variable [P : Packer] {ctx : Context} {name : String} {spec : ActionSpec} {t : FileTree}
  {failure : Failure}

/-- A directory is found if it is packed, and nothing else is asked of it. -/
theorem sourceAt_of_directory (h : spec.IsDirectoryIn ctx.directory t)
    (hruntime : spec.runtime ≠ "") :
    ctx.sourceAt name spec t = (fun code => some ⟨spec.pathIn ctx.directory, .archive, code⟩) <$>
      packedCode (spec.pathIn ctx.directory) t := by
  rw [sourceAt_eq, if_neg h.1, if_pos h.2, if_neg hruntime]

/-- A file is found if it is loaded. -/
theorem sourceAt_of_file (h : spec.IsFileIn ctx.directory t) :
    ctx.sourceAt name spec t =
      some <$> (loadFile name (spec.pathIn ctx.directory) spec t).result := by
  rw [sourceAt_eq, if_neg h.1, if_neg (by rw [h.2]; exact Bool.false_ne_true)]

/-- A file that is no source fails as told. -/
theorem sourceFails_of_loadFile (hfile : spec.IsFileIn ctx.directory t)
    (h : (loadFile name (spec.pathIn ctx.directory) spec t).result = .error failure) :
    ctx.SourceFails name spec t failure := by
  by_cases hfault : spec.runtime = "" → fileFault? (spec.extensionIn ctx.directory) = none
  · rw [loadFile_of_no_fault hfault, Except.map_eq_error_iff, Code.load_eq_error_iff] at h
    obtain ⟨fault, hread, rfl⟩ := h
    refine .unreadable hfile (fun hruntime => ?_) hread
    obtain ⟨hzip, hfamily⟩ := fileFault?_eq_none_iff.mp (hfault hruntime)
    exact ⟨hzip, fun hnone => hfamily (Option.map_eq_none_iff.mpr hnone)⟩
  · obtain ⟨hruntime, hsome⟩ := Classical.not_imp.mp hfault
    obtain ⟨fault, hsome⟩ := Option.ne_none_iff_exists'.mp hsome
    rw [loadFile_of_fault hruntime hsome] at h
    obtain rfl := Except.error.inj h
    obtain ⟨hzip, rfl⟩ | ⟨hzip, hfamily, rfl⟩ := fileFault?_eq_some_iff.mp hsome
    · exact .zipWithoutRuntime hfile hruntime hzip
    · exact .undiscovered hfile hruntime hzip hfamily

/-- A source that is not found fails as told. -/
theorem sourceFails_of_sourceAt (h : ctx.sourceAt name spec t = .error failure) :
    ctx.SourceFails name spec t failure := by
  by_cases hsource : spec.source = ""
  · rw [sourceAt_eq, if_pos hsource] at h
    cases h
  cases hdirectory : t.isDirectory (spec.pathIn ctx.directory) with
  | false =>
    rw [sourceAt_of_file ⟨hsource, hdirectory⟩, Except.map_eq_error_iff] at h
    exact sourceFails_of_loadFile ⟨hsource, hdirectory⟩ h
  | true =>
    by_cases hruntime : spec.runtime = ""
    · rw [sourceAt_eq, if_neg hsource, if_pos hdirectory, if_pos hruntime] at h
      obtain rfl := Except.error.inj h
      exact .directoryWithoutRuntime ⟨hsource, hdirectory⟩ hruntime
    · rw [sourceAt_of_directory ⟨hsource, hdirectory⟩ hruntime, Except.map_eq_error_iff] at h
      exact .unpacked ⟨hsource, hdirectory⟩ hruntime h

/-- **A source that was found** is a directory that was packed, or a file that was read. -/
theorem found_of_sourceAt {s : LoadedSource} (h : ctx.sourceAt name spec t = .ok (some s)) :
    s.path = spec.pathIn ctx.directory ∧
      ((spec.IsDirectoryIn ctx.directory t ∧ spec.runtime ≠ "" ∧ s.source = .archive ∧
          packedCode (spec.pathIn ctx.directory) t = .ok s.code) ∨
        (spec.IsFileIn ctx.directory t ∧
          (spec.runtime = "" → fileFault? (spec.extensionIn ctx.directory) = none) ∧
          s.source = fileSource (spec.extensionIn ctx.directory) ∧
          (Code.load t (spec.pathIn ctx.directory) (spec.extensionIn ctx.directory)).result =
            .ok s.code)) := by
  by_cases hsource : spec.source = ""
  · rw [sourceAt_eq, if_pos hsource] at h
    cases h
  cases hdirectory : t.isDirectory (spec.pathIn ctx.directory) with
  | false =>
    rw [sourceAt_of_file ⟨hsource, hdirectory⟩] at h
    obtain ⟨_, hloaded, hsome⟩ := Except.map_eq_ok_iff.mp h
    obtain rfl := Option.some.inj hsome
    have hs := source_of_loadFile hloaded
    have hfault : spec.runtime = "" → fileFault? (spec.extensionIn ctx.directory) = none := by
      by_contra hfault
      obtain ⟨hruntime, hsome⟩ := Classical.not_imp.mp hfault
      obtain ⟨fault, hsome⟩ := Option.ne_none_iff_exists'.mp hsome
      rw [loadFile_of_fault hruntime hsome] at hloaded
      cases hloaded
    rw [loadFile_of_no_fault hfault] at hloaded
    obtain ⟨code, hcode, rfl⟩ := Except.map_eq_ok_iff.mp hloaded
    exact ⟨rfl, .inr ⟨⟨hsource, hdirectory⟩, hfault, hs, hcode⟩⟩
  | true =>
    by_cases hruntime : spec.runtime = ""
    · rw [sourceAt_eq, if_neg hsource, if_pos hdirectory, if_pos hruntime] at h
      cases h
    · rw [sourceAt_of_directory ⟨hsource, hdirectory⟩ hruntime] at h
      obtain ⟨code, hcode, hs⟩ := Except.map_eq_ok_iff.mp h
      cases hs
      exact ⟨rfl, .inl ⟨⟨hsource, hdirectory⟩, hruntime, rfl, hcode⟩⟩

/-- A runtime that is refused fails as told. -/
theorem sourceFails_of_runtimeKind {loaded : Option LoadedSource}
    (hloaded : ctx.sourceAt name spec t = .ok loaded)
    (h : (ctx.runtimeKind name spec.runtime loaded).result = .error failure) :
    ctx.SourceFails name spec t failure := by
  obtain ⟨hruntime, hunsupported, harchive, rfl⟩ := runtimeKind_eq_error_iff.mp h
  obtain _ | s := loaded
  · cases harchive
  change s.source = .archive at harchive
  show ctx.SourceFails name spec t (.runtime .notSupported s.path name spec.runtime)
  obtain ⟨hpath, ⟨hdirectory, -, -, hpack⟩ | ⟨hfile, -, hsource, hload⟩⟩ :=
    found_of_sourceAt hloaded
  · rw [hpath]
    exact .directoryUnsupported hdirectory hruntime hpack hunsupported
  · obtain ⟨bytes, hread, -⟩ := Code.load_eq_ok_iff.mp hload
    rw [hpath]
    exact .zipUnsupported hfile hruntime (fileSource_eq_archive_iff.mp (hsource ▸ harchive)) hread
      hunsupported

/-- **The source and the runtime of an action fail as told**, and for no other reason.

**Proof sketch.** What is not found fails as told (`sourceFails_of_sourceAt`), and so does a runtime
that is refused (`sourceFails_of_runtimeKind`); each of the reasons makes the source, or the
runtime, fail. -/
theorem sourceAndKind_eq_error_iff :
    ctx.sourceAndKind name spec t = .error failure ↔ ctx.SourceFails name spec t failure := by
  have hkind : ctx.sourceAndKind name spec t = .error failure ↔
      ctx.sourceAt name spec t = .error failure ∨
        ∃ loaded, ctx.sourceAt name spec t = .ok loaded ∧
          (ctx.runtimeKind name spec.runtime loaded).result = .error failure := by
    simp only [sourceAndKind, Except.bind_eq_error_iff, pure, Except.pure, reduceCtorEq, and_false,
      exists_false, or_false]
  rw [hkind]
  constructor
  · rintro (h | ⟨loaded, hloaded, h⟩)
    · exact sourceFails_of_sourceAt h
    · exact sourceFails_of_runtimeKind hloaded h
  · intro h
    cases h with
    | directoryWithoutRuntime h hruntime =>
      left
      rw [sourceAt_eq, if_neg h.1, if_pos h.2, if_pos hruntime]
    | unpacked h hruntime hpack =>
      left
      rw [sourceAt_of_directory h hruntime, hpack]
      rfl
    | @directoryUnsupported code h hruntime hpack hunsupported =>
      refine .inr ⟨some ⟨spec.pathIn ctx.directory, .archive, code⟩, ?_,
        runtimeKind_eq_error_iff.mpr ⟨hruntime, hunsupported, rfl, rfl⟩⟩
      rw [sourceAt_of_directory h hruntime, hpack]
      rfl
    | zipWithoutRuntime h hruntime hzip =>
      left
      rw [sourceAt_of_file h, loadFile_of_fault hruntime
        (fileFault?_eq_some_iff.mpr (.inl ⟨hzip, rfl⟩))]
      rfl
    | undiscovered h hruntime hzip hfamily =>
      left
      rw [sourceAt_of_file h, loadFile_of_fault hruntime
        (fileFault?_eq_some_iff.mpr (.inr ⟨hzip, hfamily, rfl⟩))]
      rfl
    | unreadable h hruntime hread =>
      left
      have hfault : spec.runtime = "" → fileFault? (spec.extensionIn ctx.directory) = none :=
        fun hempty => fileFault?_eq_none (hruntime hempty)
      rw [sourceAt_of_file h, loadFile_of_no_fault hfault,
        Code.load_eq_error_iff.mpr ⟨_, hread, rfl⟩]
      rfl
    | @zipUnsupported bytes h hruntime hzip hread hunsupported =>
      refine .inr ⟨some ⟨spec.pathIn ctx.directory, .archive,
        Code.ofBytes (spec.extensionIn ctx.directory) bytes⟩, ?_,
        runtimeKind_eq_error_iff.mpr ⟨hruntime, hunsupported, rfl, rfl⟩⟩
      rw [sourceAt_of_file h, loadFile_of_no_fault fun hempty => absurd hempty hruntime,
        Code.load_eq_ok_iff.mpr ⟨_, hread, rfl⟩, fileSource_eq_archive_iff.mpr hzip]
      rfl

/-- What is found of an action, if nothing fails. -/
theorem exists_sourceAndKind_iff :
    (∃ found, ctx.sourceAndKind name spec t = .ok found) ↔
      ∀ f, ¬ ctx.SourceFails name spec t f := by
  simp only [← sourceAndKind_eq_error_iff]
  cases ctx.sourceAndKind name spec t <;> simp

/-- An action is composed from what is found of it, and its parameters. -/
theorem composeAction_resultAt_eq (package : String) :
    (ctx.composeAction package name spec).resultAt t = do
      let found ← ctx.sourceAndKind name spec t
      let parameters ← (ctx.parameters spec.inputs).result
      let _ ← (ctx.parameters spec.outputs).result
      return ctx.actionRecord package name spec found.1 found.2 parameters := by
  rw [composeAction_resultAt]
  simp only [actionOf_result, sourceAndKind, bind_assoc, pure_bind]

/-- **An action fails as told**, and for no other reason. -/
theorem composeAction_eq_error_iff (package : String) :
    (ctx.composeAction package name spec).resultAt t = .error failure ↔
      ctx.ActionFails name spec t failure := by
  simp only [composeAction_resultAt_eq, Except.bind_eq_error_iff, sourceAndKind_eq_error_iff,
    parameters_eq_error_iff]
  constructor
  · rintro (h | ⟨found, hfound, h | ⟨parameters, hparameters, h | ⟨_, _, h⟩⟩⟩)
    · exact .source h
    · exact .input (exists_sourceAndKind_iff.mp ⟨_, hfound⟩) h
    · exact .output (exists_sourceAndKind_iff.mp ⟨_, hfound⟩)
        (exists_parameters_iff.mp ⟨_, hparameters⟩) h
    · cases h
  · rintro (h | ⟨hsource, h⟩ | ⟨hsource, hinputs, h⟩)
    · exact .inl h
    · obtain ⟨found, hfound⟩ := exists_sourceAndKind_iff.mpr hsource
      exact .inr ⟨found, hfound, .inl h⟩
    · obtain ⟨found, hfound⟩ := exists_sourceAndKind_iff.mpr hsource
      obtain ⟨parameters, hparameters⟩ := exists_parameters_iff.mpr hinputs
      exact .inr ⟨found, hfound, .inr ⟨parameters, hparameters, .inl h⟩⟩

end Failures

/-! ## What an action runs -/

/-- So it is decided. -/
theorem keeps_iff_decideRuntime {source : Source} {declared : String} {strict : Bool} :
    source.Keeps declared strict ↔ decideRuntime source declared strict = .declared ∨
      decideRuntime source declared strict = .declaredOverMismatch := by
  cases hsupported : RuntimeFamily.supports declared with
  | false =>
    refine iff_of_false (fun h => Bool.false_ne_true (hsupported.symm.trans h.1)) ?_
    rw [decideRuntime_of_unsupported hsupported]
    split <;> simp
  | true =>
    cases source with
    | stub => simp [Source.Keeps, decideRuntime, hsupported]
    | archive => simp [Source.Keeps, decideRuntime, hsupported]
    | file ext =>
      cases hfamily : RuntimeFamily.ofExtension? ext with
      | none =>
        simp [Source.Keeps, decideRuntime, hsupported, RuntimeFamily.defaultKind?, hfamily]
      | some family =>
        by_cases hmem : declared ∈ family.kinds <;> cases strict <;>
          simp [Source.Keeps, decideRuntime, hsupported, RuntimeFamily.defaultKind?,
            RuntimeFamily.isConsistent, hfamily, hmem]

/-- **What becomes of a declared runtime**: it is taken, or the kind that the source suggests. -/
theorem kind_of_runtimeKind {ctx : Context} {name declared : String} {loaded : Option LoadedSource}
    {kind : Option String} (h : (ctx.runtimeKind name declared loaded).result = .ok kind) :
    ((sourceOf loaded).Keeps declared ctx.settings.strict → kind = some declared) ∧
      (¬ (sourceOf loaded).Keeps declared ctx.settings.strict →
        kind = (sourceOf loaded).inferred?) := by
  rw [runtimeKind] at h
  by_cases hempty : declared = ""
  · have hkeeps : ¬ (sourceOf loaded).Keeps declared ctx.settings.strict := by
      rintro ⟨hsupported, -⟩
      rw [hempty] at hsupported
      cases hsupported
    rw [if_pos (String.isEmpty_iff.mpr hempty)] at h
    exact ⟨fun hk => absurd hk hkeeps, fun _ => (Except.ok.inj h).symm⟩
  rw [if_neg (mt String.isEmpty_iff.mp hempty)] at h
  rw [keeps_iff_decideRuntime]
  cases hdecision : decideRuntime (sourceOf loaded) declared ctx.settings.strict <;>
    rw [hdecision] at h <;> cases h <;> simp

end Context

/-! ## What an action runs -/

namespace ActionSpec

/-- The code of the source of an action of a document in a directory. -/
def codeIn [P : Packer] (spec : ActionSpec) (directory : String) (t : FileTree) :
    Except Failure Code :=
  if t.isDirectory (spec.pathIn directory) then Context.packedCode (spec.pathIn directory) t
  else (Code.load t (spec.pathIn directory) (spec.extensionIn directory)).result

/-- The declared runtime of an action of a document in a directory is taken. -/
def KeepsRuntime (spec : ActionSpec) (directory : String) (strict : Bool) (t : FileTree) : Prop :=
  (spec.sourceIn directory t).Keeps spec.runtime strict

/-- What an action runs if it is composed.  Without a source, it runs its runtime alone, and nothing
if that is not supported.  With one, it runs the code of the source, in the declared runtime if that
is taken; if it is not, the source is a file, and the runtime is the first one of the family that
its extension suggests, or an empty one. -/
structure Executes [P : Packer] (spec : ActionSpec) (directory : String) (strict : Bool)
    (t : FileTree) (run : Option Exec) : Prop where
  stub : spec.source = "" →
    (RuntimeFamily.supports spec.runtime = true →
      run = some { kind := spec.runtime, main := spec.entryPoint? }) ∧
    (RuntimeFamily.supports spec.runtime = false → run = none)
  source : spec.source ≠ "" → ∃ code kind, spec.codeIn directory t = .ok code ∧
    run = some { kind := kind, code := some code.text, main := spec.entryPoint?,
                 binary := code.binary } ∧
    (spec.KeepsRuntime directory strict t → kind = spec.runtime) ∧
    (¬ spec.KeepsRuntime directory strict t → ∃ ext, spec.sourceIn directory t = .file ext ∧
      kind = ((RuntimeFamily.ofExtension? ext).map (·.defaultKind)).getD "")

end ActionSpec

namespace Context

section Composed

variable [P : Packer] {ctx : Context} {name : String} {spec : ActionSpec} {t : FileTree}
  {s : LoadedSource}

/-- The source of an action is found with its code. -/
theorem codeIn_of_sourceAt (h : ctx.sourceAt name spec t = .ok (some s)) :
    spec.codeIn ctx.directory t = .ok s.code := by
  obtain ⟨-, ⟨⟨-, hdirectory⟩, -, -, hcode⟩ | ⟨⟨-, hfile⟩, -, -, hcode⟩⟩ := found_of_sourceAt h
  · rw [ActionSpec.codeIn, if_pos hdirectory, hcode]
  · rw [ActionSpec.codeIn, hfile, if_neg Bool.false_ne_true, hcode]

/-- An archive is found only if a runtime is declared. -/
theorem runtime_ne_of_archive (h : ctx.sourceAt name spec t = .ok (some s))
    (harchive : s.source = .archive) : spec.runtime ≠ "" := by
  obtain ⟨-, ⟨-, hruntime, -⟩ | ⟨-, hfault, hsource, -⟩⟩ := found_of_sourceAt h
  · exact hruntime
  · intro hruntime
    have hzip := fileSource_eq_archive_iff.mp (hsource.symm.trans harchive)
    exact (fileFault?_eq_none_iff.mp (hfault hruntime)).1 hzip

/-- If the declared runtime is not taken, the source is a file. -/
theorem exists_file_of_not_keeps {kind : Option String}
    (hloaded : ctx.sourceAt name spec t = .ok (some s))
    (hkind : (ctx.runtimeKind name spec.runtime (some s)).result = .ok kind)
    (hkeeps : ¬ spec.KeepsRuntime ctx.directory ctx.settings.strict t) :
    ∃ ext, spec.sourceIn ctx.directory t = .file ext := by
  have hsource : s.source = spec.sourceIn ctx.directory t := sourceOf_of_sourceAt hloaded
  rw [ActionSpec.KeepsRuntime, ← hsource] at hkeeps
  rw [← hsource]
  cases hs : s.source with
  | file ext => exact ⟨ext, rfl⟩
  | stub =>
    obtain ⟨-, ⟨-, -, harchive, -⟩ | ⟨-, -, hfile, -⟩⟩ := found_of_sourceAt hloaded
    · cases hs.symm.trans harchive
    · rw [hs, fileSource] at hfile
      split at hfile <;> cases hfile
  | archive =>
    exfalso
    have hunsupported : RuntimeFamily.supports spec.runtime = false := by
      rw [hs] at hkeeps
      simpa [Source.Keeps] using hkeeps
    have hruntime := runtime_ne_of_archive hloaded hs
    obtain ⟨-, hsure⟩ := runtimeKind_of_unsupported hunsupported hkind
    exact hsure.resolve_left hruntime hs

end Composed

/-- **An action that is composed** runs what its source and its runtime make of it. -/
theorem executes_of_composeAction [P : Packer] {ctx : Context} {package name : String}
    {spec : ActionSpec} {t : FileTree} {r : ActionRecord}
    (h : (ctx.composeAction package name spec).resultAt t = .ok r) :
    spec.Executes ctx.directory ctx.settings.strict t r.action.exec := by
  obtain ⟨loaded, kind, parameters, hloaded, hkind, -, -, rfl⟩ := ctx.composeAction_eq_ok_iff.mp h
  obtain ⟨hkeeps, hinferred⟩ := kind_of_runtimeKind hkind
  rw [sourceOf_of_sourceAt hloaded] at hkeeps hinferred
  show spec.Executes ctx.directory ctx.settings.strict t (exec? loaded kind spec.main)
  obtain ⟨hsource, rfl⟩ | ⟨s, hsource, rfl, -⟩ := sourceAt_cases hloaded
  · refine ⟨fun _ => ?_, fun h => absurd hsource h⟩
    have hstub : spec.sourceIn ctx.directory t = .stub := (sourceOf_of_sourceAt hloaded).symm
    rw [hstub] at hkeeps hinferred
    constructor
    · intro hsupported
      rw [hkeeps ⟨hsupported, trivial⟩]
      rfl
    · intro hunsupported
      rw [hinferred fun hk => Bool.false_ne_true (hunsupported.symm.trans hk.1)]
      rfl
  · refine ⟨fun h => absurd h hsource, fun _ => ⟨s.code, kind.getD "", codeIn_of_sourceAt hloaded,
      rfl, fun hk => ?_, fun hk => ?_⟩⟩
    · rw [hkeeps hk]
      rfl
    · obtain ⟨ext, hext⟩ := exists_file_of_not_keeps hloaded hkind hk
      refine ⟨ext, hext, ?_⟩
      rw [hinferred hk, hext]
      rfl

/-- **What becomes of an action.**  It cannot be composed for the reasons that are told, in their
order, and for no other; what cannot be read or packed is told as such.  If there is none of them,
it is composed, and runs what its source and its runtime make of it. -/
theorem composeAction_outcome [P : Packer] (ctx : Context) (package name : String)
    (spec : ActionSpec) (t : FileTree) :
    (∀ failure, (ctx.composeAction package name spec).resultAt t = .error failure ↔
      ctx.ActionFails name spec t failure) ∧
    (∀ path failure, packedCode path t = .error failure →
      (∃ path fault, failure = .unreadableSource path fault) ∨
        ∃ path, failure = .duplicateName path) ∧
    ((∀ failure, ¬ ctx.ActionFails name spec t failure) →
      ∃ r, (ctx.composeAction package name spec).resultAt t = .ok r ∧
        spec.Executes ctx.directory ctx.settings.strict t r.action.exec) := by
  refine ⟨fun _ => composeAction_eq_error_iff package, fun _ _ => packedCode_fault, fun h => ?_⟩
  cases hresult : (ctx.composeAction package name spec).resultAt t with
  | ok r => exact ⟨r, rfl, executes_of_composeAction hresult⟩
  | error failure => exact absurd ((composeAction_eq_error_iff package).mp hresult) (h failure)

end Context

end DeployPlan
