import DeployPlan.Compose.Build
import DeployPlan.Proofs.EntityLaw
import DeployPlan.Proofs.Text.Utf8

/-!
# Plans from files

Building a plan is loading a document, composing its plan, and overriding that by a descriptor, if
one is given.  None of this changes the tree, so that all documents are those of the tree at the
start, and a plan is built if and only if each part succeeds.

## Main definitions

* `DeployPlan.DescriptorAt`, `GivenAt` — the descriptor that a plan is overridden by, and what it
  gives annotations of entities.
* `FileTree.ofTexts` — a tree of a few texts.

## Main results

* `DeployPlan.buildPlan_eq_ok_iff` — when a plan is built, and what it is.
* `DeployPlan.buildPlan_obeys` — it obeys the laws that its entities follow and that survive the
  descriptor.
-/

set_option autoImplicit false

namespace DeployPlan

variable {settings : Settings} {vars : Variables} {manifest : String} {deployment : Option String}
  {t : FileTree} {plan : Plan}

/-- A plan is revised if the revision does not fail, and is what the revision leaves. -/
theorem Plan.revised_eq_ok_iff {revision : Revision Plan} {plan plan' : Plan} :
    (plan.revised revision).result = .ok plan' ↔
      (revision plan).2.result = .ok () ∧ (revision plan).1 = plan' := by
  rw [Plan.revised]
  rcases revision plan with ⟨left, events, result⟩
  cases result with
  | error failure => simp
  | ok _ => simp

/-- Loading a document only looks at the tree. -/
theorem Manifest.load_leavesTree (path : String) : (Manifest.load path).LeavesTree :=
  Compose.leavesTree_looking _

/-- The document of a file is that of its text, with the path of the file. -/
theorem Manifest.load_resultAt {path text : String} (h : t.readText path = .ok text) :
    (Manifest.load path).resultAt t = match Manifest.parse text with
      | .error e => .error (.invalidDocument path e)
      | .ok m => .ok { m with path := path } := by
  simp only [Manifest.load, Compose.looking, Compose.resultAt, h]
  cases Manifest.parse text <;> rfl

/-- Without a descriptor, the plan of the document is built. -/
theorem buildPlan_none_resultAt [Host] (settings : Settings) (vars : Variables) (manifest : String)
    (t : FileTree) :
    (buildPlan settings vars manifest none).resultAt t =
      (Manifest.load manifest).resultAt t >>= fun m =>
        (m.composePlan settings vars).resultAt t := by
  simp only [buildPlan, Compose.resultAt_liftM_bind, Report.result_log, Except.ok_bind,
    Compose.resultAt_bind (Manifest.load_leavesTree _),
    Compose.resultAt_bind Manifest.composePlan_leavesTree, Compose.resultAt_pure]
  exact bind_congr fun m => bind_pure _

/-- With a descriptor, that plan is overridden by it. -/
theorem buildPlan_some_resultAt [Host] (settings : Settings) (vars : Variables)
    (manifest path : String) (t : FileTree) :
    (buildPlan settings vars manifest (some path)).resultAt t =
      (Manifest.load manifest).resultAt t >>= fun m =>
        (m.composePlan settings vars).resultAt t >>= fun composed =>
          (Manifest.load path).resultAt t >>= fun descriptor =>
            (composed.revised (Override.apply settings vars descriptor)).result := by
  simp only [buildPlan, Compose.resultAt_liftM_bind, Report.result_log, Except.ok_bind,
    Compose.resultAt_bind (Manifest.load_leavesTree _),
    Compose.resultAt_bind Manifest.composePlan_leavesTree]
  rfl

/-- **A plan is built** from the document of the manifest.  If a descriptor is given, it has to
override the plan of the document without a failure, and the plan is the overridden one. -/
theorem buildPlan_eq_ok_iff [Host] :
    (buildPlan settings vars manifest deployment).resultAt t = .ok plan ↔
      ∃ m composed, (Manifest.load manifest).resultAt t = .ok m ∧
        (m.composePlan settings vars).resultAt t = .ok composed ∧
        match deployment with
        | none => plan = composed
        | some path => ∃ descriptor, (Manifest.load path).resultAt t = .ok descriptor ∧
            (Override.apply settings vars descriptor composed).2.result = .ok () ∧
            plan = Override.overridden settings vars descriptor composed := by
  cases deployment with
  | none =>
    rw [buildPlan_none_resultAt, Except.bind_eq_ok_iff]
    constructor
    · rintro ⟨m, hm, hplan⟩
      exact ⟨m, plan, hm, hplan, rfl⟩
    · rintro ⟨m, composed, hm, hcomposed, rfl⟩
      exact ⟨m, hm, hcomposed⟩
  | some path =>
    simp only [buildPlan_some_resultAt, Except.bind_eq_ok_iff, Plan.revised_eq_ok_iff]
    constructor
    · rintro ⟨m, hm, composed, hcomposed, descriptor, hdescriptor, hok, rfl⟩
      exact ⟨m, composed, hm, hcomposed, descriptor, hdescriptor, hok,
        (Override.apply_meets settings vars descriptor).fst_eq_of_ok hok⟩
    · rintro ⟨m, composed, hm, hcomposed, descriptor, hdescriptor, hok, rfl⟩
      exact ⟨m, hm, composed, hcomposed, descriptor, hdescriptor, hok,
        (Override.apply_meets settings vars descriptor).fst_eq_of_ok hok⟩

/-- The descriptor that a plan is overridden by, if it is. -/
def DescriptorAt (deployment : Option String) (t : FileTree) (descriptor : Manifest) : Prop :=
  ∃ path, deployment = some path ∧ (Manifest.load path).resultAt t = .ok descriptor

/-- What the descriptor, if there is one, gives an annotation of an entity. -/
def GivenAt (deployment : Option String) (t : FileTree) (entity : EntityName) (key : String)
    (value : Json) : Prop :=
  ∃ descriptor, DescriptorAt deployment t descriptor ∧ descriptor.GivesValue entity key value

/-- **A plan that is built** obeys a law that its entities follow over the tree and that survives
the descriptor. -/
theorem buildPlan_obeys [Host] {law : EntityLaw} {m : Manifest}
    (h : (buildPlan settings vars manifest deployment).resultAt t = .ok plan)
    (hm : (Manifest.load manifest).resultAt t = .ok m)
    (hfollows : ∀ ctx, Context.ofManifest settings vars m = .ok ctx → ctx.FollowsAt law t)
    (hsurvives : ∀ descriptor, DescriptorAt deployment t descriptor →
      law.Survives vars descriptor) :
    plan.Obeys law m vars := by
  obtain ⟨m', composed, hm', hcomposed, hplan⟩ := buildPlan_eq_ok_iff.mp h
  obtain rfl : m' = m := Except.ok.inj (hm'.symm.trans hm)
  have hobeys := Manifest.composePlan_obeys hcomposed hfollows
  cases deployment with
  | none => exact hplan ▸ hobeys
  | some path =>
    obtain ⟨descriptor, hdescriptor, -, rfl⟩ := hplan
    exact hobeys.overridden (hsurvives descriptor ⟨path, rfl, hdescriptor⟩)

/-! ## Trees of texts -/

namespace FileTree

/-- The tree with texts under their names in its root directory. -/
def ofTexts (texts : List (String × String)) : FileTree where
  root := .directory 0o755 (texts.map fun e => (e.1, .file 0o644 e.2.toUTF8))

/-- A path that is the name of an entry of a directory. -/
def IsName (path : String) : Prop :=
  path ≠ "" ∧ Text.has (Char.ofNat 0) path = false ∧ path.utf8ByteSize ≤ maxName ∧
    steps path = [path] ∧ path ≠ "." ∧ path ≠ ".."

instance (path : String) : Decidable (IsName path) := by
  unfold IsName
  infer_instance

/-- The texts of such a tree are found under their names. -/
theorem resolve_ofTexts {texts : List (String × String)} {name text : String}
    (hname : IsName name) (htext : Entries.find? name texts = some text) :
    (ofTexts texts).resolve name = .ok ([name], .file 0o644 text.toUTF8) := by
  obtain ⟨hne, hnul, hsize, hsteps, hdot, hdots⟩ := hname
  have hchild : (ofTexts texts).root.get? [name] = some (.file 0o644 text.toUTF8) := by
    show (FileEntry.child? name _).bind (FileEntry.get? []) = _
    induction texts with
    | nil => cases htext
    | cons e texts ih =>
      obtain ⟨name', text'⟩ := e
      by_cases h : name = name'
      · subst h
        rw [Entries.find?, if_pos rfl] at htext
        cases htext
        simp [FileEntry.child?, FileEntry.get?]
      · rw [Entries.find?, if_neg h] at htext
        simpa [FileEntry.child?, Ne.symm h] using ih htext
  have hpath : name.utf8ByteSize ≤ maxPath := Nat.le_trans hsize (by decide)
  have hwalk : walk (ofTexts texts).root maxLinks [] [name] =
      .ok ([name], .file 0o644 text.toUTF8) := by
    rw [walk]
    simp [hdot, hdots, Nat.not_lt.mpr hsize, hchild]
  rw [resolve, if_neg (by simpa using hne), hnul, if_neg (Bool.false_ne_true),
    if_neg (Nat.not_lt.mpr hpath), hsteps]
  simpa [ofTexts] using hwalk

/-- The texts of such a tree are read under their names. -/
theorem readText_ofTexts {texts : List (String × String)} {name text : String}
    (hname : IsName name) (htext : Entries.find? name texts = some text) :
    (ofTexts texts).readText name = .ok text := by
  simp only [readText, read, resolve_ofTexts hname htext, String.toUTF8_eq_toByteArray,
    Text.fromUTF8?_toByteArray]

end FileTree

/-- An action with a declared runtime can have such a text as its source. -/
theorem Context.sourceAt_ofTexts [P : Packer] {ctx : Context} {spec : ActionSpec} {name : String}
    {texts : List (String × String)} {text : String} (hdirectory : ctx.directory = "")
    (hruntime : spec.runtime.isEmpty = false) (hname : FileTree.IsName spec.source)
    (htext : Entries.find? spec.source texts = some text)
    (hbinary : isBinaryExtension (FilePath.extension spec.source) = false) :
    ctx.sourceAt name spec (.ofTexts texts) = .ok (some ⟨spec.source,
      fileSource (FilePath.extension spec.source), ⟨text, false⟩⟩) := by
  have hresolve := FileTree.resolve_ofTexts hname htext
  have hempty : spec.source.isEmpty = false := by simpa using hname.1
  have hpath : FilePath.join ctx.directory spec.source = spec.source := by
    simp [FilePath.join, hdirectory]
  have hread : (Code.load (.ofTexts texts) spec.source
      (FilePath.extension spec.source)).result = .ok ⟨text, false⟩ := by
    simp [Code.load, FileTree.read, hresolve, Code.ofBytes, hbinary,
      Text.fromUTF8?_toByteArray]
  rw [sourceAt, Compose.resultAt, withSource_apply, hempty, if_neg Bool.false_ne_true, hpath,
    FileTree.isDirectory, hresolve, if_neg Bool.false_ne_true]
  show Compose.resultAt _ _ = _
  rw [Compose.resultAt_bind (Compose.leavesTree_looking _)]
  simp only [Compose.resultAt, Compose.looking, loadFile, hruntime, if_neg Bool.false_ne_true,
    Report.result_bind, hread]
  rfl

end DeployPlan
