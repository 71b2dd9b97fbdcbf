import DeployPlan.Proofs.Manifest.Spelling
import DeployPlan.Proofs.Union

/-!
# Spellings and plans

There are several places for the packages of a document, and several ways to spell a document.
Without a marker, the plan depends on neither: documents at the same path have the same plan, or
fail in the same way, if they declare the same packages in whichever places, and if what was read
from them has the same plain form.

## Main definitions

* `PackageSpec.unnamed` — a package without its own name, which counts only where no map names it.
* `Manifest.Declares` — the packages that a document declares, by the places where it does.

## Main results

* `Manifest.declares_resolved`, `Declares.resolved_eq` — a document declares its resolved packages
  and no others.
* `Context.partsAt_plain` — the parts of a package are those of its plain form.
* `Manifest.composePlan_congr` — documents have the same plan if their packages have the same form,
  in any respect in which parts do not depend on more.
* `Manifest.planAt_parse_respelled` — so have texts of one document in two spellings.
* `Manifest.composePlan_spelling` — documents in several spellings have the same plan.
-/

set_option autoImplicit false

namespace DeployPlan

open Yaml (Tree)

/-! ## Parts -/

/-- The package without its own name. -/
def PackageSpec.unnamed (p : PackageSpec) : PackageSpec := { p with name := "" }

namespace Context

variable (ctx : Context)

/-- An action is composed as its plain form. -/
theorem composeAction_plain [P : Packer] (package name : String) (spec : ActionSpec) :
    ctx.composeAction package name spec.plain = ctx.composeAction package name spec := by
  simp only [composeAction, withSource, ActionSpec.source_plain]
  rfl

/-- A trigger is composed as its plain form, but for the warning about the former name. -/
theorem composeTrigger_plain (name : String) (spec : TriggerSpec) :
    (ctx.composeTrigger name spec.plain).result = (ctx.composeTrigger name spec).result := by
  rw [composeTrigger_result, composeTrigger_result, TriggerSpec.feedSource_plain]
  rfl

/-- The parts of a package do not depend on its own name. -/
theorem partsAt_unnamed [Host] (name : String) (spec : PackageSpec) (t : FileTree) :
    ctx.partsAt name spec.unnamed t = ctx.partsAt name spec t := rfl

/-- **The parts of a package** are those of its plain form. -/
theorem partsAt_plain [Host] (name : String) (spec : PackageSpec) (t : FileTree) :
    ctx.partsAt name spec.plain t = ctx.partsAt name spec t := by
  have hactions : (ctx.composeActions name spec.plain).resultAt t =
      (ctx.composeActions name spec).resultAt t := by
    have hleaves (spec : PackageSpec) : ∀ e ∈ spec.actions.entries,
        (ctx.composeAction (P := Host.packer name e.1) name e.1 e.2).LeavesTree :=
      fun e _ => ctx.composeAction_leavesTree (P := Host.packer name e.1) name e.1 e.2
    rw [composeActions, composeActions, Compose.resultAt_mapM (hleaves spec.plain),
      Compose.resultAt_mapM (hleaves spec), PackageSpec.plain, KeyMap.mapValues_entries,
      List.mapM_map]
    simp only [Function.comp_def, composeAction_plain]
  have htriggers : (ctx.composeTriggers spec.plain).result = (ctx.composeTriggers spec).result := by
    rw [composeTriggers, composeTriggers, Report.result_mapM, Report.result_mapM,
      PackageSpec.plain, KeyMap.mapValues_entries, List.mapM_map]
    simp only [Function.comp_def, composeTrigger_plain]
  rw [partsAt, hactions, htriggers]
  rfl

end Context

namespace Manifest

section Packages

variable {settings : Settings} (hmanaged : settings.managed = false) (vars : Variables)
  (t : FileTree)

include hmanaged

/-- **Documents at the same path** have the same plan if their packages have the same form, in any
respect in which the parts of a package are those of its form. -/
theorem composePlan_congr [Host] {form : PackageSpec → PackageSpec}
    (hform : ∀ (ctx : Context) name spec, ctx.partsAt name (form spec) t = ctx.partsAt name spec t)
    {m m' : Manifest} (hpath : m.path = m'.path)
    (hpackages : m.resolved.mapValues form = m'.resolved.mapValues form) :
    (m.composePlan settings vars).resultAt t = (m'.composePlan settings vars).resultAt t := by
  have hplan (m : Manifest) : (m.composePlan settings vars).resultAt t =
      Plan.ofParts <$> (m.resolved.mapValues form).entries.mapM fun e =>
        Context.partsAt ⟨settings, vars, m.path, none⟩ e.1 e.2 t := by
    rw [composePlan_unmanaged hmanaged, KeyMap.mapValues_entries, List.mapM_map]
    simp only [Function.comp_def, hform]
  rw [hplan m, hplan m', hpath, hpackages]

end Packages

/-! ## Places of packages -/

/-- A package that may be missing has no name. -/
def Nameless (package : Option PackageSpec) : Prop := ∀ p, package = some p → p.name = ""

/-- **The packages that a document declares.**  A single package counts if it has a name, then
packages by name if there are any, then the same in the project; whatever stands in places behind
the one that counts is of no account. -/
inductive Declares : Manifest → KeyMap PackageSpec → Prop
  | single {p : PackageSpec} (hname : p.name ≠ "") (packages : KeyMap PackageSpec)
    (project : Option ProjectSpec) (path : String) :
    Declares ⟨some p, packages, project, path⟩ (.single p.name p)
  | packages {package : Option PackageSpec} (hpackage : Nameless package)
    {packages : KeyMap PackageSpec} (hpackages : packages.isEmpty = false)
    (project : Option ProjectSpec) (path : String) :
    Declares ⟨package, packages, project, path⟩ packages
  | projectSingle {package : Option PackageSpec} (hpackage : Nameless package) {p : PackageSpec}
    (hname : p.name ≠ "") (packages : KeyMap PackageSpec) (name ns path : String) :
    Declares ⟨package, .empty, some ⟨name, ns, some p, packages⟩, path⟩ (.single p.name p)
  | project {package package' : Option PackageSpec} (hpackage : Nameless package)
    (hpackage' : Nameless package') (packages : KeyMap PackageSpec) (name ns path : String) :
    Declares ⟨package, .empty, some ⟨name, ns, package', packages⟩, path⟩ packages
  | nothing {package : Option PackageSpec} (hpackage : Nameless package) (path : String) :
    Declares ⟨package, .empty, none, path⟩ .empty

/-- A single package counts if it has a name. -/
theorem named?_eq_some_iff {package : Option PackageSpec} {p : PackageSpec} :
    named? package = some p ↔ package = some p ∧ p.name ≠ "" := by
  simp [named?, Option.filter_eq_some_iff]

/-- Otherwise it does not. -/
theorem named?_eq_none_iff {package : Option PackageSpec} :
    named? package = none ↔ Nameless package := by
  simp [named?, Nameless, Option.filter_eq_none_iff]

/-- What a document declares is what is resolved. -/
theorem Declares.resolved_eq {m : Manifest} {packages : KeyMap PackageSpec}
    (h : m.Declares packages) : m.resolved = packages := by
  cases h with
  | single hname => simp [resolved, resolve, named?_eq_some_iff.mpr ⟨rfl, hname⟩]
  | packages hpackage hpackages =>
    simp [resolved, resolve, named?_eq_none_iff.mpr hpackage, hpackages]
  | projectSingle hpackage hname =>
    simp [resolved, resolve, named?_eq_none_iff.mpr hpackage,
      named?_eq_some_iff.mpr ⟨rfl, hname⟩, KeyMap.isEmpty, KeyMap.empty]
  | project hpackage hpackage' =>
    simp [resolved, resolve, named?_eq_none_iff.mpr hpackage,
      named?_eq_none_iff.mpr hpackage', KeyMap.isEmpty, KeyMap.empty]
  | nothing hpackage =>
    simp [resolved, resolve, named?_eq_none_iff.mpr hpackage, KeyMap.isEmpty, KeyMap.empty]

/-- A document declares what is resolved, in the place that counts. -/
theorem declares_resolved (m : Manifest) : m.Declares m.resolved := by
  obtain ⟨package, packages, project, path⟩ := m
  rw [resolved, resolve]
  split
  case h_1 p hp =>
    obtain ⟨rfl, hname⟩ := named?_eq_some_iff.mp hp
    exact .single hname packages project path
  case h_2 hnone =>
    have hpackage : Nameless package := named?_eq_none_iff.mp hnone
    split
    case isTrue hpackages => exact .packages hpackage (by simpa using hpackages) project path
    case isFalse hempty =>
      obtain rfl : packages = .empty := KeyMap.eq_empty_of_isEmpty (by simpa using hempty)
      split
      case h_1 hproject =>
        obtain rfl : project = none := hproject
        exact .nothing hpackage path
      case h_2 q hproject =>
        obtain rfl : project = some q := hproject
        split
        case h_1 p hp =>
          obtain ⟨name, ns, package', packages⟩ := q
          obtain ⟨hsome, hname⟩ := named?_eq_some_iff.mp hp
          obtain rfl : package' = some p := hsome
          exact .projectSingle hpackage hname packages name ns path
        case h_2 hnone' =>
          exact .project hpackage (named?_eq_none_iff.mp hnone') _ q.name q.namespace path

/-! ## Plans -/

/-- The plain form of a package has a name only if the package has. -/
theorem Nameless.plain {package : Option PackageSpec} (h : Nameless package) :
    Nameless (package.map PackageSpec.plain) := by
  intro p hp
  obtain ⟨q, hq, rfl⟩ := Option.map_eq_some_iff.mp hp
  exact h q hq

/-- The plain form of a document declares the plain forms of what the document declares. -/
theorem Declares.plain {m : Manifest} {packages : KeyMap PackageSpec} (h : m.Declares packages) :
    m.plain.Declares (packages.mapValues PackageSpec.plain) := by
  cases h with
  | single hname packages project path => exact .single (p := .plain _) hname _ _ path
  | packages hpackage hpackages project path =>
    exact .packages hpackage.plain (by simpa [KeyMap.isEmpty] using hpackages) _ path
  | projectSingle hpackage hname packages name ns path =>
    exact .projectSingle (p := .plain _) hpackage.plain hname _ name ns path
  | project hpackage hpackage' packages name ns path =>
    exact .project hpackage.plain hpackage'.plain _ name ns path
  | nothing hpackage path => exact .nothing hpackage.plain path

section Plans

variable {settings : Settings} (hmanaged : settings.managed = false) (vars : Variables)
  (t : FileTree)

include hmanaged

/-- Documents with the same plain form have the same plan. -/
theorem composePlan_eq_of_plain [Host] {m m' : Manifest} (h : m.plain = m'.plain) :
    (m.composePlan settings vars).resultAt t = (m'.composePlan settings vars).resultAt t := by
  have hpackages : m.resolved.mapValues PackageSpec.plain =
      m'.resolved.mapValues PackageSpec.plain := by
    have hresolved (m : Manifest) : m.plain.resolved = m.resolved.mapValues PackageSpec.plain :=
      m.declares_resolved.plain.resolved_eq
    rw [← hresolved, h, hresolved]
  have hpath : m.plain.path = m'.plain.path := congrArg path h
  exact composePlan_congr hmanaged vars t (fun ctx name spec => ctx.partsAt_plain name spec t) hpath
    hpackages

/-- The plan of a document that was read, at a path. -/
def planAt [Host] (settings : Settings) (vars : Variables) (t : FileTree) (path : String)
    (m : Manifest) : Except Failure Plan :=
  ({ m with path := path }.composePlan settings vars).resultAt t

/-- Documents that are written in two spellings have the same plan, if they can be read. -/
theorem planAt_respelled [Host] {d d' : Tree} (h : Respelled d d') (path : String) :
    (decoder d).toOption.map (planAt settings vars t path) =
      (decoder d').toOption.map (planAt settings vars t path) := by
  refine Option.map_eq_of_rel (Option.rel_imp (decoder_respects d d' h) fun m m' hplain => ?_)
  have hpath : { m with path := path }.plain = { m' with path := path }.plain :=
    congrArg (fun m : Manifest => { m with path := path }) hplain
  exact composePlan_eq_of_plain hmanaged vars t hpath

/-- **Texts of one document** in two spellings have the same plan, if they can be read. -/
theorem planAt_parse_respelled [Host] {text text' : String}
    (h : Option.Rel Respelled (Tree.parse? text) (Tree.parse? text')) (path : String) :
    (parse text).toOption.map (planAt settings vars t path) =
      (parse text').toOption.map (planAt settings vars t path) := by
  have hparse (text : String) :
      (parse text).toOption = (Tree.parse? text).bind fun d => (decoder d).toOption := by
    rw [parse, Yaml.Decoder.run]
    cases Tree.parse? text with
    | none => rfl
    | some d =>
      show (decoder.read d).toOption = (decoder d).toOption
      rw [Yaml.Decoder.read]
      cases decoder d with
      | ok m => rfl
      | error e => cases d.value?.isNone <;> rfl
  rw [hparse, hparse, Option.map_bind, Option.map_bind]
  generalize Tree.parse? text = o, Tree.parse? text' = o' at h
  cases h with
  | none => rfl
  | some h => exact planAt_respelled hmanaged vars t h path

/-- **Documents in several spellings** have the same plan or fail in the same way: documents with
the same resolved packages, but for the names that packages have of their own; documents that
declare the same packages in different places; and documents that are written in two spellings, if
they can be read at all, which is so for both or for neither.  This is so whatever is drawn for the
archives of directories, if both documents are composed with the same draws.

**Proof sketch.** The parts of a package depend neither on its own name nor on more than its plain
form, and a plan on the path and the parts of the resolved packages alone.  What is declared in
some place is what is resolved.  Documents in two spellings are read with the same plain form,
record by record, and the packages of a plain form are the plain forms of the packages. -/
theorem composePlan_spelling [Host] :
    (∀ m m' : Manifest, m.path = m'.path →
      m.resolved.mapValues PackageSpec.unnamed = m'.resolved.mapValues PackageSpec.unnamed →
      (m.composePlan settings vars).resultAt t = (m'.composePlan settings vars).resultAt t) ∧
    (∀ (m m' : Manifest) (packages packages' : KeyMap PackageSpec),
      m.Declares packages → m'.Declares packages' → m.path = m'.path →
      packages.mapValues PackageSpec.unnamed = packages'.mapValues PackageSpec.unnamed →
      (m.composePlan settings vars).resultAt t = (m'.composePlan settings vars).resultAt t) ∧
    (∀ d d' : Tree, Respelled d d' → ∀ path,
      (decoder d).toOption.map (planAt settings vars t path) =
        (decoder d').toOption.map (planAt settings vars t path)) := by
  have hresolved : ∀ m m' : Manifest, m.path = m'.path →
      m.resolved.mapValues PackageSpec.unnamed = m'.resolved.mapValues PackageSpec.unnamed →
      (m.composePlan settings vars).resultAt t = (m'.composePlan settings vars).resultAt t :=
    fun m m' hpath hpackages => composePlan_congr hmanaged vars t
      (fun ctx name spec => ctx.partsAt_unnamed name spec t) hpath hpackages
  refine ⟨hresolved, fun m m' packages packages' h h' hpath hpackages => ?_,
    fun d d' hd path => planAt_respelled hmanaged vars t hd path⟩
  rw [← h.resolved_eq, ← h'.resolved_eq] at hpackages
  exact hresolved m m' hpath hpackages

end Plans

attribute [local instance] oneHost

/-- A package with a trigger, under a name of its own. -/
def tickPackage (name : String) : PackageSpec where
  name := name
  triggers := .single "tick" { feed := "/whisk.system/alarms" }

/-- A document of this package alone.  Another package stands in a place that does not count. -/
def tickSingle : Manifest where
  package := some (tickPackage "shop")
  packages := .single "cart" {}

/-- A document of this package in the project, where the map names it. -/
def tickProject : Manifest where
  project := some { packages := .single "shop" (tickPackage "") }

/-- The tree of a document, by the names of its keys for inputs, for the source of an action and
for the feed of a trigger. -/
def shopTree (inputs source feed : String) : Tree :=
  .ofValue <| .map [(.str "packages", .map [(.str "shop", .map
    [(.str inputs, .map [(.str "region", .str "eu")]),
      (.str "actions", .map [(.str "pay", .map [(.str source, .str "pay.js")])]),
      (.str "triggers", .map [(.str "tick", .map [(.str feed, .str "/whisk.system/alarms")])])])])]

/-- Its two spellings. -/
theorem respelled_shopTree : Respelled (shopTree "inputs" "function" "feed")
    (shopTree "parameters" "location" "source") := by
  have hsource : ActionSpec.Respelled (.ofValue (.map [(.str "function", .str "pay.js")]))
      (.ofValue (.map [(.str "location", .str "pay.js")])) :=
    .inr (.mapping (.cons (.some (.moved _)) .nil))
  have hfeed : TriggerSpec.Respelled (.ofValue (.map [(.str "feed", .str "/whisk.system/alarms")]))
      (.ofValue (.map [(.str "source", .str "/whisk.system/alarms")])) :=
    .inr (.mapping (.cons (.some (.moved _)) .nil))
  refine .mapping (.cons (.some (.packages ?_)) .nil)
  refine .mapping (.cons (.some ⟨rfl, .mapping ?_⟩) .nil)
  refine .cons (.some (.kept (.inputs _))) (.cons (.some (.actions ?_)) (.cons (.some ?_) .nil))
  · exact .mapping (.cons (.some ⟨rfl, hsource⟩) .nil)
  · exact .triggers (.mapping (.cons (.some ⟨rfl, hfeed⟩) .nil))

/-- The documents of the package have the same plan, and so have both spellings of the tree. -/
theorem composePlan_spelling_shop :
    tickSingle.Declares (.single "shop" (tickPackage "shop")) ∧
    tickProject.Declares (.single "shop" (tickPackage "")) ∧
    (tickSingle.composePlan {} {}).resultAt default =
      (tickProject.composePlan {} {}).resultAt default ∧
    ((tickSingle.composePlan {} {}).resultAt default).isOk = true ∧
    (decoder (shopTree "inputs" "function" "feed")).isOk = true ∧
    (decoder (shopTree "inputs" "function" "feed")).toOption.map (planAt {} {} default "") =
      (decoder (shopTree "parameters" "location" "source")).toOption.map
        (planAt {} {} default "") := by
  have hunmanaged : ({} : Settings).managed = false := rfl
  obtain ⟨-, hplaces, htrees⟩ := composePlan_spelling hunmanaged {} default
  have hsingle : tickSingle.Declares (.single "shop" (tickPackage "shop")) :=
    .single (p := tickPackage "shop") (by decide) _ _ _
  have hproject : tickProject.Declares (.single "shop" (tickPackage "")) :=
    .project (fun _ h => by cases h) (fun _ h => by cases h) _ _ _ _
  refine ⟨hsingle, hproject, hplaces _ _ _ _ hsingle hproject rfl rfl, by decide +kernel,
    by decide +kernel, htrees _ _ respelled_shopTree ""⟩

end Manifest

end DeployPlan
