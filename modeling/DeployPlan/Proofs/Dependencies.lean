import DeployPlan.Proofs.Compose.Build

/-!
# The dependencies of a plan

A plan keeps dependencies under keys that join the name of a package and that of a dependency by a
colon.  Both names may have colons themselves, so that two declarations can get one key; then the
plan has one record for both.  This is the one way in which a declaration is lost.

## Main definitions

* `DeployPlan.DependencyDeclaration`, `Manifest.dependencyDeclarations` — what a document declares.
* `DependencyDeclaration.Collides` — two declarations differ and get one key.
* `Context.Represents` — the record of a declaration.

## Main results

* `Context.dependencyKey_eq_iff` — when two keys are the same.
* `Manifest.exists_dependency_records` — the dependencies of a plan are the records of all
  declarations, written in turn.
* `Manifest.composePlan_dependencies` — none is lost unless two declarations collide.
* `Manifest.composePlan_dependency_lost` — a document of which two do.
-/

set_option autoImplicit false

namespace DeployPlan

/-! ## Keys -/

/-- Lists that are joined by a separator agree part by part, or one separator is inside a part of
the other. -/
theorem append_cons_eq_append_cons_iff {α : Type} {a : α} {l l' m m' : List α} :
    l ++ a :: m = l' ++ a :: m' ↔ (l = l' ∧ m = m') ∨
      (∃ s, l' = l ++ a :: s ∧ m = s ++ a :: m') ∨ ∃ s, l = l' ++ a :: s ∧ m' = s ++ a :: m := by
  constructor
  · intro h
    rcases List.append_eq_append_iff.mp h with ⟨s, hl, hm⟩ | ⟨s, hl, hm⟩
    · cases s with
      | nil =>
        rw [List.append_nil] at hl
        exact .inl ⟨hl.symm, (List.cons.inj hm).2⟩
      | cons b s =>
        rw [List.cons_append, List.cons.injEq] at hm
        obtain ⟨rfl, hm⟩ := hm
        exact .inr (.inl ⟨s, hl, hm⟩)
    · cases s with
      | nil =>
        rw [List.append_nil] at hl
        exact .inl ⟨hl, (List.cons.inj hm).2.symm⟩
      | cons b s =>
        rw [List.cons_append, List.cons.injEq] at hm
        obtain ⟨rfl, hm⟩ := hm
        exact .inr (.inr ⟨s, hl, hm⟩)
  · rintro (⟨rfl, rfl⟩ | ⟨s, rfl, rfl⟩ | ⟨s, rfl, rfl⟩)
    · rfl
    · simp
    · simp

/-- Two pairs of names are joined to one key, and the colon that joins the first pair is inside the
package of the second. -/
def Context.Shifted (package name package' name' : String) : Prop :=
  ∃ s, package' = package ++ ":" ++ s ∧ name = s ++ ":" ++ name'

/-- **Two keys are the same** if the names are, or the colon of one is inside a name of the
other. -/
theorem Context.dependencyKey_eq_iff {package name package' name' : String} :
    dependencyKey package name = dependencyKey package' name' ↔
      (package = package' ∧ name = name') ∨
        Shifted package name package' name' ∨ Shifted package' name' package name := by
  have htoList : ∀ p n : String, (dependencyKey p n).toList = p.toList ++ ':' :: n.toList := by
    intro p n
    simp [dependencyKey]
  have hshifted : ∀ p n p' n' : String, Shifted p n p' n' ↔
      ∃ s, p'.toList = p.toList ++ ':' :: s ∧ n.toList = s ++ ':' :: n'.toList := by
    intro p n p' n'
    constructor
    · rintro ⟨s, rfl, rfl⟩
      exact ⟨s.toList, by simp, by simp⟩
    · rintro ⟨s, hp, hn⟩
      refine ⟨String.ofList s, ?_, ?_⟩
      · apply String.toList_inj.mp
        simp [hp]
      · apply String.toList_inj.mp
        simp [hn]
  rw [← String.toList_inj, htoList, htoList, append_cons_eq_append_cons_iff, hshifted,
    hshifted, String.toList_inj, String.toList_inj]

/-! ## Declarations -/

/-- A dependency that a package declares. -/
structure DependencyDeclaration where
  package : String
  name : String
  spec : DependencySpec

namespace DependencyDeclaration

/-- The key of its record in a plan. -/
def key (d : DependencyDeclaration) : String := Context.dependencyKey d.package d.name

/-- **Two declarations collide** if they are not under the same names, but get one key. -/
def Collides (d d' : DependencyDeclaration) : Prop :=
  Context.Shifted d.package d.name d'.package d'.name ∨
    Context.Shifted d'.package d'.name d.package d.name

/-- Declarations of packages without a colon in their names do not collide. -/
theorem not_collides_of_no_colon {d d' : DependencyDeclaration} (hd : ':' ∉ d.package.toList)
    (hd' : ':' ∉ d'.package.toList) : ¬ d.Collides d' := by
  rintro (⟨s, hpackage, -⟩ | ⟨s, hpackage, -⟩)
  · rw [hpackage] at hd'
    simp at hd'
  · rw [hpackage] at hd
    simp at hd

end DependencyDeclaration

/-- The dependencies that packages declare, in the order of the names of packages and
dependencies. -/
def dependencyDeclarationsOf (specs : List (String × PackageSpec)) : List DependencyDeclaration :=
  specs.flatMap fun e => e.2.dependencies.entries.map fun e' => ⟨e.1, e'.1, e'.2⟩

/-- The dependencies that a document declares. -/
def Manifest.dependencyDeclarations (m : Manifest) : List DependencyDeclaration :=
  dependencyDeclarationsOf m.resolved.entries

namespace Manifest

variable {m : Manifest} {d d' : DependencyDeclaration}

/-- A declaration is found by its names. -/
theorem mem_dependencyDeclarations_iff :
    d ∈ m.dependencyDeclarations ↔ ∃ spec, m.resolved.get? d.package = some spec ∧
      spec.dependencies.get? d.name = some d.spec := by
  rw [dependencyDeclarations, dependencyDeclarationsOf, List.mem_flatMap]
  constructor
  · rintro ⟨⟨package, spec⟩, he, hd⟩
    obtain ⟨⟨name, dependency⟩, he', rfl⟩ := List.mem_map.mp hd
    exact ⟨spec, KeyMap.mem_entries_iff.mp he, KeyMap.mem_entries_iff.mp he'⟩
  · rintro ⟨spec, hspec, hdependency⟩
    refine ⟨(d.package, spec), KeyMap.mem_entries_iff.mpr hspec, ?_⟩
    exact List.mem_map.mpr ⟨(d.name, d.spec), KeyMap.mem_entries_iff.mpr hdependency, rfl⟩

/-- Two declarations under the same names are one. -/
theorem dependencyDeclaration_eq (hd : d ∈ m.dependencyDeclarations)
    (hd' : d' ∈ m.dependencyDeclarations) (hpackage : d.package = d'.package)
    (hname : d.name = d'.name) : d = d' := by
  obtain ⟨spec, hspec, hdependency⟩ := mem_dependencyDeclarations_iff.mp hd
  obtain ⟨spec', hspec', hdependency'⟩ := mem_dependencyDeclarations_iff.mp hd'
  rw [← hpackage, hspec] at hspec'
  obtain rfl : spec = spec' := Option.some.inj hspec'
  rw [← hname, hdependency] at hdependency'
  obtain ⟨package, name, dependency⟩ := d
  obtain ⟨package', name', dependency'⟩ := d'
  obtain rfl : package = package' := hpackage
  obtain rfl : name = name' := hname
  obtain rfl : dependency = dependency' := Option.some.inj hdependency'
  rfl

/-- Declarations with one key are one, unless they collide. -/
theorem eq_or_collides_of_key_eq (hd : d ∈ m.dependencyDeclarations)
    (hd' : d' ∈ m.dependencyDeclarations) (hkey : d.key = d'.key) : d = d' ∨ d.Collides d' := by
  rcases Context.dependencyKey_eq_iff.mp hkey with ⟨hpackage, hname⟩ | hcollides
  · exact .inl (dependencyDeclaration_eq hd hd' hpackage hname)
  · exact .inr hcollides

/-- No names are declared twice. -/
theorem pairwise_dependencyDeclarations (m : Manifest) :
    m.dependencyDeclarations.Pairwise fun d d' =>
      ¬ (d.package = d'.package ∧ d.name = d'.name) := by
  rw [dependencyDeclarations, dependencyDeclarationsOf, List.pairwise_flatMap]
  constructor
  · intro e _
    rw [List.pairwise_map]
    refine e.2.dependencies.sorted.imp ?_
    intro e' e'' hlt hsame
    have hname : e'.1 = e''.1 := hsame.2
    exact String.lt_irrefl _ (hname ▸ hlt)
  · refine m.resolved.sorted.imp ?_
    intro e e' hlt d hd d' hd' hsame
    obtain ⟨_, -, rfl⟩ := List.mem_map.mp hd
    obtain ⟨_, -, rfl⟩ := List.mem_map.mp hd'
    have hpackage : e.1 = e'.1 := hsame.1
    exact String.lt_irrefl _ (hpackage ▸ hlt)

/-- The keys of the declarations are distinct if no two declarations collide. -/
theorem nodup_keys_iff :
    (m.dependencyDeclarations.map DependencyDeclaration.key).Nodup ↔
      m.dependencyDeclarations.Pairwise fun d d' => ¬ d.Collides d' := by
  rw [List.nodup_iff_pairwise_ne, List.pairwise_map]
  have hnames := m.pairwise_dependencyDeclarations
  constructor
  · intro hkeys
    refine hkeys.imp fun {d d'} hne hcollides => hne ?_
    exact Context.dependencyKey_eq_iff.mpr (.inr hcollides)
  · intro hcollide
    refine (hnames.and hcollide).imp fun {d d'} h hkey => ?_
    rcases Context.dependencyKey_eq_iff.mp hkey with hsame | hcollides
    · exact h.1 hsame
    · exact h.2 hcollides

end Manifest

/-! ## Records -/

/-- The record of a declaration: it is composed from it, and tells its package. -/
structure Context.Represents (ctx : Context) (d : DependencyDeclaration) (r : DependencyRecord) :
    Prop where
  composed : (ctx.composeDependency d.package d.name d.spec).result = .ok r
  package : r.packageName = d.package

/-- What is composed from a declaration tells its package. -/
theorem Context.represents_of_composed {ctx : Context} {d : DependencyDeclaration}
    {r : DependencyRecord} (h : (ctx.composeDependency d.package d.name d.spec).result = .ok r) :
    ctx.Represents d r := by
  refine ⟨h, ?_⟩
  rw [composeDependency_result] at h
  split at h
  · cases h
  · obtain ⟨parameters, -, rfl⟩ := Except.map_eq_ok_iff.mp h
    rfl

/-- The dependencies of packages that were composed are the records of their declarations, written
in turn.

**Proof sketch.** Induction on the packages, for all maps to write to: the union with the
dependencies of one package writes the records of its declarations. -/
theorem Context.exists_records_of_parts [Host] {ctx : Context} {t : FileTree}
    {specs : List (String × PackageSpec)} {parts : List PackageParts}
    (h : List.Forall₂ (fun e x => ctx.Gives e.1 e.2 t x) specs parts) :
    ∃ records : List (String × DependencyRecord),
      List.Forall₂ (fun d e => e.1 = d.key ∧ ctx.Represents d e.2)
        (dependencyDeclarationsOf specs) records ∧
      ∀ init : KeyMap DependencyRecord,
        (parts.map (·.dependencies)).foldl KeyMap.union init = init.insertAll records := by
  induction h with
  | nil => exact ⟨[], .nil, fun _ => rfl⟩
  | @cons e x specs parts hx _ ih =>
    obtain ⟨package, spec⟩ := e
    obtain ⟨records, hrecords, hwritten⟩ := ih
    have hdependencies := hx.dependencies
    rw [composeDependencies_result, Except.map_eq_ok_iff] at hdependencies
    obtain ⟨own, hown, hx⟩ := hdependencies
    have hfirst : List.Forall₂ (fun d e => e.1 = d.key ∧ ctx.Represents d e.2)
        (spec.dependencies.entries.map fun e' => ⟨package, e'.1, e'.2⟩) own := by
      rw [List.forall₂_map_left_iff]
      refine (Except.mapM_eq_ok_iff.mp hown).imp fun e' r hr => ?_
      obtain ⟨d, hd, rfl⟩ := Except.map_eq_ok_iff.mp hr
      exact ⟨rfl, represents_of_composed hd⟩
    refine ⟨own ++ records, List.rel_append hfirst hrecords, fun init => ?_⟩
    rw [List.map_cons, List.foldl_cons, ← hx, KeyMap.union_ofList, hwritten,
      KeyMap.insertAll_append]

namespace Manifest

/-- Records have the keys of their declarations. -/
theorem keys_of_records {ctx : Context} {declarations : List DependencyDeclaration}
    {records : List (String × DependencyRecord)}
    (h : List.Forall₂ (fun d e => e.1 = d.key ∧ ctx.Represents d e.2) declarations records) :
    records.map (·.1) = declarations.map DependencyDeclaration.key := by
  rw [← List.forall₂_eq_eq_eq, List.forall₂_map_left_iff, List.forall₂_map_right_iff]
  exact h.flip.imp fun e d he => he.1

variable {m : Manifest} {settings : Settings} {vars : Variables} {t : FileTree} {plan : Plan}

/-- **The dependencies of a plan** are the records of all declarations, written in turn. -/
theorem exists_dependency_records [Host]
    (h : (m.composePlan settings vars).resultAt t = .ok plan) :
    ∃ ctx records, Context.ofManifest settings vars m = .ok ctx ∧
      List.Forall₂ (fun d e => e.1 = d.key ∧ ctx.Represents d e.2) m.dependencyDeclarations
        records ∧
      plan.dependencies = .ofList records := by
  obtain ⟨ctx, parts, hctx, hparts, rfl⟩ := composePlan_eq_ok_iff.mp h
  obtain ⟨records, hrecords, hwritten⟩ := Context.exists_records_of_parts hparts
  exact ⟨ctx, records, hctx, hrecords, hwritten .empty⟩

/-- A plan has a record for each declaration if no two declarations collide. -/
theorem size_dependencies_iff [Host] (h : (m.composePlan settings vars).resultAt t = .ok plan) :
    plan.dependencies.size = m.dependencyDeclarations.length ↔
      m.dependencyDeclarations.Pairwise fun d d' => ¬ d.Collides d' := by
  obtain ⟨ctx, records, -, hrecords, hplan⟩ := exists_dependency_records h
  have hkeys : records.map (·.1) = m.dependencyDeclarations.map DependencyDeclaration.key :=
    keys_of_records hrecords
  have hlength : m.dependencyDeclarations.length =
      (m.dependencyDeclarations.map DependencyDeclaration.key).length := (List.length_map _).symm
  rw [hplan, KeyMap.size_ofList, hkeys, ← nodup_keys_iff, ← List.dedup_eq_self, hlength]
  constructor
  · exact (List.dedup_sublist _).eq_of_length
  · intro heq
    rw [heq]

/-- That is so if no package has a colon in its name. -/
theorem size_dependencies_of_no_colon [Host]
    (h : (m.composePlan settings vars).resultAt t = .ok plan)
    (hcolon : ∀ name spec, m.resolved.get? name = some spec → ':' ∉ name.toList) :
    plan.dependencies.size = m.dependencyDeclarations.length := by
  have hdeclared : ∀ d ∈ m.dependencyDeclarations, ':' ∉ d.package.toList := by
    intro d hd
    obtain ⟨spec, hspec, -⟩ := mem_dependencyDeclarations_iff.mp hd
    exact hcolon d.package spec hspec
  refine (size_dependencies_iff h).mpr (List.pairwise_of_forall_mem_list ?_)
  intro d hd d' hd'
  exact DependencyDeclaration.not_collides_of_no_colon (hdeclared d hd) (hdeclared d' hd')

/-- **No dependency is lost unless two declarations collide.**  A plan has as many dependencies as
the document declares if no two declarations collide, and otherwise it has not; a declaration
that collides with no other has its record, and there are no records but those of declarations.

**Proof sketch.** The map of the records has one entry for each of their keys, and the keys are
those of the declarations.  Declarations with one key are under the same names, and so one, or
they collide. -/
theorem composePlan_dependencies [Host]
    (h : (m.composePlan settings vars).resultAt t = .ok plan) :
    ∃ ctx, Context.ofManifest settings vars m = .ok ctx ∧
      (plan.dependencies.size = m.dependencyDeclarations.length ↔
        m.dependencyDeclarations.Pairwise fun d d' => ¬ d.Collides d') ∧
      (∀ d ∈ m.dependencyDeclarations, (∀ d' ∈ m.dependencyDeclarations, ¬ d'.Collides d) →
        ∃ r, plan.dependencies.get? d.key = some r ∧ ctx.Represents d r) ∧
      ∀ key r, plan.dependencies.get? key = some r →
        ∃ d ∈ m.dependencyDeclarations, d.key = key ∧ ctx.Represents d r := by
  obtain ⟨ctx, records, hctx, hrecords, hplan⟩ := exists_dependency_records h
  have hsource : ∀ key r, plan.dependencies.get? key = some r →
      ∃ d ∈ m.dependencyDeclarations, d.key = key ∧ ctx.Represents d r := by
    intro key r hr
    rw [hplan] at hr
    obtain ⟨d, hd, hkey, hrepresents⟩ :=
      exists_of_forall₂ hrecords (KeyMap.mem_of_get?_ofList hr)
    exact ⟨d, hd, hkey.symm, hrepresents⟩
  refine ⟨ctx, hctx, size_dependencies_iff h, ?_, hsource⟩
  intro d hd halone
  have hwritten : d.key ∈ records.map (·.1) := by
    rw [keys_of_records hrecords]
    exact List.mem_map_of_mem hd
  obtain ⟨r, hr⟩ := KeyMap.exists_get?_ofList_iff.mpr hwritten
  rw [← hplan] at hr
  obtain ⟨d', hd', hkey, hrepresents⟩ := hsource d.key r hr
  obtain rfl : d' = d := (eq_or_collides_of_key_eq hd' hd hkey).resolve_right (halone d' hd')
  exact ⟨r, hr, hrepresents⟩

attribute [local instance] oneHost

/-- Two packages with dependencies of one name. -/
def sharedNameText : String :=
  "packages:\n  a:\n    dependencies:\n      c:\n        location: /whisk.system/utils\n" ++
  "  b:\n    dependencies:\n      c:\n        location: /whisk.system/alarms\n"

/-- Their dependencies are all in the plan. -/
theorem composePlan_dependencies_sharedName :
    ∃ m plan, parse sharedNameText = .ok m ∧
      (m.composePlan {} {}).resultAt default = .ok plan ∧
      m.dependencyDeclarations.length = 2 ∧
      ∃ ctx, Context.ofManifest {} {} m = .ok ctx ∧
        (plan.dependencies.size = m.dependencyDeclarations.length ↔
          m.dependencyDeclarations.Pairwise fun d d' => ¬ d.Collides d') ∧
        (∀ d ∈ m.dependencyDeclarations, (∀ d' ∈ m.dependencyDeclarations, ¬ d'.Collides d) →
          ∃ r, plan.dependencies.get? d.key = some r ∧ ctx.Represents d r) ∧
        ∀ key r, plan.dependencies.get? key = some r →
          ∃ d ∈ m.dependencyDeclarations, d.key = key ∧ ctx.Represents d r := by
  obtain ⟨m, hm, htest⟩ := Except.exists_of_any (r := parse sharedNameText)
    (p := fun m => m.dependencyDeclarations.length == 2 &&
      ((m.composePlan {} {}).resultAt default).isOk) (by decide +kernel)
  simp only [Bool.and_eq_true, beq_iff_eq] at htest
  obtain ⟨hlength, hok⟩ := htest
  obtain ⟨plan, hplan⟩ := Except.exists_of_isOk hok
  exact ⟨m, plan, hm, hplan, hlength, composePlan_dependencies hplan⟩

/-- Two packages with dependencies that collide. -/
def collidingText : String :=
  "packages:\n  a:\n    dependencies:\n      'b:c':\n        location: /whisk.system/utils\n" ++
  "  'a:b':\n    dependencies:\n      c:\n        location: /whisk.system/alarms\n"

/-- The keys of the dependencies of a plan, and their packages. -/
def keyedPackages (plan : Plan) : List (String × String) :=
  plan.dependencies.entries.map fun e => (e.1, e.2.packageName)

/-- Whether a document declares the two, and has a plan with one of them. -/
def losesDependency (m : Manifest) : Bool :=
  m.dependencyDeclarations.map (·.package) == ["a", "a:b"] &&
    match (m.composePlan {} {}).resultAt default with
    | .ok plan => keyedPackages plan == [("a:b:c", "a:b")]
    | .error _ => false

/-- **A plan can lack a dependency**: of two declarations that collide, one has no record. -/
theorem composePlan_dependency_lost :
    ∃ m plan d, parse collidingText = .ok m ∧
      (m.composePlan {} {}).resultAt default = .ok plan ∧
      d ∈ m.dependencyDeclarations ∧ m.dependencyDeclarations.length = 2 ∧
      plan.dependencies.size = 1 ∧
      ∀ key r, plan.dependencies.get? key = some r → r.packageName ≠ d.package := by
  obtain ⟨m, hm, htest⟩ := Except.exists_of_any (r := parse collidingText)
    (p := losesDependency) (by decide +kernel)
  obtain ⟨hpackages, htest⟩ := Bool.and_eq_true_iff.mp htest
  have hpackages : m.dependencyDeclarations.map (·.package) = ["a", "a:b"] := eq_of_beq hpackages
  obtain ⟨plan, hplan, hkeyed⟩ : ∃ plan, (m.composePlan {} {}).resultAt default = .ok plan ∧
      keyedPackages plan = [("a:b:c", "a:b")] := by
    cases hplan : (m.composePlan {} {}).resultAt default with
    | error failure => simp [hplan] at htest
    | ok plan => exact ⟨plan, rfl, by simpa [hplan] using htest⟩
  obtain ⟨d, hd, hpackage⟩ : ∃ d ∈ m.dependencyDeclarations, d.package = "a" := by
    have hmem : "a" ∈ m.dependencyDeclarations.map (·.package) := by
      rw [hpackages]
      exact List.mem_cons_self
    exact List.mem_map.mp hmem
  refine ⟨m, plan, d, hm, hplan, hd, ?_, ?_, fun key r hr hsame => ?_⟩
  · simpa using congrArg List.length hpackages
  · simpa [keyedPackages, KeyMap.size] using congrArg List.length hkeyed
  · have hrecord : (key, r.packageName) ∈ [("a:b:c", "a:b")] := by
      rw [← hkeyed]
      exact List.mem_map.mpr ⟨(key, r), KeyMap.mem_entries_iff.mpr hr, rfl⟩
    rw [hsame, hpackage] at hrecord
    simp at hrecord

end Manifest

end DeployPlan
