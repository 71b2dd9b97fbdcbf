import DeployPlan.Proofs.Compose.Build

/-!
# How a descriptor addresses triggers

The references in the name of a trigger are replaced when a manifest is composed, but not those in
the names of a descriptor.  So a descriptor addresses a trigger by the name that it has in the plan,
whatever the manifest calls it; one that repeats the spelling of the manifest can miss it.

## Main definitions

* `Manifest.givenTriggers` — what the packages of a descriptor give a trigger.

## Main results

* `buildPlan_trigger` — the triggers that a manifest declares, before and after an override.
* `buildPlan_addresses` — a trigger gets the inputs that a descriptor gives its name in the plan.
* `buildPlan_trigger_missed` — one that spells it as the manifest does can miss it.
-/

set_option autoImplicit false

namespace DeployPlan

open KeyValues

/-! ## Triggers -/

/-- What the packages of a descriptor give the trigger of a name, in turn. -/
def Manifest.givenTriggers (d : Manifest) (name : String) : List TriggerSpec :=
  d.resolved.entries.filterMap fun e => e.2.triggers.get? name

/-- A declared trigger is in the plan, under its name with the references replaced. -/
theorem Manifest.exists_trigger [Host] {m : Manifest} {settings : Settings} {vars : Variables}
    {t : FileTree} {plan : Plan} (h : (m.composePlan settings vars).resultAt t = .ok plan)
    {package key : String} {spec : PackageSpec} {trigger : TriggerSpec}
    (hspec : m.resolved.get? package = some spec) (hkey : spec.triggers.get? key = some trigger) :
    ∃ x, plan.triggers.get? (Interpolation.expand vars key) = some x := by
  have hdeclared : ∃ trigger,
      (m.declaredTriggers vars).get? (Interpolation.expand vars key) = some trigger := by
    refine KeyMap.exists_get?_ofList_iff.mpr ?_
    have hpackage := KeyMap.mem_entries_iff.mpr hspec
    have htrigger := KeyMap.mem_entries_iff.mpr hkey
    have hmem : (key, trigger) ∈ (m.resolved.entries.map fun e => e.2.triggers.entries).flatten :=
      List.mem_flatten_of_mem (List.mem_map_of_mem hpackage) htrigger
    exact List.mem_map.mpr ⟨_, List.mem_map.mpr ⟨(key, trigger), hmem, rfl⟩, rfl⟩
  obtain ⟨trigger', htrigger'⟩ := hdeclared
  -- a law that requires nothing still tells which triggers a plan has
  have hfollows : ∀ ctx : Context, ctx.FollowsAt (.ofActions fun _ _ => True) t :=
    fun ctx => Context.followsAt_ofActions fun _ _ _ _ _ => trivial
  have hobeys := composePlan_obeys h fun ctx _ => hfollows ctx
  obtain ⟨x, hx, -⟩ := (hobeys.triggers.rel fun _ _ _ h => h).get? htrigger'
  exact ⟨x, hx⟩

section Plans

variable [Host] {settings : Settings} {vars : Variables} {manifest path : String}
  {t : FileTree} {plan : Plan} {m descriptor : Manifest}

/-- **A declared trigger in a plan that is built**: what is composed, overridden in turn by all that
the descriptor gives the name that the trigger has in the plan. -/
theorem buildPlan_trigger
    (h : (buildPlan settings vars manifest (some path)).resultAt t = .ok plan)
    (hm : (Manifest.load manifest).resultAt t = .ok m)
    (hdescriptor : (Manifest.load path).resultAt t = .ok descriptor)
    {package key : String} {spec : PackageSpec} {trigger : TriggerSpec}
    (hspec : m.resolved.get? package = some spec) (hkey : spec.triggers.get? key = some trigger) :
    ∃ composed x, (m.composePlan settings vars).resultAt t = .ok composed ∧
      composed.triggers.get? (Interpolation.expand vars key) = some x ∧
      plan.triggers.get? (Interpolation.expand vars key) =
        some ((descriptor.givenTriggers (Interpolation.expand vars key)).foldl
          (fun x given => Override.overriddenEntity vars given.inputs given.annotations x) x) := by
  obtain ⟨m', composed, hm', hcomposed, descriptor', hdescriptor', -, rfl⟩ :=
    buildPlan_eq_ok_iff.mp h
  obtain rfl : m' = m := Except.ok.inj (hm'.symm.trans hm)
  obtain rfl : descriptor' = descriptor := Except.ok.inj (hdescriptor'.symm.trans hdescriptor)
  obtain ⟨x, hx⟩ := Manifest.exists_trigger hcomposed hspec hkey
  refine ⟨composed, x, hcomposed, hx, ?_⟩
  rw [Override.overridden, KeyMap.get?_mapWithKey, hx]
  rfl

/-- **A descriptor addresses a trigger by its name in the plan.**  If one of its packages spells a
trigger so, each input there that is not null is the parameter of the trigger; if none does, the
trigger is as it was composed.

**Proof sketch.** Triggers are written under their names with the references replaced, and looked up
under the names of the descriptor as they are.  Inputs come first among merged parameters, each
under its own key. -/
theorem buildPlan_addresses
    (h : (buildPlan settings vars manifest (some path)).resultAt t = .ok plan)
    (hm : (Manifest.load manifest).resultAt t = .ok m)
    (hdescriptor : (Manifest.load path).resultAt t = .ok descriptor)
    {package key : String} {spec : PackageSpec} {trigger : TriggerSpec}
    (hspec : m.resolved.get? package = some spec) (hkey : spec.triggers.get? key = some trigger) :
    ∃ composed x y, (m.composePlan settings vars).resultAt t = .ok composed ∧
      composed.triggers.get? (Interpolation.expand vars key) = some x ∧
      plan.triggers.get? (Interpolation.expand vars key) = some y ∧
      (descriptor.givenTriggers (Interpolation.expand vars key) = [] → y = x) ∧
      ∀ given, descriptor.givenTriggers (Interpolation.expand vars key) = [given] →
        ∀ input param v j, given.inputs.get? input = some param → param.rawValue? = some v →
          (v.resolved vars).nonNull? = some j → find? input y.parameters = some ⟨input, j⟩ := by
  obtain ⟨composed, x, hcomposed, hx, hy⟩ := buildPlan_trigger h hm hdescriptor hspec hkey
  refine ⟨composed, x, _, hcomposed, hx, hy, ?_, ?_⟩
  · intro hnone
    rw [hnone]
    rfl
  · intro given hone input param v j hparam hv hj
    rw [hone]
    exact Override.find?_mergeInputs hparam hv hj x.parameters

end Plans

/-! ## Names with references -/

attribute [local instance] oneHost

/-- A manifest with a trigger the name of which is a reference, a descriptor that spells the trigger
in the same way, and one that spells it as it is in the plan. -/
def FileTree.tickTexts : FileTree := .ofTexts
  [("manifest.yaml", "packages:\n  demo:\n    version: 1.0.0\n    license: Apache-2.0\n" ++
      "    triggers:\n      $\x7bT\x7d:\n        inputs:\n          cron: a\n"),
    ("deployment.yaml", "packages:\n  demo:\n    triggers:\n      $\x7bT\x7d:\n" ++
      "        inputs:\n          cron: b\n"),
    ("named.yaml", "packages:\n  demo:\n    triggers:\n      tick:\n" ++
      "        inputs:\n          cron: b\n")]

namespace KeyValues

/-- The text under a key. -/
def text? (key : String) (list : List KeyValue) : Option String :=
  (find? key list).bind fun kv => kv.value.str?

/-- It is the value of the entry that is found there. -/
theorem find?_of_text? {key text : String} {list : List KeyValue}
    (h : text? key list = some text) : find? key list = some ⟨key, .str text⟩ := by
  obtain ⟨⟨key', value⟩, hfound, hvalue⟩ := Option.bind_eq_some_iff.mp h
  have hkey := List.find?_some (p := fun kv : KeyValue => kv.key == key) hfound
  obtain rfl : key' = key := eq_of_beq hkey
  cases value with
  | str s =>
    cases hvalue
    exact hfound
  | _ => cases hvalue

end KeyValues

/-- The variable that the reference is to. -/
def Variables.tick : Variables := { own := .single "T" "tick" }

namespace FileTree

/-- Whether the trigger is declared, given by one package under a name, and in a plan with a
text. -/
def tickTest (name text : String) (m descriptor : Manifest) (plan : Plan) : Bool :=
  (m.resolved.get? "demo").any (fun spec => spec.triggers.contains "$\x7bT\x7d") &&
    ((descriptor.givenTriggers name).map (fun given =>
        text? "cron" (Override.inputEntries .tick given.inputs)) == [some "b"] &&
      (plan.triggers.get? (Interpolation.expand .tick "$\x7bT\x7d")).bind
        (fun x => text? "cron" x.parameters) == some text)

/-- The plan of the manifest with either descriptor. -/
theorem tickTexts_build (path name text : String)
    (h : (match (Manifest.load "manifest.yaml").resultAt tickTexts,
        (Manifest.load path).resultAt tickTexts,
        (buildPlan {} .tick "manifest.yaml" (some path)).resultAt tickTexts with
      | .ok m, .ok descriptor, .ok plan => tickTest name text m descriptor plan
      | _, _, _ => false) = true) :
    ∃ m descriptor plan spec trigger given x,
      (Manifest.load "manifest.yaml").resultAt tickTexts = .ok m ∧
      (Manifest.load path).resultAt tickTexts = .ok descriptor ∧
      (buildPlan {} .tick "manifest.yaml" (some path)).resultAt tickTexts = .ok plan ∧
      m.resolved.get? "demo" = some spec ∧ spec.triggers.get? "$\x7bT\x7d" = some trigger ∧
      descriptor.givenTriggers name = [given] ∧
      find? "cron" (Override.inputEntries .tick given.inputs) = some ⟨"cron", .str "b"⟩ ∧
      plan.triggers.get? (Interpolation.expand .tick "$\x7bT\x7d") = some x ∧
      find? "cron" x.parameters = some ⟨"cron", .str text⟩ := by
  cases hm : (Manifest.load "manifest.yaml").resultAt tickTexts with
  | error failure => simp [hm] at h
  | ok m =>
    cases hdescriptor : (Manifest.load path).resultAt tickTexts with
    | error failure => simp [hm, hdescriptor] at h
    | ok descriptor =>
      cases hplan : (buildPlan {} .tick "manifest.yaml" (some path)).resultAt tickTexts with
      | error failure => simp [hm, hdescriptor, hplan] at h
      | ok plan =>
        simp only [hm, hdescriptor, hplan, tickTest, Bool.and_eq_true, beq_iff_eq] at h
        obtain ⟨hdeclared, hgiven, htext⟩ := h
        obtain ⟨spec, hspec, hkey⟩ := (Option.any_eq_true _ _).mp hdeclared
        obtain ⟨trigger, htrigger⟩ := KeyMap.contains_iff.mp hkey
        obtain ⟨given, hone, hb⟩ := List.map_eq_singleton_iff.mp hgiven
        obtain ⟨x, hx, htext⟩ := Option.bind_eq_some_iff.mp htext
        exact ⟨m, descriptor, plan, spec, trigger, given, x, rfl, rfl, rfl, hspec, htrigger,
          hone, find?_of_text? hb, hx, find?_of_text? htext⟩

end FileTree

/-- The descriptor with the name in the plan addresses the trigger. -/
theorem buildPlan_addresses_tick :
    ∃ m descriptor plan spec trigger composed x y,
      (Manifest.load "manifest.yaml").resultAt .tickTexts = .ok m ∧
      (Manifest.load "named.yaml").resultAt .tickTexts = .ok descriptor ∧
      (buildPlan {} .tick "manifest.yaml" (some "named.yaml")).resultAt .tickTexts = .ok plan ∧
      m.resolved.get? "demo" = some spec ∧ spec.triggers.get? "$\x7bT\x7d" = some trigger ∧
      (m.composePlan {} .tick).resultAt .tickTexts = .ok composed ∧
      composed.triggers.get? (Interpolation.expand .tick "$\x7bT\x7d") = some x ∧
      plan.triggers.get? (Interpolation.expand .tick "$\x7bT\x7d") = some y ∧
      (descriptor.givenTriggers (Interpolation.expand .tick "$\x7bT\x7d") = [] → y = x) ∧
      ∀ given, descriptor.givenTriggers (Interpolation.expand .tick "$\x7bT\x7d") = [given] →
        ∀ input param v j, given.inputs.get? input = some param → param.rawValue? = some v →
          (v.resolved .tick).nonNull? = some j → find? input y.parameters = some ⟨input, j⟩ := by
  have hmanifest : FileTree.tickTexts.readText "manifest.yaml" = .ok _ :=
    FileTree.readText_ofTexts (by decide +kernel) rfl
  have hnamed : FileTree.tickTexts.readText "named.yaml" = .ok _ :=
    FileTree.readText_ofTexts (by decide +kernel) rfl
  obtain ⟨m, descriptor, plan, spec, trigger, -, -, hm, hdescriptor, hplan, hspec, htrigger, -⟩ :=
    FileTree.tickTexts_build "named.yaml" "tick" "b" (by
      rw [buildPlan_some_resultAt, Manifest.load_resultAt hmanifest,
        Manifest.load_resultAt hnamed]
      decide +kernel)
  obtain ⟨composed, x, y, h⟩ := buildPlan_addresses hplan hm hdescriptor hspec htrigger
  exact ⟨m, descriptor, plan, spec, trigger, composed, x, y, hm, hdescriptor, hplan, hspec,
    htrigger, h⟩

/-- **A descriptor that spells a trigger as the manifest does can miss it.**  The only package of
the descriptor that names the trigger gives it another text, which the plan does not have. -/
theorem buildPlan_trigger_missed :
    ∃ m descriptor plan spec trigger given x,
      (Manifest.load "manifest.yaml").resultAt .tickTexts = .ok m ∧
      (Manifest.load "deployment.yaml").resultAt .tickTexts = .ok descriptor ∧
      (buildPlan {} .tick "manifest.yaml" (some "deployment.yaml")).resultAt .tickTexts =
        .ok plan ∧
      m.resolved.get? "demo" = some spec ∧ spec.triggers.get? "$\x7bT\x7d" = some trigger ∧
      descriptor.givenTriggers "$\x7bT\x7d" = [given] ∧
      find? "cron" (Override.inputEntries .tick given.inputs) = some ⟨"cron", .str "b"⟩ ∧
      plan.triggers.get? (Interpolation.expand .tick "$\x7bT\x7d") = some x ∧
      find? "cron" x.parameters = some ⟨"cron", .str "a"⟩ := by
  have hmanifest : FileTree.tickTexts.readText "manifest.yaml" = .ok _ :=
    FileTree.readText_ofTexts (by decide +kernel) rfl
  have hdeployment : FileTree.tickTexts.readText "deployment.yaml" = .ok _ :=
    FileTree.readText_ofTexts (by decide +kernel) rfl
  refine FileTree.tickTexts_build "deployment.yaml" "$\x7bT\x7d" "a" ?_
  rw [buildPlan_some_resultAt, Manifest.load_resultAt hmanifest,
    Manifest.load_resultAt hdeployment]
  decide +kernel

end DeployPlan
