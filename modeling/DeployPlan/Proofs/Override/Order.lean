import DeployPlan.Proofs.Override.Effect

/-!
# The order of overrides

Two descriptors that have no package and no trigger in common can override a plan in either order.
What one of them changes, the other does not touch; and what the other looks at to decide how far
it goes and whether it fails, the names of packages and the keys of annotations, no override
changes.

## Main definitions

* `Manifest.triggerNames` — the triggers that a document names, in all packages.
* `Manifest.Apart` — two documents have no package and no trigger in common.

## Main results

* `Revision.Meets.andThen_comm` — two revisions whose final values do not depend on their order
  succeed in both orders or in none, and leave the same.
* `Override.overridden_comm` — descriptors that are apart override a plan in either order.
* `Override.apply_comm` — so do two overrides, failures included.
-/

set_option autoImplicit false

namespace DeployPlan

/-! ## Two revisions in either order -/

/-- A search gives nothing but failures, so that it succeeds if there are none. -/
theorem Report.firstOf_eq_ok_iff {failures : List Failure} :
    firstOf failures = .ok () ↔ failures = [] := by
  cases failures <;> simp [firstOf]

namespace Revision.Meets

variable {σ : Type} {R : σ → σ → Prop} {a b : Revision σ} {fa fb : σ → List Failure}
  {ga gb : σ → σ}

/-- Two revisions in turn succeed if each of them would alone. -/
theorem andThen_ok_iff (hR : ∀ s t u, R s t → R t u → R s u) (ha : Meets R a fa ga)
    (hb : Meets R b fb gb) (s : σ) :
    (Revision.andThen a b s).2.result = .ok () ↔
      (a s).2.result = .ok () ∧ (b s).2.result = .ok () := by
  rw [(ha.andThen hR hb).result_eq, ha.result_eq, hb.result_eq]
  simp only [Report.firstOf_eq_ok_iff, List.append_eq_nil_iff]

/-- **Two revisions in either order** succeed in both orders or in none, and leave the same if
their final values do not depend on the order. -/
theorem andThen_comm (hR : ∀ s t u, R s t → R t u → R s u) (ha : Meets R a fa ga)
    (hb : Meets R b fb gb) (hcomm : ∀ s, gb (ga s) = ga (gb s)) (s : σ) :
    ((Revision.andThen a b s).2.result = .ok () ↔ (Revision.andThen b a s).2.result = .ok ()) ∧
      ((Revision.andThen a b s).2.result = .ok () →
        (Revision.andThen a b s).1 = (Revision.andThen b a s).1) := by
  have hiff : (Revision.andThen a b s).2.result = .ok () ↔
      (Revision.andThen b a s).2.result = .ok () := by
    rw [andThen_ok_iff hR ha hb, andThen_ok_iff hR hb ha, and_comm]
  refine ⟨hiff, fun hok => ?_⟩
  have hab : (Revision.andThen a b s).1 = gb (ga s) := (ha.andThen hR hb).fst_eq_of_ok hok
  have hba : (Revision.andThen b a s).1 = ga (gb s) :=
    (hb.andThen hR ha).fst_eq_of_ok (hiff.mp hok)
  rw [hab, hba, hcomm]

end Revision.Meets

/-! ## Descriptors that are apart -/

/-- The triggers that a document names, in all packages. -/
def Manifest.triggerNames (m : Manifest) : List String :=
  m.resolved.entries.flatMap fun e => e.2.triggers.keys

/-- **Two documents are apart** if they have no package and no trigger in common. -/
structure Manifest.Apart (d d' : Manifest) : Prop where
  packages : ∀ name ∈ d.resolved.keys, name ∉ d'.resolved.keys
  triggers : ∀ name ∈ d.triggerNames, name ∉ d'.triggerNames

namespace Override

variable (settings : Settings) (vars : Variables) {d d' : Manifest}

/-- No package is looked up that the descriptor does not name. -/
theorem find?_reached_of_not_mem {name : String} (h : name ∉ d.resolved.keys)
    (packages : KeyMap PackagePlan) :
    Entries.find? name (reached settings d.resolved.entries packages) = none := by
  refine Entries.find?_eq_none_of_forall_ne fun e he hname => h ?_
  have hmem : e ∈ d.resolved.entries :=
    (reached_sublist settings d.resolved.entries packages).subset he
  exact hname ▸ List.mem_map_of_mem hmem

/-- A trigger that no package names stays as it is. -/
theorem overriddenTrigger_of_not_mem {name : String} (h : name ∉ d.triggerNames) (t : Trigger) :
    overriddenTrigger vars d.resolved.entries name t = t := by
  have hnone : (d.resolved.entries.filterMap fun e => e.2.triggers.get? name) = [] := by
    rw [List.filterMap_eq_nil_iff]
    intro e he
    by_contra hsome
    obtain ⟨spec, hspec⟩ := Option.ne_none_iff_exists'.mp hsome
    exact h (List.mem_flatMap.mpr ⟨e, he, KeyMap.mem_keys_iff.mpr ⟨spec, hspec⟩⟩)
  rw [overriddenTrigger, hnone]
  rfl

/-- **Descriptors that are apart override a plan in either order.**

**Proof sketch.** One entity at a time: each package and each trigger is changed by one of the two
at most, and the packages that one looks up are the same before and after the other. -/
theorem overridden_comm (h : d.Apart d') (plan : Plan) :
    overridden settings vars d' (overridden settings vars d plan) =
      overridden settings vars d (overridden settings vars d' plan) := by
  simp only [overridden, reached_mapWithKey, KeyMap.mapWithKey_mapWithKey]
  congr 1
  · refine KeyMap.mapWithKey_congr fun name q _ => ?_
    by_cases hname : name ∈ d.resolved.keys
    · rw [find?_reached_of_not_mem settings (h.packages name hname)]
    · rw [find?_reached_of_not_mem settings hname]
  · refine KeyMap.mapWithKey_congr fun name t _ => ?_
    by_cases hname : name ∈ d.triggerNames
    · simp only [overriddenTrigger_of_not_mem vars (h.triggers name hname)]
    · simp only [overriddenTrigger_of_not_mem vars hname]

/-- **Two overrides in either order.**  If the descriptors are apart, one after the other succeeds
in both orders or in none, and if it does, both orders leave the same plan. -/
theorem apply_comm (h : d.Apart d') (plan : Plan) :
    let first := Revision.andThen (apply settings vars d) (apply settings vars d') plan
    let second := Revision.andThen (apply settings vars d') (apply settings vars d) plan
    (first.2.result = .ok () ↔ second.2.result = .ok ()) ∧
      (first.2.result = .ok () → first.1 = second.1) :=
  (apply_meets settings vars d).andThen_comm Plan.Revised.trans (apply_meets settings vars d')
    (overridden_comm settings vars h) plan

/-- A plan with two packages and two triggers. -/
def marketPlan : Plan where
  packages := .ofList
    [("cart", { package := ⟨"cart", "_", false, [⟨"size", .int 1⟩], []⟩ }),
      ("shop", { package := ⟨"shop", "_", false, [], [⟨"owner", .str "a"⟩]⟩ })]
  triggers := .ofList
    [("tick", ⟨"tick", "_", false, [⟨"n", .int 1⟩], []⟩),
      ("tock", ⟨"tock", "_", false, [⟨"n", .int 1⟩], []⟩)]

/-- A descriptor of one package and one trigger, with a package before them that the plan lacks. -/
def cartDescriptor : Manifest where
  packages := .ofList
    [("bank", { triggers := .single "tick" { inputs := .single "n" (.literal (.int 2)) } }),
      ("cart", { inputs := .single "size" (.literal (.int 2)) })]

/-- A descriptor of the others. -/
def ownerDescriptor : Manifest where
  packages := .single "shop"
    { annotations := .single "owner" (.str "b")
      triggers := .single "tock" { inputs := .single "n" (.literal (.int 3)) } }

/-- Both orders succeed and leave one plan. -/
theorem marketPlan_either_order :
    cartDescriptor.Apart ownerDescriptor ∧
      let settings : Settings := { skipUnmatchedPackages := true }
      let first := Revision.andThen (apply settings {} cartDescriptor)
        (apply settings {} ownerDescriptor) marketPlan
      let second := Revision.andThen (apply settings {} ownerDescriptor)
        (apply settings {} cartDescriptor) marketPlan
      first.2.result = .ok () ∧ second.2.result = .ok () ∧ first.1 = second.1 := by
  have hapart : cartDescriptor.Apart ownerDescriptor := ⟨by decide, by decide⟩
  obtain ⟨hiff, hsame⟩ :=
    apply_comm { skipUnmatchedPackages := true } {} hapart marketPlan
  have hok : (Revision.andThen (apply { skipUnmatchedPackages := true } {} cartDescriptor)
      (apply { skipUnmatchedPackages := true } {} ownerDescriptor) marketPlan).2.result =
        .ok () := by rfl
  exact ⟨hapart, hok, hiff.mp hok, hsame hok⟩

end Override

end DeployPlan
