import DeployPlan.Proofs.Override.Effect

/-!
# The outcome of an override

What an override leaves if it does not fail, and when it fails and how, both told from the plan
before it; and what any number of overrides leave.

## Main definitions

* `Override.firstAbsent?` — the first annotation that an entity is given but does not have.
* `Override.Call`, `Override.run` — overrides in turn.

## Main results

* `Override.apply_leaves_overridden` — an override that does not fail overrides every entity that
  it reaches, and leaves all else alone.
* `Override.apply_fails_iff_absent_key` — an override fails if and only if an entity is given an
  annotation that it does not have; the failure names the first.
* `Override.run_revised` — overrides in turn, failed or not, change no more of a plan than one can.
-/

set_option autoImplicit false

namespace DeployPlan

namespace Override

open KeyValues

variable (settings : Settings) (vars : Variables) (descriptor : Manifest) (plan : Plan)

/-! ## What is left -/

/-- **A plan after an override that does not fail** is the overridden plan, and differs from the
plan before only in parameters and in the values of annotations. -/
theorem apply_leaves_overridden
    (h : (apply settings vars descriptor plan).2.result = .ok ()) :
    (apply settings vars descriptor plan).1 = overridden settings vars descriptor plan ∧
      plan.Revised (overridden settings vars descriptor plan) := by
  have spec := apply_meets settings vars descriptor
  have heq := spec.fst_eq_of_ok h
  exact ⟨heq, heq ▸ spec.keeps plan⟩

/-- A plan with a package and a trigger. -/
def shopPlan : Plan where
  packages := .single "shop"
    { package := ⟨"shop", "_", false, [⟨"region", .str "eu"⟩], [⟨"owner", .str "a"⟩]⟩ }
  triggers := .single "tick" ⟨"tick", "_", false, [⟨"n", .int 1⟩, ⟨"n", .int 2⟩], []⟩

/-- A descriptor that addresses the trigger in a package that the plan lacks, and then another
package. -/
def shopDescriptor : Manifest where
  packages := .ofList
    [("cart", { triggers := .single "tick" { inputs := .single "n" (.literal (.int 3)) } }),
      ("shop", { annotations := .single "owner" (.str "b") })]

/-- The trigger is overridden by the package that the plan lacks. -/
theorem shop_overridden :
    (apply {} {} shopDescriptor shopPlan).2.result = .ok () ∧
      (apply {} {} shopDescriptor shopPlan).1 = overridden {} {} shopDescriptor shopPlan ∧
      shopPlan.Revised (overridden {} {} shopDescriptor shopPlan) ∧
      (overridden {} {} shopDescriptor shopPlan).triggers.entries =
        [("tick", ⟨"tick", "_", false, [⟨"n", .int 3⟩], []⟩)] := by
  have h : (apply {} {} shopDescriptor shopPlan).2.result = .ok () := by rfl
  obtain ⟨hleft, hrevised⟩ := apply_leaves_overridden {} {} shopDescriptor shopPlan h
  exact ⟨h, hleft, hrevised, by rfl⟩

/-! ## Failures -/

/-- The first key that an addressed entity is given but does not have, in the order in which
entities are checked. -/
def firstAbsent? : Option String :=
  ((addressed settings descriptor plan).flatMap fun a => absentKeys a.1 a.2).head?

/-- The result of a search among failures that all are of one kind. -/
theorem firstOf_map (f : String → Failure) (l : List String) :
    Report.firstOf (l.map f) = match l.head? with
      | some key => .error (f key)
      | none => .ok () := by
  cases l <;> rfl

/-- A first absent key is there if any is. -/
theorem firstAbsent?_eq_none_iff :
    firstAbsent? settings descriptor plan = none ↔
      ∀ a ∈ addressed settings descriptor plan, ∀ key ∈ a.1.keys, key ∈ keys a.2 := by
  simp only [firstAbsent?, List.head?_eq_none_iff, List.flatMap_eq_nil_iff, absentKeys,
    List.filter_eq_nil_iff, Bool.not_eq_true', Bool.not_eq_false, has_iff]

/-- **An override fails if and only if** an entity that it addresses is given an annotation that
the entity does not have in the plan before.  The failure names the descriptor and the first such
key; there is no other failure. -/
theorem apply_fails_iff_absent_key :
    ((∃ failure, (apply settings vars descriptor plan).2.result = .error failure) ↔
      ∃ a ∈ addressed settings descriptor plan, ∃ key ∈ a.1.keys, key ∉ keys a.2) ∧
    (apply settings vars descriptor plan).2.result =
      match firstAbsent? settings descriptor plan with
      | some key => .error (.unknownAnnotationKey descriptor.path key)
      | none => .ok () := by
  have hresult : (apply settings vars descriptor plan).2.result =
      match firstAbsent? settings descriptor plan with
      | some key => .error (.unknownAnnotationKey descriptor.path key)
      | none => .ok () := by
    rw [(apply_meets settings vars descriptor).result_eq, firstAbsent?, ← firstOf_map,
      List.map_flatMap]
    rfl
  refine ⟨?_, hresult⟩
  rw [hresult]
  have hnone := firstAbsent?_eq_none_iff settings descriptor plan
  cases hf : firstAbsent? settings descriptor plan with
  | none =>
    have hall := hnone.mp hf
    constructor
    · rintro ⟨failure, hfailure⟩
      cases hfailure
    · rintro ⟨a, ha, key, hkey, habsent⟩
      exact absurd (hall a ha key hkey) habsent
  | some key =>
    refine ⟨fun _ => ?_, fun _ => ⟨_, rfl⟩⟩
    by_contra hno
    push Not at hno
    rw [hnone.mpr hno] at hf
    cases hf

/-! ## Overrides in turn -/

/-- What a plan is overridden with. -/
structure Call where
  settings : Settings
  vars : Variables
  descriptor : Manifest

/-- The plan that overrides in turn leave, each whether it fails or not. -/
def run (calls : List Call) (plan : Plan) : Plan :=
  calls.foldl (fun plan call => (apply call.settings call.vars call.descriptor plan).1) plan

/-- **Overrides in turn**, failed or not, change no more of a plan than one can. -/
theorem run_revised (calls : List Call) (plan : Plan) : plan.Revised (run calls plan) := by
  induction calls generalizing plan with
  | nil => exact Plan.Revised.refl plan
  | cons call calls ih =>
    have step := (apply_meets call.settings call.vars call.descriptor).keeps plan
    exact Plan.Revised.trans _ _ _ step (ih _)

end Override

end DeployPlan
