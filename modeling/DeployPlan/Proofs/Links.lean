import DeployPlan.Proofs.Addressing
import DeployPlan.Proofs.Declarations
import DeployPlan.Proofs.WellFormed
import DeployPlan.Proofs.WellKeyed

/-!
# What rules refer to

A rule ties a trigger to an action and names both.  References to variables are replaced in both of
its texts, and in the names of triggers, but not in those of actions and sequences.  So a rule that
spells a trigger as a package declares it has it in the plan, whatever variables stand for; one that
spells an action as its package does has it if there is nothing to replace.

## Main definitions

* `Manifest.lastRule?` — the declaration of the rule that a plan keeps under a name.
* `Manifest.DeclaresTrigger`, `PackageSpec.Declares` — a text is the name of a declared trigger, or
  of an action or sequence of a package.
* `PackagePlan.Runs`, `Rule.FindsAction` — a package of a plan has an action or sequence of a name,
  to which a rule refers.

## Main results

* `Manifest.composePlan_rule_declared` — a rule of a plan is made of the last declaration with its
  name.
* `Override.run_composePlan_trigger_found` — the trigger that a rule names is in the plan, also
  after overrides.
* `Manifest.composePlan_action_found_iff` — when the action that a rule names is.
* `Manifest.composePlan_action_lost` — a rule that spells it as its package does can miss it.
-/

set_option autoImplicit false

namespace DeployPlan

/-! ## Texts without references -/

namespace Interpolation

/-- Without a dollar sign, a text has no references. -/
theorem segments_eq_map_char {cs : List Char} (h : '$' ∉ cs) : segments cs = cs.map .char := by
  induction cs with
  | nil => rw [segments, List.map_nil]
  | cons c cs ih =>
    obtain ⟨hc, hcs⟩ := not_or.mp (List.mem_cons.not.mp h)
    rw [segments, if_neg (Ne.symm hc), ih hcs, List.map_cons]

/-- So nothing is replaced in it. -/
theorem expand_eq_self {s : String} (h : Text.has '$' s = false) (vars : Variables) :
    expand vars s = s := by
  have hmem : '$' ∉ s.toList := by simpa [Text.has] using h
  rw [expand, segments_eq_map_char hmem, List.flatMap_map]
  have hchar : (fun c => Segment.expand vars (.char c)) = fun c => [c] := rfl
  rw [hchar, List.flatMap_singleton', String.ofList_toList]

end Interpolation

/-! ## Declarations -/

/-- What is found under a name is among the declarations, and has the name. -/
theorem mem_of_lastNamed? {δ : Type} {nameOf : δ → String} {key : String} {declarations : List δ}
    {d : δ} (h : lastNamed? nameOf key declarations = some d) :
    d ∈ declarations ∧ nameOf d = key :=
  ⟨List.mem_reverse.mp (List.mem_of_find?_eq_some h),
    eq_of_beq (List.find?_some (p := fun d => nameOf d == key) h)⟩

namespace Manifest

/-- The declaration of the rule that a plan keeps under a name, behind the name of its package: the
last one the name of which becomes that. -/
def lastRule? (m : Manifest) (vars : Variables) (name : String) :
    Option (String × String × RuleSpec) :=
  lastNamed? (fun d => Interpolation.expand vars d.2.1) name m.ruleDeclarations

/-- A text is the name of a trigger that some package declares. -/
def DeclaresTrigger (m : Manifest) (key : String) : Prop :=
  ∃ package spec, m.resolved.get? package = some spec ∧ spec.triggers.contains key = true

/-- The package of a declared rule is one of the document. -/
theorem exists_package_of_lastRule? {m : Manifest} {vars : Variables} {name package key : String}
    {spec : RuleSpec} (h : m.lastRule? vars name = some (package, key, spec)) :
    ∃ declared, m.resolved.get? package = some declared := by
  obtain ⟨l, hl, hmem⟩ := List.mem_flatten.mp (mem_of_lastNamed? h).1
  obtain ⟨e, he, rfl⟩ := List.mem_map.mp hl
  obtain ⟨rule, -, hrule⟩ := List.mem_map.mp hmem
  cases hrule
  exact ⟨e.2, KeyMap.mem_entries_iff.mp he⟩

end Manifest

section Plans

variable {m : Manifest} {settings : Settings} {vars : Variables} {t : FileTree} {plan : Plan}

/-- **A rule of a plan** is made of the last declaration with its name: references in both of its
texts are replaced, and its action gets the name of its package. -/
theorem Manifest.composePlan_rule_declared [Host]
    (h : (m.composePlan settings vars).resultAt t = .ok plan) {name : String} {rule : Rule}
    (hrule : plan.rules.get? name = some rule) :
    ∃ package key spec, m.lastRule? vars name = some (package, key, spec) ∧
      rule.trigger = Interpolation.expand vars spec.trigger ∧
      rule.action = Reference.qualify package (Interpolation.expand vars spec.action) := by
  obtain ⟨ctx, parts, hctx, hparts, hplan⟩ := composePlan_eq_ok_iff.mp h
  obtain rfl := Context.ofManifest_vars hctx
  have hall : List.Forall₂ (fun d x => x.name = Interpolation.expand ctx.vars d.2.1 ∧
        (ctx.composeRule d.1 d.2.1 d.2.2).result = .ok x)
      m.ruleDeclarations (parts.map (·.rules)).flatten :=
    (Context.forall₂_rules hparts).imp fun d x hx => ⟨Context.composeRule_name hx, hx⟩
  have hlast := rel_lastNamed? hall name
  have hrules : KeyMap.ofList ((parts.map (·.rules)).flatten.map fun x => (x.name, x)) =
      plan.rules := by rw [← hplan]; rfl
  rw [hrules, hrule, ← lastRule?] at hlast
  cases hd : m.lastRule? ctx.vars name with
  | none => rw [hd] at hlast; cases hlast
  | some d =>
    rw [hd] at hlast
    cases hlast with
    | some hcomposed =>
      rw [Context.composeRule_result] at hcomposed
      obtain rfl := Except.ok.inj hcomposed
      exact ⟨d.1, d.2.1, d.2.2, by simp only, by simp only, by simp only⟩

/-! ## Triggers -/

/-- **The trigger that a rule names is in the plan**, if the rule is declared with the name that a
package declares it with; and it stays there, whatever overrides follow and whether they fail or
not.

**Proof sketch.** References are replaced in both texts alike, so that equal texts become equal
names, under one of which the trigger is written.  Another trigger with this name may be written
later, but none is taken out.  An override changes neither rules nor what triggers are called. -/
theorem Override.run_composePlan_trigger_found [Host]
    (h : (m.composePlan settings vars).resultAt t = .ok plan) (calls : List Call) {name : String}
    {rule : Rule} (hrule : (run calls plan).rules.get? name = some rule) :
    ∃ package key spec, m.lastRule? vars name = some (package, key, spec) ∧
      rule.trigger = Interpolation.expand vars spec.trigger ∧
      (m.DeclaresTrigger spec.trigger →
        ∃ x, (run calls plan).triggers.get? rule.trigger = some x ∧ x.name = rule.trigger) := by
  have hrevised := run_revised calls plan
  have hwellFormed := (Manifest.composePlan_wellFormed h).revised hrevised
  rw [hrevised.rules] at hrule
  obtain ⟨package, key, spec, hlast, htrigger, -⟩ := Manifest.composePlan_rule_declared h hrule
  refine ⟨package, key, spec, hlast, htrigger, ?_⟩
  rintro ⟨other, declared, hdeclared, hcontains⟩
  obtain ⟨trigger, hget⟩ := KeyMap.contains_iff.mp hcontains
  obtain ⟨x, hx⟩ := Manifest.exists_trigger h hdeclared hget
  obtain ⟨x', hx', -⟩ := hrevised.triggers.get? hx
  rw [← htrigger] at hx'
  exact ⟨x', hx', (hwellFormed.triggers _ _ hx').1⟩

/-! ## Actions -/

/-- A text is the name of an action or sequence of a package. -/
def PackageSpec.Declares (spec : PackageSpec) (key : String) : Prop :=
  spec.actions.contains key = true ∨ spec.sequences.contains key = true

/-- A package of a plan has an action or sequence of a name. -/
def PackagePlan.Runs (q : PackagePlan) (package name : String) : Prop :=
  ∃ r, (q.actions.get? name = some r ∨ q.sequences.get? name = some r) ∧
    r.action.name = name ∧ r.packageName = package

/-- It has those that are declared, under the names that they are declared with. -/
theorem PackagePlan.WellFormed.runs_iff {directory package name : String} {spec : PackageSpec}
    {q : PackagePlan} (h : q.WellFormed directory t package spec) :
    q.Runs package name ↔ spec.Declares name := by
  have hactions := (h.actions.rel fun _ _ _ _ => trivial).contains name
  have hsequences := (h.sequences.rel fun _ _ _ _ => trivial).contains name
  rw [PackageSpec.Declares, ← hactions, ← hsequences, KeyMap.contains_iff, KeyMap.contains_iff]
  constructor
  · rintro ⟨r, hr | hr, -⟩
    · exact .inl ⟨r, hr⟩
    · exact .inr ⟨r, hr⟩
  · rintro (⟨r, hr⟩ | ⟨r, hr⟩)
    · obtain ⟨_, -, hwell⟩ := h.actions.get?_right hr
      exact ⟨r, .inl hr, hwell.named, hwell.placed⟩
    · obtain ⟨_, -, hwell⟩ := h.sequences.get?_right hr
      exact ⟨r, .inr hr, hwell.named, hwell.placed⟩

/-- A rule has the name of an action or sequence of a package, behind the name of the package. -/
def Rule.FindsAction (rule : Rule) (package : String) (q : PackagePlan) : Prop :=
  ∃ target, rule.action = package ++ "/" ++ target ∧ q.Runs package target

/-- A reference without a slash gets the name of the package. -/
theorem Reference.qualify_of_no_slash {package reference : String}
    (hslash : Text.has '/' reference = false) (htrim : Text.trim reference = reference) :
    qualify package reference = package ++ "/" ++ reference := by
  rw [qualify, htrim, hslash]
  rfl

/-- **The action of a rule** and what its package has: actions and sequences are kept under the
names that they are declared with, and the rule has its text with the references replaced. -/
theorem Manifest.composePlan_rule_action [Host]
    (h : (m.composePlan settings vars).resultAt t = .ok plan) {name : String} {rule : Rule}
    (hrule : plan.rules.get? name = some rule) :
    ∃ package key spec declared q, m.lastRule? vars name = some (package, key, spec) ∧
      m.resolved.get? package = some declared ∧ plan.packages.get? package = some q ∧
      rule.action = Reference.qualify package (Interpolation.expand vars spec.action) ∧
      ∀ target, q.Runs package target ↔ declared.Declares target := by
  obtain ⟨package, key, spec, hlast, -, haction⟩ := composePlan_rule_declared h hrule
  obtain ⟨declared, hdeclared⟩ := exists_package_of_lastRule? hlast
  have hpackages := (composePlan_wellFormed h).packages
  obtain ⟨q, hq, -⟩ := (hpackages.rel (S := fun _ _ => True) fun _ _ _ _ => trivial).get? hdeclared
  obtain ⟨declared', hdeclared', hwell⟩ := hpackages.get?_right hq
  obtain rfl : declared' = declared := Option.some.inj (hdeclared'.symm.trans hdeclared)
  exact ⟨package, key, spec, declared', q, hlast, hdeclared, hq, haction, fun _ => hwell.runs_iff⟩

/-- **The action that a rule names is in the plan** if and only if the text of the rule is, with
its references replaced and behind the name of the package, the name of an action or sequence that
the package declares.  So it is if the text is such a name itself and has no dollar sign.

**Proof sketch.** The plan has actions and sequences under their declared names.  In a text without
a dollar sign nothing is replaced, so that the rule has this very name behind that of the package.
-/
theorem Manifest.composePlan_action_found_iff [Host]
    (h : (m.composePlan settings vars).resultAt t = .ok plan) {name : String} {rule : Rule}
    (hrule : plan.rules.get? name = some rule) :
    ∃ package key spec declared q, m.lastRule? vars name = some (package, key, spec) ∧
      m.resolved.get? package = some declared ∧ plan.packages.get? package = some q ∧
      (rule.FindsAction package q ↔ ∃ target,
        Reference.qualify package (Interpolation.expand vars spec.action) =
          package ++ "/" ++ target ∧ declared.Declares target) ∧
      (Text.has '$' spec.action = false → Text.has '/' spec.action = false →
        Text.trim spec.action = spec.action → declared.Declares spec.action →
        rule.action = package ++ "/" ++ spec.action ∧ rule.FindsAction package q) := by
  obtain ⟨package, key, spec, declared, q, hlast, hdeclared, hq, haction, hruns⟩ :=
    composePlan_rule_action h hrule
  refine ⟨package, key, spec, declared, q, hlast, hdeclared, hq, ?_, ?_⟩
  · simp only [Rule.FindsAction, haction, hruns]
  · intro hdollar hslash htrim hdeclares
    rw [Interpolation.expand_eq_self hdollar, Reference.qualify_of_no_slash hslash htrim] at haction
    exact ⟨haction, spec.action, haction, (hruns _).mpr hdeclares⟩

end Plans

/-! ## A document with links -/

attribute [local instance] oneHost

/-- A document of two packages whose rules name one trigger by a reference; one rule names an action
of its package, the other a sequence by a reference. -/
def Manifest.linkManifest : Manifest where
  packages := .ofList
    [("cart", {
        actions := .single "pay" { runtime := "nodejs:8" }
        triggers := .single "$CLOCK" {}
        rules := .single "hourly" { trigger := "$CLOCK", action := "pay" } }),
      ("shop", {
        sequences := .single "$CLOSE" { actions := "cart/pay" }
        rules := .single "nightly" { trigger := "$CLOCK", action := "$CLOSE" } })]

/-- What the references are to. -/
def Variables.links : Variables where
  own := .ofList [("CLOCK", "tick"), ("CLOSE", "close")]

/-- The trigger of the later rule is found, also after an override that fails. -/
theorem Override.run_composePlan_trigger_found_nightly :
    ∃ plan rule x, (Manifest.linkManifest.composePlan {} .links).resultAt default = .ok plan ∧
      (run [⟨{}, {}, Manifest.cartDescriptor⟩] plan).rules.get? "nightly" = some rule ∧
      (run [⟨{}, {}, Manifest.cartDescriptor⟩] plan).triggers.get? rule.trigger = some x ∧
      x.name = rule.trigger ∧ rule.trigger = "tick" := by
  obtain ⟨plan, hplan, htest⟩ := Except.exists_of_any
    (r := (Manifest.linkManifest.composePlan {} .links).resultAt default)
    (p := fun plan => (run [⟨{}, {}, Manifest.cartDescriptor⟩] plan).rules.contains "nightly")
    (by decide +kernel)
  obtain ⟨rule, hrule⟩ := KeyMap.contains_iff.mp htest
  obtain ⟨package, key, spec, hlast, htrigger, hfound⟩ :=
    run_composePlan_trigger_found hplan _ hrule
  have hkept : Manifest.linkManifest.lastRule? .links "nightly" =
      some ("shop", "nightly", { trigger := "$CLOCK", action := "$CLOSE" }) := by decide +kernel
  cases hlast.symm.trans hkept
  have hdeclared : Manifest.linkManifest.DeclaresTrigger "$CLOCK" :=
    ⟨"cart", _, rfl, by decide +kernel⟩
  obtain ⟨x, hx, hname⟩ := hfound hdeclared
  exact ⟨plan, rule, x, hplan, hrule, hx, hname, htrigger.trans (by decide +kernel)⟩

/-- The action of the earlier rule is found. -/
theorem Manifest.composePlan_action_found_hourly :
    ∃ plan rule q, (linkManifest.composePlan {} .links).resultAt default = .ok plan ∧
      plan.rules.get? "hourly" = some rule ∧ plan.packages.get? "cart" = some q ∧
      rule.action = "cart/pay" ∧ rule.FindsAction "cart" q := by
  obtain ⟨plan, hplan, htest⟩ := Except.exists_of_any
    (r := (linkManifest.composePlan {} .links).resultAt default)
    (p := fun plan => plan.rules.contains "hourly") (by decide +kernel)
  obtain ⟨rule, hrule⟩ := KeyMap.contains_iff.mp htest
  obtain ⟨package, key, spec, declared, q, hlast, hdeclared, hq, -, hfound⟩ :=
    composePlan_action_found_iff hplan hrule
  have hkept : linkManifest.lastRule? .links "hourly" =
      some ("cart", "hourly", { trigger := "$CLOCK", action := "pay" }) := by decide +kernel
  cases hlast.symm.trans hkept
  have hpay : (linkManifest.resolved.get? "cart").any fun d => d.actions.contains "pay" := by
    decide +kernel
  rw [hdeclared] at hpay
  obtain ⟨haction, hfinds⟩ :=
    hfound (by decide +kernel) (by decide +kernel) (by decide +kernel) (.inl hpay)
  exact ⟨plan, rule, q, hplan, hrule, hq, haction, hfinds⟩

/-- The sequence of the later rule is not, although the rule spells it as its package does: the
reference is replaced in the rule alone. -/
theorem Manifest.composePlan_action_lost :
    ∃ plan rule declared q, (linkManifest.composePlan {} .links).resultAt default = .ok plan ∧
      linkManifest.lastRule? .links "nightly" =
        some ("shop", "nightly", { trigger := "$CLOCK", action := "$CLOSE" }) ∧
      linkManifest.resolved.get? "shop" = some declared ∧ declared.Declares "$CLOSE" ∧
      Text.has '/' "$CLOSE" = false ∧ Text.trim "$CLOSE" = "$CLOSE" ∧
      plan.rules.get? "nightly" = some rule ∧ plan.packages.get? "shop" = some q ∧
      rule.action = "shop/close" ∧ ¬ rule.FindsAction "shop" q := by
  obtain ⟨plan, hplan, htest⟩ := Except.exists_of_any
    (r := (linkManifest.composePlan {} .links).resultAt default)
    (p := fun plan => plan.rules.contains "nightly") (by decide +kernel)
  obtain ⟨rule, hrule⟩ := KeyMap.contains_iff.mp htest
  obtain ⟨package, key, spec, declared, q, hlast, hdeclared, hq, haction, hruns⟩ :=
    composePlan_rule_action hplan hrule
  have hkept : linkManifest.lastRule? .links "nightly" =
      some ("shop", "nightly", { trigger := "$CLOCK", action := "$CLOSE" }) := by decide +kernel
  cases hlast.symm.trans hkept
  have hspec : (linkManifest.resolved.get? "shop").any fun d =>
      d.sequences.contains "$CLOSE" && !d.sequences.contains "close" &&
        !d.actions.contains "close" := by decide +kernel
  simp only [hdeclared, Option.any_some, Bool.and_eq_true, Bool.not_eq_true'] at hspec
  obtain ⟨⟨hspelled, hsequences⟩, hactions⟩ := hspec
  have hclose : rule.action = "shop/close" := haction.trans (by decide +kernel)
  refine ⟨plan, rule, declared, q, hplan, hkept, hdeclared, .inr hspelled, by decide +kernel,
    by decide +kernel, hrule, hq, hclose, ?_⟩
  rintro ⟨target, htarget, hfound⟩
  obtain rfl : "close" = target :=
    (String.append_right_inj ("shop" ++ "/")).mp (hclose.symm.trans htarget)
  rcases (hruns _).mp hfound with hdeclares | hdeclares
  · exact absurd hdeclares (by simp [hactions])
  · exact absurd hdeclares (by simp [hsequences])

end DeployPlan
