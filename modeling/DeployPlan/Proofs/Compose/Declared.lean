import DeployPlan.Proofs.Compose.Parts

/-!
# Triggers, rules and routes of a plan

Triggers, rules and routes leave their packages: a plan has the triggers and rules of all packages
by their names, and one list of routes.  Behind each stands a list with one item for each
declaration, in the order of packages and of names in them.

## Main definitions

* `Manifest.triggerDeclarations`, `ruleDeclarations`, `routeDeclarations` — what a document declares
  in all packages.

## Main results

* `Context.forall₂_triggers`, `forall₂_rules`, `forall₂_routes` — what the declarations become.
-/

set_option autoImplicit false

namespace DeployPlan

/-- Related items of which each gives a list of related items give one. -/
theorem forall₂_flatten {α β γ δ : Type} {R : α → β → Prop} {S : γ → δ → Prop} {f : α → List γ}
    {g : β → List δ} {l : List α} {l' : List β} (h : List.Forall₂ R l l')
    (hRS : ∀ a b, R a b → List.Forall₂ S (f a) (g b)) :
    List.Forall₂ S (l.map f).flatten (l'.map g).flatten := by
  refine List.rel_flatten ?_
  rw [List.forall₂_map_left_iff, List.forall₂_map_right_iff]
  exact h.imp hRS

/-- Two lists that are related to a third are lists of pairs, each related to one item. -/
theorem exists_pairs_of_forall₂ {α β γ : Type} {R : α → β → Prop} {S : α → γ → Prop}
    {l : List α} {l' : List β} {l'' : List γ} (h : List.Forall₂ R l l')
    (h' : List.Forall₂ S l l'') :
    ∃ pairs : List (β × γ), List.Forall₂ (fun a b => R a b.1 ∧ S a b.2) l pairs ∧
      l' = pairs.map Prod.fst ∧ l'' = pairs.map Prod.snd := by
  induction h generalizing l'' with
  | nil =>
    cases h'
    exact ⟨[], .nil, rfl, rfl⟩
  | @cons a b l l' hab _ ih =>
    cases h' with
    | @cons _ c _ l'' hac h' =>
      obtain ⟨pairs, hpairs, rfl, rfl⟩ := ih h'
      exact ⟨(b, c) :: pairs, .cons ⟨hab, hac⟩ hpairs, rfl, rfl⟩

namespace Manifest

/-- The triggers that a document declares, by the names that they have there. -/
def triggerDeclarations (m : Manifest) : List (String × TriggerSpec) :=
  (m.resolved.entries.map fun e => e.2.triggers.entries).flatten

/-- The rules that a document declares, each with the name of its package. -/
def ruleDeclarations (m : Manifest) : List (String × String × RuleSpec) :=
  (m.resolved.entries.map fun e => e.2.rules.entries.map fun r => (e.1, r)).flatten

/-- The routes that a document declares, each with its package. -/
def routeDeclarations (m : Manifest) : List ((String × PackageSpec) × RouteLeaf) :=
  (m.resolved.entries.map fun e => e.2.leaves.map fun leaf => (e, leaf)).flatten

end Manifest

namespace Context

variable [Host] {ctx : Context} {m : Manifest} {t : FileTree} {parts : List PackageParts}
  (h : List.Forall₂ (fun e x => ctx.Gives e.1 e.2 t x) m.resolved.entries parts)

include h

/-- The triggers of all packages are composed from the declared ones. -/
theorem forall₂_triggers :
    List.Forall₂ (fun e x => (ctx.composeTrigger e.1 e.2).result = .ok x) m.triggerDeclarations
      (parts.map (·.triggers)).flatten := by
  refine forall₂_flatten h fun e x hx => ?_
  have htriggers := hx.triggers
  rwa [composeTriggers, Report.result_mapM, Except.mapM_eq_ok_iff] at htriggers

/-- The rules of all packages are composed from the declared ones. -/
theorem forall₂_rules :
    List.Forall₂ (fun d x => (ctx.composeRule d.1 d.2.1 d.2.2).result = .ok x) m.ruleDeclarations
      (parts.map (·.rules)).flatten := by
  refine forall₂_flatten h fun e x hx => ?_
  have hrules := hx.rules
  rw [composeRules, Report.result_mapM, Except.mapM_eq_ok_iff] at hrules
  rwa [List.forall₂_map_left_iff]

/-- The routes of all packages are made of the declared ones, in the namespaces of their
packages. -/
theorem forall₂_routes :
    List.Forall₂ (fun d x => Route.ofLeaf d.1.1 (ctx.namespaceFor d.1.2.namespace) d.2 = .ok x)
      m.routeDeclarations (parts.map (·.routes)).flatten := by
  refine forall₂_flatten h fun e x hx => ?_
  have hroutes := hx.routes
  rw [composeRoutes, Report.result_bind, namespaceOr_result, Except.ok_bind] at hroutes
  have hleaves := Except.mapM_eq_ok_iff.mp (Except.mapError_eq_ok_iff.mp hroutes)
  rwa [List.forall₂_map_left_iff]

end Context

end DeployPlan
