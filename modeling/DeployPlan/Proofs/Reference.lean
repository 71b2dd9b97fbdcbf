import DeployPlan.Proofs.Compose.Entity
import DeployPlan.Proofs.Text.Pieces

/-!
# The actions of sequences

A sequence lists its actions with commas between them.  Each element that is not blank is one
action, in the order of the list and as often as it is there, and gets the name of its package in
the same way as the action of a rule.

## Main results

* `Reference.components_append` — two lists with a comma between them are the actions of one, and
  then those of the other.
* `Reference.components_of_lists` — the actions of a list are those of its elements that are not
  blank.
* `Reference.components_listed` — both, and how the only action of a list compares to that of a
  rule.
-/

set_option autoImplicit false

namespace DeployPlan

namespace Reference

/-- Blanks around a reference do not count. -/
theorem qualify_trim (package reference : String) :
    qualify package (Text.trim reference) = qualify package reference := by
  rw [qualify, qualify, Text.trim_trim]

/-- A reference that is not blank, as a test on its characters. -/
theorem isEmpty_trim (reference : String) :
    (Text.trim reference).isEmpty = reference.toList.all Text.isBlank := by
  rw [Bool.eq_iff_iff, String.isEmpty_iff, Text.trim_eq_empty_iff, List.all_eq_true]

/-- Two lists with a comma between them have the elements of one, and then those of the other. -/
theorem elements_append (a b : String) : elements (a ++ "," ++ b) = elements a ++ elements b := by
  have hsplit : Text.split ',' (a ++ "," ++ b) = Text.split ',' a ++ Text.split ',' b :=
    Text.split_append ',' a b
  rw [elements, hsplit, List.map_append]
  rfl

/-- **Two lists with a comma between them** are the actions of one, and then those of the other. -/
theorem components_append (ns package a b : String) :
    components ns package (a ++ "," ++ b) =
      components ns package a ++ components ns package b := by
  simp only [components, elements_append, List.filter_append, List.map_append]

/-- **The actions of a list** are those of its elements that are not blank. -/
theorem components_of_lists {actions : String} {elements : List String}
    (h : Text.Lists ',' actions elements) (ns package : String) :
    components ns package actions =
      (elements.filter fun e => !e.toList.all Text.isBlank).map (component ns package) := by
  have hblank : (fun e => !e.isEmpty) ∘ Text.trim = fun e => !e.toList.all Text.isBlank := by
    funext e
    exact congrArg (!·) (isEmpty_trim e)
  have htrim : component ns package ∘ Text.trim = component ns package := by
    funext e
    simp only [Function.comp_apply, component, qualify_trim]
  rw [components, Reference.elements, Text.lists_iff.mp h, List.filter_map, List.map_map, hblank,
    htrim]

/-- **The actions of a sequence.**  Lists with a comma between them have their actions one after the
other.  A list has one action for each element between its commas that is not blank, in order and
as often as it is there: the namespace between slashes, and behind it the element without the blanks
around it and without slashes before it, to which the name of the package is added if it has no
slash.  The only element of a list becomes the action that it is for a rule of the package, behind
the namespace.

**Proof sketch.** A comma between two texts adds no element and cuts none, and each element is told
from blanks, trimmed and put behind the name of its package alone. -/
theorem components_listed (ns package : String) :
    (∀ a b, components ns package (a ++ "," ++ b) =
      components ns package a ++ components ns package b) ∧
    (∀ actions, ∃ elements, Text.Lists ',' actions elements ∧
      components ns package actions =
        (elements.filter fun e => !e.toList.all Text.isBlank).map fun e =>
          "/" ++ Text.strip '/' ns ++ "/" ++ Text.stripStart '/'
            (if Text.has '/' (Text.trim e) then Text.trim e
            else package ++ "/" ++ Text.trim e)) ∧
    ∀ e, e.toList.all Text.isBlank = false → ',' ∉ e.toList →
      components ns package e =
        ["/" ++ Text.strip '/' ns ++ "/" ++ Text.stripStart '/' (qualify package e)] ∧
      ∀ (ctx : Context) (name : String) (spec : RuleSpec),
        Interpolation.expand ctx.vars spec.action = e →
        ∃ rule, (ctx.composeRule package name spec).result = .ok rule ∧
          rule.action = qualify package e := by
  refine ⟨components_append ns package, ?_, ?_⟩
  · intro actions
    have hlists : Text.Lists ',' actions (Text.split ',' actions) := Text.lists_iff.mpr rfl
    exact ⟨_, hlists, components_of_lists hlists ns package⟩
  · intro e hblank hcomma
    constructor
    · rw [components_of_lists (Text.lists_single hcomma), List.filter_singleton, hblank]
      rfl
    · intro ctx name spec haction
      refine ⟨_, ctx.composeRule_result package name spec, ?_⟩
      rw [haction]

/-- Blank elements do not count, equal ones do, and a path is not put behind the package. -/
theorem components_listed_checkout :
    components "/guest/" "cart" ("pay, ,/whisk.system/utils/echo" ++ "," ++ " pay ") =
      ["/guest/cart/pay", "/guest/whisk.system/utils/echo"] ++ ["/guest/cart/pay"] ∧
    components "/guest/" "cart" " pay " = ["/guest/" ++ qualify "cart" " pay "] := by
  obtain ⟨happend, -, hsingle⟩ := components_listed "/guest/" "cart"
  refine ⟨?_, ?_⟩
  · rw [happend]
    decide +kernel
  · rw [(hsingle " pay " (by decide +kernel) (by decide +kernel)).1]
    decide +kernel

end Reference

end DeployPlan
