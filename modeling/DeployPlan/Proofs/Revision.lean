import DeployPlan.Override
import DeployPlan.Proofs.KeyMap

/-!
# What revisions do

A revision is specified by four things at once: a relation between the value before and the value
that is left, the failures that lie in wait in a value, the value that is left when there are
none, and the fact that the relation does not touch the failures.  Each way to build revisions
has one rule, and a specification of a whole pass is put together from these.

## Main definitions

* `Report.firstOf` — the result of a search for failures that stops at the first.
* `Revision.Meets` — the specification of a revision.

## Main results

* `Revision.Meets.andThen`, `Revision.Meets.all` — revisions in turn.
* `Revision.Meets.atKey`, `Revision.Meets.onPart` — revisions of a part.
* `Revision.onPart_andThen` — a revision of a part is one of the whole, step by step.
-/

set_option autoImplicit false

namespace DeployPlan

/-- The result of a search that stops at the first failure. -/
def Report.firstOf : List Failure → Except Failure Unit
  | [] => .ok ()
  | failure :: _ => .error failure

namespace Revision

variable {σ τ ι : Type} {R : σ → σ → Prop}

/-- **The specification of a revision.**  Failures are listed in the order in which the revision
would come upon them if it did not stop. -/
structure Meets (R : σ → σ → Prop) (r : Revision σ) (failures : σ → List Failure)
    (final : σ → σ) : Prop where
  /-- What is left is related to what was there, also after a failure. -/
  keeps : ∀ s, R s (r s).1
  /-- The result is the first failure, if there is one. -/
  result_eq : ∀ s, (r s).2.result = Report.firstOf (failures s)
  /-- Without failures, the final value is left. -/
  final_eq : ∀ s, failures s = [] → (r s).1 = final s
  /-- Related values have the same failures in wait. -/
  failures_eq : ∀ s s', R s s' → failures s' = failures s

namespace Meets

variable {a b r : Revision σ} {fa fb f f' : σ → List Failure} {ga gb g g' : σ → σ}

/-- A revision that does not fail leaves the final value. -/
theorem fst_eq_of_ok (h : Meets R r f g) {s : σ} (hok : (r s).2.result = .ok ()) :
    (r s).1 = g s := by
  refine h.final_eq s ?_
  rw [h.result_eq] at hok
  cases hs : f s with
  | nil => rfl
  | cons failure rest => rw [hs] at hok; cases hok

/-- The failures and the final value can be told in other words. -/
theorem congr (h : Meets R r f g) (hf : ∀ s, f' s = f s) (hg : ∀ s, g' s = g s) :
    Meets R r f' g' := by
  obtain rfl : f' = f := funext hf
  obtain rfl : g' = g := funext hg
  exact h

/-- The rule for a revision that changes nothing and has something to say. -/
theorem saying (hR : ∀ s, R s s) (es : List Event) :
    Meets R (Revision.saying es) (fun _ => []) id :=
  ⟨hR, fun _ => rfl, fun _ _ => rfl, fun _ _ _ => rfl⟩

/-- The rule for a revision that changes nothing. -/
theorem skip (hR : ∀ s, R s s) : Meets R Revision.skip (fun _ => []) id :=
  ⟨hR, fun _ => rfl, fun _ _ => rfl, fun _ _ _ => rfl⟩

/-- The value that two revisions in turn leave. -/
theorem andThen_fst (a b : Revision σ) (s : σ) :
    (Revision.andThen a b s).1 =
      match (a s).2.result with
      | .ok _ => (b (a s).1).1
      | .error _ => (a s).1 := by
  unfold Revision.andThen
  rcases a s with ⟨s₁, events, result⟩
  cases result <;> rfl

/-- The result of two revisions in turn. -/
theorem andThen_result (a b : Revision σ) (s : σ) :
    (Revision.andThen a b s).2.result =
      match (a s).2.result with
      | .ok _ => (b (a s).1).2.result
      | .error failure => .error failure := by
  unfold Revision.andThen
  rcases a s with ⟨s₁, events, result⟩
  cases result <;> rfl

/-- **One revision after another.**  The failures of the second can be told before the first has
run.

**Proof sketch.** If the first has a failure in wait, it is the result of both, and what the
first leaves is what is left.  Otherwise the second runs on a related value, which has the
failures of the value before. -/
theorem andThen (hR : ∀ s t u, R s t → R t u → R s u) (ha : Meets R a fa ga)
    (hb : Meets R b fb gb) :
    Meets R (Revision.andThen a b) (fun s => fa s ++ fb s) (fun s => gb (ga s)) where
  keeps s := by
    rw [andThen_fst]
    cases (a s).2.result with
    | ok _ => exact hR _ _ _ (ha.keeps s) (hb.keeps _)
    | error _ => exact ha.keeps s
  result_eq s := by
    rw [andThen_result, ha.result_eq]
    cases hs : fa s with
    | nil =>
      show (b (a s).1).2.result = _
      rw [hb.result_eq, hb.failures_eq s _ (ha.keeps s), List.nil_append]
    | cons failure rest => rfl
  final_eq s hs := by
    obtain ⟨hfa, hfb⟩ := List.append_eq_nil_iff.mp hs
    rw [andThen_fst, ha.result_eq, hfa]
    show (b (a s).1).1 = _
    rw [hb.final_eq _ (by rw [hb.failures_eq s _ (ha.keeps s), hfb]), ha.final_eq s hfa]
  failures_eq s s' h := by rw [ha.failures_eq s s' h, hb.failures_eq s s' h]

/-- **Revisions in turn**, one for each item of a list. -/
theorem all (hrefl : ∀ s, R s s) (htrans : ∀ s t u, R s t → R t u → R s u) {l : List ι}
    {revision : ι → Revision σ} {failures : ι → σ → List Failure} {final : ι → σ → σ}
    (h : ∀ i ∈ l, Meets R (revision i) (failures i) (final i)) :
    Meets R (Revision.all (l.map revision)) (fun s => l.flatMap fun i => failures i s)
      (fun s => l.foldl (fun s i => final i s) s) := by
  induction l with
  | nil => exact skip hrefl
  | cons i l ih =>
    have hl := ih fun j hj => h j (List.mem_cons_of_mem _ hj)
    exact (h i List.mem_cons_self).andThen htrans hl

/-- **A revision under a condition** that does not depend on what revisions change. -/
theorem onlyIf (hR : ∀ s, R s s) (h : Meets R r f g) (c : σ → Bool)
    (hc : ∀ s s', R s s' → c s' = c s) (es : List Event) :
    Meets R (fun s => if c s then r s else (s, Report.ofEvents es))
      (fun s => if c s then f s else []) (fun s => if c s then g s else s) where
  keeps s := by
    split
    · exact h.keeps s
    · exact hR s
  result_eq s := by
    split
    · exact h.result_eq s
    · rfl
  final_eq s hs := by
    split
    · rename_i hcs
      rw [if_pos hcs] at hs
      exact h.final_eq s hs
    · rfl
  failures_eq s s' hs := by rw [hc s s' hs, h.failures_eq s s' hs]

/-- **A revision under one key** of a map. -/
theorem atKey (hR : ∀ s, R s s) (h : Meets R r f g) (key : String) (missing : List Event) :
    Meets (KeyMap.Rel R) (Revision.atKey key missing r)
      (fun m => (m.get? key).elim [] f) (fun m => m.modify key g) where
  keeps m := by
    rw [Revision.atKey]
    cases hm : m.get? key with
    | none => exact KeyMap.Rel.refl hR m
    | some v => exact KeyMap.rel_insert hR hm (h.keeps v)
  result_eq m := by
    rw [Revision.atKey]
    cases hm : m.get? key with
    | none => rfl
    | some v => exact h.result_eq v
  final_eq m hf := by
    rw [Revision.atKey]
    cases hm : m.get? key with
    | none => exact (KeyMap.modify_of_get?_eq_none hm g).symm
    | some v =>
      rw [hm] at hf
      show m.insert key (r v).1 = _
      rw [h.final_eq v hf, KeyMap.insert_eq_modify hm]
  failures_eq m m' hmm := by
    cases hm : m.get? key with
    | none =>
      cases hm' : m'.get? key with
      | none => rfl
      | some v' =>
        obtain ⟨v, hv, -⟩ := hmm.get?_right hm'
        rw [hm] at hv
        cases hv
    | some v =>
      obtain ⟨v', hv', hvv⟩ := hmm.get? hm
      rw [hv']
      exact h.failures_eq v v' hvv

/-- **A revision of a part** of a value.  The relation of the whole has to see to that of the
part, and the other way round for a part that is put back. -/
theorem onPart (h : Meets R r f g) (T : τ → τ → Prop) (part : τ → σ) (put : σ → τ → τ)
    (hpart : ∀ t t', T t t' → R (part t) (part t')) (hput : ∀ t s, R (part t) s → T t (put s t)) :
    Meets T (Revision.onPart part put r) (fun t => f (part t))
      (fun t => put (g (part t)) t) where
  keeps t := hput t _ (h.keeps (part t))
  result_eq t := h.result_eq (part t)
  final_eq t ht := by
    show put (r (part t)).1 t = _
    rw [h.final_eq (part t) ht]
  failures_eq t t' ht := h.failures_eq _ _ (hpart t t' ht)

end Meets

/-- A revision of a part is one of the whole, step by step. -/
theorem onPart_andThen (part : τ → σ) (put : σ → τ → τ)
    (hpart : ∀ s t, part (put s t) = s) (hput : ∀ s s' t, put s (put s' t) = put s t)
    (a b : Revision σ) :
    onPart part put (andThen a b) = andThen (onPart part put a) (onPart part put b) := by
  funext t
  simp only [onPart, andThen]
  cases (a (part t)).2.result with
  | ok _ => simp only [hpart, hput]
  | error _ => rfl

end Revision

end DeployPlan
