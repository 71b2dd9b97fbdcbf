import DeployPlan.Compose.Report
import Mathlib.Data.List.Forall2

/-!
# Results of composing

Whether composing succeeds, and with what, is often all that counts.  The result of a report is a
value of a simpler monad, without events; the result over a file tree is one for each tree, and
composes like the others as long as trees are left as they were found.

## Main definitions

* `Compose.resultAt` — the result over a tree.
* `Compose.LeavesTree` — every tree is left as it was found.

## Main results

* `Report.result_bind`, `Report.result_mapM` — results of reports compose.
* `Compose.resultAt_bind`, `Compose.resultAt_mapM` — so do results over a tree.
* `Except.mapM_eq_ok_iff`, `exists_mapM_eq_ok_iff` — a list of results succeeds item by item.
* `Except.mapM_eq_error_iff` — it fails with its first failure.
-/

set_option autoImplicit false

namespace DeployPlan

variable {α β γ : Type}

/-- What is in the second of two related lists is related to something in the first. -/
theorem exists_of_forall₂ {R : α → β → Prop} {l : List α} {l' : List β} (h : List.Forall₂ R l l')
    {b : β} (hb : b ∈ l') : ∃ a ∈ l, R a b := by
  induction h with
  | nil => cases hb
  | @cons a b' l l' hab _ ih =>
    rcases List.mem_cons.mp hb with rfl | hb
    · exact ⟨a, List.mem_cons_self, hab⟩
    · obtain ⟨a', ha', hab'⟩ := ih hb
      exact ⟨a', List.mem_cons_of_mem a ha', hab'⟩

/-! ## Results -/

namespace Except

variable {ε : Type}

/-- What follows a result goes on with it. -/
@[simp] theorem ok_bind (a : α) (f : α → Except ε β) : (.ok a >>= f) = f a := rfl

/-- Nothing follows a failure. -/
@[simp] theorem error_bind (e : ε) (f : α → Except ε β) : (.error e >>= f) = .error e := rfl

/-- A result is changed. -/
@[simp] theorem map_ok (f : α → β) (a : α) : (f <$> .ok a : Except ε β) = .ok (f a) := rfl

/-- To go on with a result that cannot fail is to change what there is. -/
@[simp] theorem bind_ok_eq_map (r : Except ε α) (f : α → β) :
    (r >>= fun a => .ok (f a)) = f <$> r := by
  cases r <;> rfl

/-- What succeeds gives something. -/
theorem exists_of_isOk {r : Except ε α} (h : r.isOk = true) : ∃ a, r = .ok a := by
  cases r with
  | ok a => exact ⟨a, rfl⟩
  | error e => cases h

/-- What succeeds with something of a kind gives it. -/
theorem exists_of_any {r : Except ε α} {p : α → Bool}
    (h : (match r with | .ok a => p a | .error _ => false) = true) :
    ∃ a, r = .ok a ∧ p a = true := by
  cases r with
  | ok a => exact ⟨a, rfl, h⟩
  | error e => cases h

/-- A failure in other words is a failure still. -/
theorem mapError_eq_ok_iff {ε' : Type} {r : Except ε α} {f : ε → ε'} {a : α} :
    r.mapError f = .ok a ↔ r = .ok a := by
  cases r <;> simp [Except.mapError]

/-- Going on succeeds if both parts do. -/
theorem bind_eq_ok_iff {r : Except ε α} {f : α → Except ε β} {b : β} :
    (r >>= f) = .ok b ↔ ∃ a, r = .ok a ∧ f a = .ok b := by
  cases r <;> simp [bind, Except.bind]

/-- Going on fails if the first part does, or if it succeeds and the second part fails. -/
theorem bind_eq_error_iff {r : Except ε α} {f : α → Except ε β} {e : ε} :
    (r >>= f) = .error e ↔ r = .error e ∨ ∃ a, r = .ok a ∧ f a = .error e := by
  cases r <;> simp [bind, Except.bind]

/-- A result that is only changed fails as before. -/
theorem map_eq_error_iff {r : Except ε α} {f : α → β} {e : ε} :
    f <$> r = .error e ↔ r = .error e := by
  cases r <;> simp [Functor.map, Except.map]

/-- A result that is only changed succeeds as before. -/
theorem map_eq_ok_iff {r : Except ε α} {f : α → β} {b : β} :
    f <$> r = .ok b ↔ ∃ a, r = .ok a ∧ f a = b := by
  cases r <;> simp

/-- **A list of results succeeds item by item.** -/
theorem mapM_eq_ok_iff {f : α → Except ε β} {l : List α} {l' : List β} :
    l.mapM f = .ok l' ↔ List.Forall₂ (fun a b => f a = .ok b) l l' := by
  induction l generalizing l' with
  | nil => cases l' <;> simp [pure, Except.pure]
  | cons a l ih =>
    simp only [List.mapM_cons, bind_eq_ok_iff, ih, List.forall₂_cons_left_iff]
    simp only [pure, Except.pure, Except.ok.injEq]
    constructor
    · rintro ⟨b, hb, l', hl', rfl⟩
      exact ⟨b, l', hb, hl', rfl⟩
    · rintro ⟨b, l', hb, hl', rfl⟩
      exact ⟨b, hb, l', hl', rfl⟩

/-- What is in a list of results comes from an item. -/
theorem mem_of_mapM_eq_ok {f : α → Except ε β} {l : List α} {l' : List β}
    (h : l.mapM f = .ok l') {b : β} (hb : b ∈ l') : ∃ a ∈ l, f a = .ok b :=
  exists_of_forall₂ (mapM_eq_ok_iff.mp h) hb

/-- A list of results succeeds if each does. -/
theorem exists_mapM_eq_ok_iff {f : α → Except ε β} {l : List α} :
    (∃ l', l.mapM f = .ok l') ↔ ∀ a ∈ l, ∃ b, f a = .ok b := by
  simp only [mapM_eq_ok_iff]
  induction l with
  | nil => simp
  | cons a l ih => simp [List.forall₂_cons_left_iff, ← ih, and_comm]

/-- **A list of results fails with its first failure.** -/
theorem mapM_eq_error_iff {f : α → Except ε β} {l : List α} {e : ε} :
    l.mapM f = .error e ↔ ∃ front a back, l = front ++ a :: back ∧
      (∀ b ∈ front, ∃ c, f b = .ok c) ∧ f a = .error e := by
  induction l with
  | nil => simp [pure, Except.pure]
  | cons a l ih =>
    rw [List.mapM_cons, bind_eq_error_iff]
    simp only [bind_eq_error_iff, ih, List.cons_eq_append_iff]
    constructor
    · rintro (ha | ⟨c, hc, ⟨front, b, back, rfl, hfront, hb⟩ | ⟨_, _, hpure⟩⟩)
      · exact ⟨[], a, l, .inl ⟨rfl, rfl⟩, nofun, ha⟩
      · exact ⟨a :: front, b, back, .inr ⟨front, rfl, rfl⟩,
          List.forall_mem_cons.mpr ⟨⟨c, hc⟩, hfront⟩, hb⟩
      · cases hpure
    · rintro ⟨front, b, back, ⟨rfl, hcons⟩ | ⟨front', rfl, rfl⟩, hfront, hb⟩
      · cases hcons
        exact .inl hb
      · obtain ⟨⟨c, hc⟩, hfront⟩ := List.forall_mem_cons.mp hfront
        exact .inr ⟨c, hc, .inl ⟨front', b, back, rfl, hfront, hb⟩⟩

end Except

/-! ## Reports -/

namespace Report

/-- A result alone is the result. -/
@[simp] theorem result_pure (a : α) : (pure a : Report α).result = .ok a := rfl

/-- Events do not fail. -/
@[simp] theorem result_ofEvents (es : List Event) : (ofEvents es).result = .ok () := rfl

/-- Nor does a message. -/
@[simp] theorem result_log (level : Level) (text : String) : (log level text).result = .ok () := rfl

/-- Results of reports compose. -/
@[simp] theorem result_bind (r : Report α) (f : α → Report β) :
    (r >>= f).result = r.result >>= fun a => (f a).result := by
  show (Report.bind r f).result = _
  rw [Report.bind]
  cases r.result <;> rfl

/-- What is made of a report is made of its result. -/
@[simp] theorem result_map (f : α → β) (r : Report α) :
    (f <$> r).result = f <$> r.result := by
  show (Report.bind r fun a => pure (f a)).result = _
  rw [Report.bind]
  cases r.result <;> rfl

protected theorem id_map (r : Report α) : id <$> r = r := by
  show Report.bind r _ = r
  rcases r with ⟨events, result⟩
  cases result <;> simp [Report.bind]

protected theorem pure_bind (a : α) (f : α → Report β) : (pure a >>= f) = f a := by
  show Report.bind ⟨[], .ok a⟩ f = f a
  simp [Report.bind]

protected theorem bind_assoc (r : Report α) (f : α → Report β) (g : β → Report γ) :
    (r >>= f >>= g) = r >>= fun a => f a >>= g := by
  show Report.bind (Report.bind r f) g = Report.bind r fun a => Report.bind (f a) g
  rcases r with ⟨events, result⟩
  cases result with
  | error _ => rfl
  | ok a =>
    simp only [Report.bind]
    cases (f a).result <;> simp

instance : LawfulMonad Report :=
  .mk' Report Report.id_map Report.pure_bind Report.bind_assoc

/-- The result of a list of reports is that of the list of results. -/
@[simp] theorem result_mapM (f : α → Report β) (l : List α) :
    (l.mapM f).result = l.mapM fun a => (f a).result := by
  induction l with
  | nil => rfl
  | cons a l ih => simp only [List.mapM_cons, result_bind, ih]; rfl

end Report

/-! ## Reports over a file tree -/

namespace Compose

/-- The result over a tree. -/
def resultAt (c : Compose α) (t : FileTree) : Except Failure α := (c t).report.result

/-- Every tree is left as it was found. -/
def LeavesTree (c : Compose α) : Prop := ∀ t, (c t).tree = t

variable {c : Compose α} {f : α → Compose β} {t : FileTree}

/-- What goes on if the first part succeeds. -/
theorem bind_apply_ok {a : α} (h : c.resultAt t = .ok a) :
    (c >>= f) t = ⟨(f a (c t).tree).tree,
      ⟨(c t).report.events ++ (f a (c t).tree).report.events,
        (f a (c t).tree).report.result⟩⟩ := by
  show Compose.bind c f t = _
  simp only [resultAt] at h
  simp [Compose.bind, h]

/-- What is left if the first part fails. -/
theorem bind_apply_error {failure : Failure} (h : c.resultAt t = .error failure) :
    (c >>= f) t = ⟨(c t).tree, ⟨(c t).report.events, .error failure⟩⟩ := by
  show Compose.bind c f t = _
  simp only [resultAt] at h
  simp [Compose.bind, h]

protected theorem id_map (c : Compose α) : id <$> c = c := by
  funext t
  show (c >>= fun a => pure a) t = c t
  cases h : c.resultAt t with
  | ok a =>
    rw [bind_apply_ok h]
    show Outcome.mk (c t).tree ⟨(c t).report.events ++ [], .ok a⟩ = c t
    rw [List.append_nil, ← h]
    rfl
  | error failure => rw [bind_apply_error h, ← h]; rfl

protected theorem pure_bind (a : α) (f : α → Compose β) : (pure a >>= f) = f a := by
  funext t
  have h : (pure a : Compose α).resultAt t = .ok a := rfl
  rw [bind_apply_ok h]
  simp [pure, ofReport]

protected theorem bind_assoc (c : Compose α) (f : α → Compose β) (g : β → Compose γ) :
    (c >>= f >>= g) = c >>= fun a => f a >>= g := by
  funext t
  cases h : c.resultAt t with
  | error failure =>
    have hf : (c >>= f).resultAt t = .error failure := by rw [resultAt, bind_apply_error h]
    rw [bind_apply_error h, bind_apply_error hf, bind_apply_error h]
  | ok a =>
    rw [bind_apply_ok h]
    cases hf : (f a).resultAt (c t).tree with
    | error failure =>
      have hcf : (c >>= f).resultAt t = .error failure := by
        rw [resultAt, bind_apply_ok h]
        exact hf
      rw [bind_apply_error hf, bind_apply_error hcf, bind_apply_ok h]
    | ok b =>
      have hcf : (c >>= f).resultAt t = .ok b := by
        rw [resultAt, bind_apply_ok h]
        exact hf
      rw [bind_apply_ok hf, bind_apply_ok hcf, bind_apply_ok h]
      simp

instance : LawfulMonad Compose :=
  .mk' Compose Compose.id_map Compose.pure_bind Compose.bind_assoc

/-! ## Trees that are left -/

/-- A report leaves the tree alone. -/
theorem leavesTree_ofReport (r : Report α) : (ofReport r).LeavesTree := fun _ => rfl

/-- The same for a report as a step of a longer one. -/
theorem leavesTree_liftM (r : Report α) : (liftM r : Compose α).LeavesTree := fun _ => rfl

/-- A result leaves the tree alone. -/
theorem leavesTree_pure (a : α) : (pure a : Compose α).LeavesTree := fun _ => rfl

/-- To look at the tree leaves it alone. -/
theorem leavesTree_looking (f : FileTree → Report α) : (looking f).LeavesTree := fun _ => rfl

/-- Going on leaves the tree alone if both parts do. -/
theorem LeavesTree.bind (hc : c.LeavesTree) (hf : ∀ a, (f a).LeavesTree) :
    (c >>= f).LeavesTree := by
  intro t
  cases h : c.resultAt t with
  | ok a => rw [bind_apply_ok h, hc t]; exact hf a t
  | error failure => rw [bind_apply_error h]; exact hc t

/-- The same behind a report, which has no tree to leave. -/
theorem leavesTree_liftM_bind (r : Report α) (hf : ∀ a, (f a).LeavesTree) :
    ((liftM r : Compose α) >>= f).LeavesTree :=
  (leavesTree_liftM r).bind hf

/-- A list leaves the tree alone if each item does. -/
theorem LeavesTree.mapM {f : α → Compose β} {l : List α} (h : ∀ a ∈ l, (f a).LeavesTree) :
    (l.mapM f).LeavesTree := by
  induction l with
  | nil => exact leavesTree_pure []
  | cons a l ih =>
    rw [List.mapM_cons]
    refine (h a List.mem_cons_self).bind fun b => ?_
    exact (ih fun a ha => h a (List.mem_cons_of_mem _ ha)).bind fun l' => leavesTree_pure _

/-! ## Results over trees -/

/-- A result is the result over every tree. -/
@[simp] theorem resultAt_pure (a : α) (t : FileTree) :
    (pure a : Compose α).resultAt t = .ok a := rfl

/-- Results over a tree compose if the tree is left as it was found. -/
theorem resultAt_bind (hc : c.LeavesTree) (f : α → Compose β) (t : FileTree) :
    (c >>= f).resultAt t = c.resultAt t >>= fun a => (f a).resultAt t := by
  cases h : c.resultAt t with
  | ok a => rw [resultAt, bind_apply_ok h, hc t]; rfl
  | error failure => rw [resultAt, bind_apply_error h]; rfl

/-- The result of what goes on behind a report. -/
@[simp] theorem resultAt_liftM_bind (r : Report α) (f : α → Compose β) (t : FileTree) :
    ((liftM r : Compose α) >>= f).resultAt t = r.result >>= fun a => (f a).resultAt t :=
  resultAt_bind (leavesTree_liftM r) f t

/-- The same before a report, which looks at no tree. -/
theorem resultAt_bind_ofReport (c : Compose α) (f : α → Report β) (t : FileTree) :
    (c >>= fun a => ofReport (f a)).resultAt t = c.resultAt t >>= fun a => (f a).result := by
  cases h : c.resultAt t with
  | ok a => rw [resultAt, bind_apply_ok h]; rfl
  | error failure => rw [resultAt, bind_apply_error h]; rfl

/-- The result of a list over a tree is that of the list of results. -/
theorem resultAt_mapM {f : α → Compose β} {l : List α} (h : ∀ a ∈ l, (f a).LeavesTree)
    (t : FileTree) : (l.mapM f).resultAt t = l.mapM fun a => (f a).resultAt t := by
  induction l with
  | nil => rfl
  | cons a l ih =>
    have hl := fun b hb => h b (List.mem_cons_of_mem a hb)
    rw [List.mapM_cons, List.mapM_cons, resultAt_bind (h a List.mem_cons_self)]
    simp only [resultAt_bind (LeavesTree.mapM hl), ih hl, resultAt_pure]
    rfl

end Compose

end DeployPlan
