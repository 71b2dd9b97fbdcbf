import DeployPlan.Proofs.Revision

/-!
# Revisions that can be repeated

A revision that is done twice may leave what it left the first time, although its steps, one by
one, undo what others did.  So steps are not looked at one by one.  All that a revision does to a
value is one change, which belongs to a family that is closed under doing one change after
another; and each change of the family does nothing more when it is done again.  Which steps take
place and which one fails, if one does, depends on the shape of a value only, which no change
touches.

## Main definitions

* `DeployPlan.Settling` — a family of changes that do nothing more when they are done again.
* `Settling.both`, `Settling.underKeys` — such families for values with two parts, and for maps.
* `Revision.ActsBy` — a revision that comes to one change of a family for all values of one shape.

## Main results

* `Revision.ActsBy.repeated` — a revision by settling changes can be repeated without effect.
* `Revision.ActsBy.andThen`, `all`, `atKey`, `onFirst`, `onSecond` — one rule for each way to build
  revisions.
-/

set_option autoImplicit false

namespace DeployPlan

variable {σ τ α β ι : Type}

/-! ## Settling changes -/

/-- **A family of settling changes** of values: doing one after another is a change of the family,
and doing one again does nothing more.  A change keeps the shape of a value. -/
structure Settling (shape : σ → σ → Prop) (change : (σ → σ) → Prop) : Prop where
  equivalence : Equivalence shape
  id : change id
  comp : ∀ f g, change f → change g → change fun s => g (f s)
  idem : ∀ f, change f → ∀ s, f (f s) = f s
  keeps : ∀ f, change f → ∀ s, shape s (f s)

/-- A value with two parts that can be replaced apart from each other. -/
structure TwoParts (τ α β : Type) where
  first : τ → α
  second : τ → β
  put : α → β → τ → τ
  first_put : ∀ a b t, first (put a b t) = a
  second_put : ∀ a b t, second (put a b t) = b
  put_put : ∀ a b a' b' t, put a b (put a' b' t) = put a b t
  put_self : ∀ t, put (first t) (second t) t = t

namespace Settling

variable {S : σ → σ → Prop} {B : (σ → σ) → Prop} {S₁ : α → α → Prop} {B₁ : (α → α) → Prop}
  {S₂ : β → β → Prop} {B₂ : (β → β) → Prop}

/-- Two values with parts of the same shapes. -/
def BothShapes (parts : TwoParts τ α β) (S₁ : α → α → Prop) (S₂ : β → β → Prop) (t t' : τ) : Prop :=
  S₁ (parts.first t) (parts.first t') ∧ S₂ (parts.second t) (parts.second t')

/-- A change of each part. -/
def BothChanges (parts : TwoParts τ α β) (B₁ : (α → α) → Prop) (B₂ : (β → β) → Prop)
    (h : τ → τ) : Prop :=
  ∃ f g, B₁ f ∧ B₂ g ∧ h = fun t => parts.put (f (parts.first t)) (g (parts.second t)) t

/-- Settling changes of the two parts of a value settle the value. -/
theorem both (parts : TwoParts τ α β) (h₁ : Settling S₁ B₁) (h₂ : Settling S₂ B₂) :
    Settling (BothShapes parts S₁ S₂) (BothChanges parts B₁ B₂) where
  equivalence :=
    { refl := fun _ => ⟨h₁.equivalence.refl _, h₂.equivalence.refl _⟩
      symm := fun h => ⟨h₁.equivalence.symm h.1, h₂.equivalence.symm h.2⟩
      trans := fun h h' => ⟨h₁.equivalence.trans h.1 h'.1, h₂.equivalence.trans h.2 h'.2⟩ }
  id := ⟨_, _, h₁.id, h₂.id, funext fun t => (parts.put_self t).symm⟩
  comp := by
    rintro _ _ ⟨f, g, hf, hg, rfl⟩ ⟨f', g', hf', hg', rfl⟩
    refine ⟨_, _, h₁.comp f f' hf hf', h₂.comp g g' hg hg', funext fun t => ?_⟩
    dsimp only
    rw [parts.first_put, parts.second_put, parts.put_put]
  idem := by
    rintro _ ⟨f, g, hf, hg, rfl⟩ t
    dsimp only
    rw [parts.first_put, parts.second_put, parts.put_put, h₁.idem f hf, h₂.idem g hg]
  keeps := by
    rintro _ ⟨f, g, hf, hg, rfl⟩ t
    refine ⟨?_, ?_⟩
    · dsimp only
      rw [parts.first_put]
      exact h₁.keeps f hf _
    · dsimp only
      rw [parts.second_put]
      exact h₂.keeps g hg _

/-- A change of each value of a map, which may depend on its key. -/
def KeyedChange (B : (σ → σ) → Prop) (h : KeyMap σ → KeyMap σ) : Prop :=
  ∃ f : String → σ → σ, (∀ k, B (f k)) ∧ h = KeyMap.mapWithKey f

/-- Settling changes of values settle a map. -/
theorem underKeys (h : Settling S B) : Settling (KeyMap.Rel S) (KeyedChange B) where
  equivalence := by
    have htrans : ∀ u v w, S u v → S v w → S u w := fun _ _ _ => h.equivalence.trans
    exact ⟨KeyMap.Rel.refl h.equivalence.refl, KeyMap.Rel.symm fun _ _ => h.equivalence.symm,
      fun hm hn => KeyMap.Rel.trans htrans hm hn⟩
  id := ⟨fun _ => _, fun _ => h.id, funext fun m => (KeyMap.mapWithKey_id m).symm⟩
  comp := by
    rintro _ _ ⟨f, hf, rfl⟩ ⟨g, hg, rfl⟩
    exact ⟨_, fun k => h.comp (f k) (g k) (hf k) (hg k),
      funext fun m => KeyMap.mapWithKey_mapWithKey m f g⟩
  idem := by
    rintro _ ⟨f, hf, rfl⟩ m
    rw [KeyMap.mapWithKey_mapWithKey]
    exact KeyMap.mapWithKey_congr fun k v _ => h.idem (f k) (hf k) v
  keeps := by
    rintro _ ⟨f, hf, rfl⟩ m
    exact KeyMap.rel_mapWithKey fun k v => h.keeps (f k) (hf k) v

end Settling

/-! ## Revisions by changes of a family -/

namespace Revision

variable {S : σ → σ → Prop} {B : (σ → σ) → Prop}

/-- **A revision by changes of a family**: for all values of one shape it comes to one change, and
it has one result. -/
def ActsBy (S : σ → σ → Prop) (B : (σ → σ) → Prop) (r : Revision σ) : Prop :=
  ∀ s, ∃ f, B f ∧ ∀ s', S s s' → (r s').1 = f s' ∧ (r s').2.result = (r s).2.result

namespace ActsBy

/-- **A revision by settling changes can be repeated without effect.**

**Proof sketch.** What is left has the shape of the value before, so that the repetition comes to
the same change and has the same result; and a settling change does nothing more when it is done
again. -/
theorem repeated {r : Revision σ} (hB : Settling S B) (h : r.ActsBy S B) (s : σ) :
    (r (r s).1).1 = (r s).1 ∧ (r (r s).1).2.result = (r s).2.result := by
  obtain ⟨f, hf, hacts⟩ := h s
  have hfirst : (r s).1 = f s := (hacts s (hB.equivalence.refl s)).1
  obtain ⟨hleft, hresult⟩ := hacts (f s) (hB.keeps f hf s)
  rw [hfirst]
  exact ⟨hleft.trans (hB.idem f hf s), hresult⟩

/-- The rule for a revision that changes nothing and has something to say. -/
theorem saying (hB : Settling S B) (es : List Event) : (Revision.saying es).ActsBy S B :=
  fun _ => ⟨_, hB.id, fun _ _ => ⟨rfl, rfl⟩⟩

/-- The rule for a revision that changes nothing. -/
theorem skip (hB : Settling S B) : ActsBy S B Revision.skip :=
  fun _ => ⟨_, hB.id, fun _ _ => ⟨rfl, rfl⟩⟩

/-- **One revision after another.** -/
theorem andThen (hB : Settling S B) {a b : Revision σ} (ha : a.ActsBy S B)
    (hb : b.ActsBy S B) : (Revision.andThen a b).ActsBy S B := by
  intro s
  obtain ⟨f, hf, hacts⟩ := ha s
  cases hresult : (a s).2.result with
  | error failure =>
    -- the second revision does not take place, for no value of the shape
    refine ⟨f, hf, fun s' hs => ?_⟩
    obtain ⟨hleft, hsame⟩ := hacts s' hs
    rw [Meets.andThen_fst, Meets.andThen_result, Meets.andThen_result, hsame, hresult]
    exact ⟨hleft, rfl⟩
  | ok _ =>
    obtain ⟨g, hg, hnext⟩ := hb (f s)
    have hshape : ∀ s', S s s' → S (f s) (f s') := fun s' hs =>
      hB.equivalence.trans (hB.equivalence.symm (hB.keeps f hf s))
        (hB.equivalence.trans hs (hB.keeps f hf s'))
    refine ⟨_, hB.comp f g hf hg, fun s' hs => ?_⟩
    obtain ⟨hleft, hsame⟩ := hacts s' hs
    have hfirst : (a s).1 = f s := (hacts s (hB.equivalence.refl s)).1
    rw [Meets.andThen_fst, Meets.andThen_result, Meets.andThen_result, hsame, hresult, hleft,
      hfirst]
    exact hnext (f s') (hshape s' hs)

/-- **Revisions in turn.** -/
theorem all (hB : Settling S B) {l : List ι} {revision : ι → Revision σ}
    (h : ∀ i ∈ l, (revision i).ActsBy S B) : (Revision.all (l.map revision)).ActsBy S B := by
  induction l with
  | nil => exact skip hB
  | cons i l ih =>
    exact (h i List.mem_cons_self).andThen hB (ih fun j hj => h j (List.mem_cons_of_mem _ hj))

/-- **A revision under a condition** that depends only on the shape. -/
theorem onlyIf (hB : Settling S B) {r : Revision σ} (h : r.ActsBy S B) (c : σ → Bool)
    (hc : ∀ s s', S s s' → c s' = c s) (es : List Event) :
    ActsBy S B fun s => if c s then r s else (s, Report.ofEvents es) := by
  intro s
  cases hs : c s with
  | true =>
    obtain ⟨f, hf, hacts⟩ := h s
    refine ⟨f, hf, fun s' hshape => ?_⟩
    simp only [hs, hc s s' hshape, if_true]
    exact hacts s' hshape
  | false =>
    refine ⟨_, hB.id, fun s' hshape => ?_⟩
    simp only [hs, hc s s' hshape]
    exact ⟨rfl, rfl⟩

/-- **A revision under one key** of a map. -/
theorem atKey (hB : Settling S B) {r : Revision σ} (h : r.ActsBy S B) (key : String)
    (missing : List Event) :
    (Revision.atKey key missing r).ActsBy (KeyMap.Rel S) (Settling.KeyedChange B) := by
  intro m
  cases hm : m.get? key with
  | none =>
    refine ⟨_, hB.underKeys.id, fun m' hmm => ?_⟩
    have hm' : m'.get? key = none := by
      rw [← KeyMap.contains_eq_false_iff, hmm.contains, KeyMap.contains_eq_false_iff, hm]
    simp only [Revision.atKey, hm, hm']
    exact ⟨rfl, trivial⟩
  | some v =>
    obtain ⟨f, hf, hacts⟩ := h v
    refine ⟨fun m => m.modify key f, ⟨fun k => if k = key then f else id, fun k => ?_, ?_⟩, ?_⟩
    · dsimp only
      split
      · exact hf
      · exact hB.id
    · funext m
      refine KeyMap.mapWithKey_congr fun k v _ => ?_
      split <;> rfl
    · intro m' hmm
      obtain ⟨v', hm', hv⟩ := hmm.get? hm
      obtain ⟨hleft, hresult⟩ := hacts v' hv
      simp only [Revision.atKey, hm, hm', hleft]
      exact ⟨KeyMap.insert_eq_modify hm' f, hresult⟩

/-- **A revision of the first of two parts** of a value. -/
theorem onFirst {S₁ : α → α → Prop} {B₁ : (α → α) → Prop} {S₂ : β → β → Prop}
    {B₂ : (β → β) → Prop} (parts : TwoParts τ α β) (h₂ : Settling S₂ B₂) {r : Revision α}
    (h : r.ActsBy S₁ B₁) :
    (Revision.onPart parts.first (fun a t => parts.put a (parts.second t) t) r).ActsBy
      (Settling.BothShapes parts S₁ S₂) (Settling.BothChanges parts B₁ B₂) := by
  intro t
  obtain ⟨f, hf, hacts⟩ := h (parts.first t)
  refine ⟨_, ⟨f, id, hf, h₂.id, rfl⟩, fun t' ht => ?_⟩
  obtain ⟨hleft, hresult⟩ := hacts (parts.first t') ht.1
  simp only [Revision.onPart, hleft]
  exact ⟨rfl, hresult⟩

/-- **A revision of the second of two parts** of a value. -/
theorem onSecond {S₁ : α → α → Prop} {B₁ : (α → α) → Prop} {S₂ : β → β → Prop}
    {B₂ : (β → β) → Prop} (parts : TwoParts τ α β) (h₁ : Settling S₁ B₁) {r : Revision β}
    (h : r.ActsBy S₂ B₂) :
    (Revision.onPart parts.second (fun b t => parts.put (parts.first t) b t) r).ActsBy
      (Settling.BothShapes parts S₁ S₂) (Settling.BothChanges parts B₁ B₂) := by
  intro t
  obtain ⟨g, hg, hacts⟩ := h (parts.second t)
  refine ⟨_, ⟨id, g, h₁.id, hg, rfl⟩, fun t' ht => ?_⟩
  obtain ⟨hleft, hresult⟩ := hacts (parts.second t') ht.2
  simp only [Revision.onPart, hleft]
  exact ⟨rfl, hresult⟩

end ActsBy

end Revision

end DeployPlan
