import DeployPlan.Yaml.Decode
import Mathlib.Data.List.Basic

/-!
# Trees and values

A value can be written as a tree and read back, if none of its mappings has two entries with one
key; and whatever is read from the tree of a text is such a value.

## Main definitions

* `DeployPlan.Yaml.Scalar.Sound`, `Tree.Sound` — scalars and trees as they come from a text: what
  an integer field reads fits sixty-four bits, and what a free value reads is a scalar.

## Main results

* `Tree.sound_of_parse?` — the tree of a text is sound.
* `Tree.Sound.distinct` — the value of a sound tree has distinct keys.
* `Tree.value?_ofValue` — a value with distinct keys is the value of its tree.
-/

set_option autoImplicit false

namespace DeployPlan

namespace Yaml

/-! ## Distinct keys -/

namespace Value

/-- Distinct keys in all items of a sequence. -/
theorem distinctItems_iff {items : List Value} :
    DistinctItems items ↔ ∀ v ∈ items, v.Distinct := by
  induction items with
  | nil => simp [DistinctItems]
  | cons v items ih => simp [DistinctItems, ih]

/-- Distinct keys in all keys and values of a mapping. -/
theorem distinctEntries_iff {entries : List (Value × Value)} :
    DistinctEntries entries ↔ ∀ e ∈ entries, e.1.Distinct ∧ e.2.Distinct := by
  induction entries with
  | nil => simp [DistinctEntries]
  | cons e entries ih => simp [DistinctEntries, ih, and_assoc]

/-! ### Equality -/

mutual

/-- Whether two values are equal, with the entries of mappings in one order. -/
def equal : Value → Value → Bool
  | .null, .null => true
  | .bool a, .bool b => a == b
  | .int a, .int b => a == b
  | .float a, .float b => decide (a = b)
  | .str a, .str b => a == b
  | .seq a, .seq b => equalItems a b
  | .map a, .map b => equalEntries a b
  | .tagged s a, .tagged t b => s == t && equal a b
  | _, _ => false

/-- Whether two lists of items are equal. -/
def equalItems : List Value → List Value → Bool
  | [], [] => true
  | a :: as, b :: bs => equal a b && equalItems as bs
  | _, _ => false

/-- Whether two lists of entries are equal. -/
def equalEntries : List (Value × Value) → List (Value × Value) → Bool
  | [], [] => true
  | (k, v) :: es, (k', v') :: es' => equal k k' && equal v v' && equalEntries es es'
  | _, _ => false

end

mutual

/-- Values that are found equal are equal. -/
theorem equal_iff (a b : Value) : equal a b = true ↔ a = b := by
  cases a with
  | seq a =>
    cases b with
    | seq b => rw [equal, equalItems_iff, seq.injEq]
    | _ => simp [equal]
  | map a =>
    cases b with
    | map b => rw [equal, equalEntries_iff, map.injEq]
    | _ => simp [equal]
  | tagged s a =>
    cases b with
    | tagged t b => rw [equal, Bool.and_eq_true, equal_iff a b, beq_iff_eq, tagged.injEq]
    | _ => simp [equal]
  | _ => cases b <;> simp [equal]

/-- So are lists of items. -/
theorem equalItems_iff (as bs : List Value) : equalItems as bs = true ↔ as = bs := by
  cases as with
  | nil => cases bs <;> simp [equalItems]
  | cons a as =>
    cases bs with
    | nil => simp [equalItems]
    | cons b bs =>
      rw [equalItems, Bool.and_eq_true, equal_iff a b, equalItems_iff as bs, List.cons.injEq]

/-- So are lists of entries. -/
theorem equalEntries_iff (as bs : List (Value × Value)) :
    equalEntries as bs = true ↔ as = bs := by
  match as, bs with
  | [], [] => simp [equalEntries]
  | [], _ :: _ => simp [equalEntries]
  | _ :: _, [] => simp [equalEntries]
  | (k, v) :: es, (k', v') :: es' =>
    rw [equalEntries, Bool.and_eq_true, Bool.and_eq_true, equal_iff k k', equal_iff v v',
      equalEntries_iff es es', List.cons.injEq, Prod.mk.injEq]

end

instance : DecidableEq Value := fun a b => decidable_of_iff _ (equal_iff a b)

end Value

/-! ## Scalars -/

namespace Scalar

/-- A scalar as it comes from a text. -/
structure Sound (s : Scalar) : Prop where
  integer : ∀ n, s.integer = some n → -(Int.pow 2 63) ≤ n ∧ n < Int.pow 2 63
  value : ∀ v, s.value = some v → v.Distinct

/-- What plain characters look like is a scalar. -/
theorem distinct_of_plainValue? {s : String} {v : Value} (h : plainValue? s = some v) :
    v.Distinct := by
  rw [plainValue?] at h
  split at h
  · cases h
    trivial
  split at h
  · cases h
    trivial
  dsimp only at h
  split at h
  · split at h
    · cases h
      trivial
    · cases h
  split at h
  · cases h
    trivial
  split at h
  · cases h
    trivial
  · cases h
    trivial

/-- So is what they are behind a tag that names a type. -/
theorem distinct_of_typedValue? {kind s : String} {v : Value} (h : typedValue? kind s = some v) :
    v.Distinct := by
  rw [typedValue?] at h
  split at h
  · obtain ⟨b, -, rfl⟩ := Option.map_eq_some_iff.mp h
    trivial
  split at h
  · obtain ⟨n, -, rfl⟩ := Option.map_eq_some_iff.mp h
    trivial
  split at h
  · obtain ⟨x, -, rfl⟩ := Option.map_eq_some_iff.mp h
    trivial
  split at h
  · split at h
    · cases h
      trivial
    · cases h
  · cases h
    trivial

/-- A written scalar is sound. -/
theorem sound_ofText (tag : Option String) (style : Style) (s : String) :
    (ofText tag style s).Sound where
  integer n hn := by
    simp only [ofText] at hn
    split at hn
    · simpa using (Option.filter_eq_some_iff.mp hn).2
    · cases hn
  value v hv := by
    have huntyped : ∀ w, (if style == .plain then plainValue? s else some (.str s)) = some w →
        w.Distinct := by
      intro w hw
      split at hw
      · exact distinct_of_plainValue? hw
      · cases hw
        trivial
    cases tag with
    | none => exact huntyped v hv
    | some tag =>
      simp only [ofText, value?] at hv
      split at hv
      · exact huntyped v hv
      · exact distinct_of_typedValue? hv

/-- A place where nothing is written is sound. -/
theorem sound_empty : empty.Sound where
  integer _ hn := by cases hn
  value _ hv := by cases hv; trivial

end Scalar

/-! ## Trees -/

namespace Tree

/-- A tree as it comes from a text: its scalars do. -/
inductive Sound : Tree → Prop
  | scalar {s : Scalar} (hs : s.Sound) : Sound (.scalar s)
  | sequence {items : List Tree} (h : ∀ t ∈ items, Sound t) : Sound (.sequence items)
  | mapping {entries : List (Tree × Tree)} (hkeys : ∀ e ∈ entries, Sound e.1)
    (hvalues : ∀ e ∈ entries, Sound e.2) : Sound (.mapping entries)
  | tagged {tag : String} {t : Tree} (h : Sound t) : Sound (.tagged tag t)
  | alias {t : Tree} (h : Sound t) : Sound (.alias t)

/-- A tag leaves a tree sound. -/
theorem Sound.withTag {t : Tree} (h : t.Sound) (tag : Option String) : (withTag tag t).Sound := by
  cases tag with
  | none => exact h
  | some tag =>
    simp only [Tree.withTag]
    split
    · exact .tagged h
    · exact h

/-! ### Trees of texts -/

/-- What steps that may follow aliases give in the end. -/
def Follow.Gives {α : Type} (step : Follow α) (P : α → Prop) : Prop :=
  ∀ left a left', step.run left = some (a, left') → P a

namespace Follow.Gives

variable {α β : Type} {P : α → Prop} {Q : β → Prop}

/-- A value alone is given. -/
theorem pure {a : α} (h : P a) : Gives (Pure.pure a) P := by
  intro left b left' hb
  cases hb
  exact h

/-- A step that fails gives nothing. -/
theorem none : Gives (fun _ => Option.none) P := by
  intro left b left' hb
  cases hb

/-- Steps one after the other give what the second does, after what the first gives. -/
theorem bind {step : Follow α} {next : α → Follow β} (h : Gives step P)
    (hnext : ∀ a, P a → Gives (next a) Q) : Gives (step >>= next) Q := by
  intro left b left' hb
  rw [StateT.run_bind] at hb
  obtain ⟨⟨a, left''⟩, ha, hb⟩ := Option.bind_eq_some_iff.mp hb
  exact hnext a (h _ _ _ ha) _ _ _ hb

/-- A list of steps gives what each of them does. -/
theorem mapM {step : α → Follow β} {l : List α} (h : ∀ a ∈ l, Gives (step a) Q) :
    Gives (l.mapM step) fun l' => ∀ b ∈ l', Q b := by
  induction l with
  | nil =>
    rw [List.mapM_nil]
    exact pure fun _ hb => absurd hb List.not_mem_nil
  | cons a l ih =>
    rw [List.mapM_cons]
    refine bind (h a List.mem_cons_self) fun b hb => ?_
    refine bind (ih fun a' ha' => h a' (List.mem_cons_of_mem a ha')) fun l' hl' => ?_
    exact pure (List.forall_mem_cons.mpr ⟨hb, hl'⟩)

end Follow.Gives

/-- A node is read as a sound tree, if those in it are. -/
theorem ofBare?_gives_sound {inner : Option (Node → Follow Tree)}
    (h : ∀ read, inner = some read → ∀ n, Follow.Gives (read n) Sound) (n : Node) :
    Follow.Gives (ofBare? inner n) Sound := by
  cases n with
  | scalar tag style text =>
    exact .pure (.withTag (.scalar (Scalar.sound_ofText tag style text)) tag)
  | sequence tag items =>
    cases inner with
    | none => exact .none
    | some read =>
      refine .bind (.mapM fun n _ => h read rfl n) fun items hitems => ?_
      exact .pure (.withTag (.sequence hitems) tag)
  | mapping tag entries =>
    cases inner with
    | none => exact .none
    | some read =>
      have hentry : ∀ e ∈ entries,
          Follow.Gives (do return (← read e.1, ← read e.2)) fun e => e.1.Sound ∧ e.2.Sound :=
        fun e _ => .bind (h read rfl e.1) fun k hk => .bind (h read rfl e.2) fun t ht =>
          .pure ⟨hk, ht⟩
      refine .bind (.mapM hentry) fun entries hentries => ?_
      exact .pure (.withTag (.mapping (fun e he => (hentries e he).1)
        fun e he => (hentries e he).2) tag)
  | «alias» number => exact .none

/-- An alias is read as what it stands for. -/
theorem ofFollowed?_gives_sound {target : Nat → Option Node} {inner : Option (Node → Follow Tree)}
    (h : ∀ read, inner = some read → ∀ n, Follow.Gives (read n) Sound) (n : Node) :
    Follow.Gives (ofFollowed? target inner n) Sound := by
  have hfollow : Follow.Gives (follow target n) fun _ => True := fun _ _ _ _ => trivial
  refine .bind hfollow fun ⟨aliased, n⟩ _ => .bind (ofBare?_gives_sound h n) fun t ht => ?_
  refine .pure ?_
  split
  · exact .alias ht
  · exact ht

/-- **A node is read as a sound tree.**

**Proof sketch.** Induction on how deep collections may nest. -/
theorem ofNode?_gives_sound (target : Nat → Option Node) (depth : Nat) (n : Node) :
    Follow.Gives (ofNode? target depth n) Sound := by
  induction depth generalizing n with
  | zero => exact ofFollowed?_gives_sound (fun _ h => by cases h) n
  | succ depth ih =>
    refine ofFollowed?_gives_sound (fun read h n => ?_) n
    cases h
    exact ih n

/-- **The tree of a text** is sound. -/
theorem sound_of_parse? {text : String} {t : Tree} (h : parse? text = some t) : t.Sound := by
  obtain ⟨s, -, ht⟩ := Option.bind_eq_some_iff.mp h
  rw [ofStream?] at ht
  split at ht
  · cases ht
    exact .scalar Scalar.sound_empty
  · obtain ⟨⟨t', left⟩, hrun, rfl⟩ := Option.map_eq_some_iff.mp ht
    exact ofNode?_gives_sound _ _ _ _ _ _ hrun

/-! ### Values of trees -/

/-- Items are read one by one. -/
theorem values?_eq_some {items : List Tree} {vs : List Value} (h : values? items = some vs)
    {P : Value → Prop} (hP : ∀ t ∈ items, ∀ v, t.value? = some v → P v) : ∀ v ∈ vs, P v := by
  induction items generalizing vs with
  | nil =>
    rw [values?] at h
    cases h
    exact fun v hv => absurd hv List.not_mem_nil
  | cons t items ih =>
    rw [values?] at h
    split at h
    · rename_i v vs' hv hvs
      cases h
      refine List.forall_mem_cons.mpr ⟨hP t List.mem_cons_self v hv, ?_⟩
      exact ih hvs fun t' ht' => hP t' (List.mem_cons_of_mem t ht')
    · cases h

/-- An entry is added behind others if its key is none of theirs. -/
theorem addEntry?_eq_some {entries entries' : List (Value × Value)} {k v : Value}
    (h : addEntry? entries k v = some entries') :
    entries' = entries ++ [(k, v)] ∧ ∀ e ∈ entries, e.1.same k = false := by
  rw [ addEntry?] at h
  split at h
  · cases h
  · rename_i hnone
    cases h
    exact ⟨rfl, by simpa using hnone⟩

/-- Entries are read one by one, and have distinct keys. -/
theorem entryValues?_eq_some {entries : List (Tree × Tree)} {acc es : List (Value × Value)}
    (h : entryValues? acc entries = some es)
    (hacc : Value.Distinct (.map acc))
    (hkeys : ∀ e ∈ entries, ∀ v, e.1.value? = some v → v.Distinct)
    (hvalues : ∀ e ∈ entries, ∀ v, e.2.value? = some v → v.Distinct) :
    Value.Distinct (.map es) := by
  induction entries generalizing acc with
  | nil =>
    rw [entryValues?] at h
    cases h
    exact hacc
  | cons e entries ih =>
    obtain ⟨k, t⟩ := e
    rw [entryValues?] at h
    split at h
    · rename_i k' v hk hv
      split at h
      · rename_i acc' hadd
        obtain ⟨rfl, hnew⟩ := addEntry?_eq_some hadd
        refine ih h ?_ (fun e he => hkeys e (List.mem_cons_of_mem _ he))
          fun e he => hvalues e (List.mem_cons_of_mem _ he)
        rw [Value.Distinct, Value.distinctEntries_iff] at hacc ⊢
        refine ⟨List.pairwise_append.mpr ⟨hacc.1, List.pairwise_singleton _ _, ?_⟩, ?_⟩
        · intro a ha b hb
          rw [List.mem_singleton.mp hb]
          exact hnew a ha
        · intro a ha
          rcases List.mem_append.mp ha with ha | ha
          · exact hacc.2 a ha
          · rw [List.mem_singleton.mp ha]
            exact ⟨hkeys (k, t) List.mem_cons_self k' hk, hvalues (k, t) List.mem_cons_self v hv⟩
      · cases h
    · cases h

/-- **The value of a sound tree** has distinct keys throughout. -/
theorem Sound.distinct {t : Tree} (h : t.Sound) {v : Value} (hv : t.value? = some v) :
    v.Distinct := by
  induction h generalizing v with
  | scalar hs => exact hs.value v (by simpa only [value?] using hv)
  | sequence _ ih =>
    rw [value?] at hv
    obtain ⟨vs, hvs, rfl⟩ := Option.map_eq_some_iff.mp hv
    rw [Value.Distinct, Value.distinctItems_iff]
    exact values?_eq_some hvs fun t ht v hv => ih t ht hv
  | mapping _ _ ihkeys ihvalues =>
    rw [value?] at hv
    obtain ⟨es, hes, rfl⟩ := Option.map_eq_some_iff.mp hv
    have hnil : Value.Distinct (.map []) := ⟨List.Pairwise.nil, trivial⟩
    exact entryValues?_eq_some hes hnil (fun e he v hv => ihkeys e he hv)
      fun e he v hv => ihvalues e he hv
  | tagged _ ih =>
    rw [value?] at hv
    obtain ⟨w, hw, rfl⟩ := Option.map_eq_some_iff.mp hv
    rw [Value.Distinct]
    exact ih hw
  | «alias» _ ih =>
    rw [value?] at hv
    exact ih hv

/-! ### Trees of values -/

mutual

/-- **A value with distinct keys** is the value of its tree. -/
theorem value?_ofValue : ∀ v : Value, v.Distinct → (ofValue v).value? = some v
  | .null, _ | .bool _, _ | .int _, _ | .float _, _ | .str _, _ => by
    simp [ofValue, value?, Scalar.ofValue]
  | .seq items, h => by
    rw [Value.Distinct] at h
    rw [ofValue, value?, values?_ofValues items h]
    rfl
  | .map entries, h => by
    rw [Value.Distinct] at h
    rw [ofValue, value?, entryValues?_ofEntries [] entries h.1 h.2]
    rfl
  | .tagged tag v, h => by
    rw [Value.Distinct] at h
    rw [ofValue, value?, value?_ofValue v h]
    rfl

/-- The same for the items of a sequence. -/
theorem values?_ofValues : ∀ vs : List Value, Value.DistinctItems vs →
    values? (ofValues vs) = some vs
  | [], _ => by rw [ofValues, values?]
  | v :: vs, h => by
    rw [Value.DistinctItems] at h
    rw [ofValues, values?, value?_ofValue v h.1, values?_ofValues vs h.2]

/-- The same for entries behind those that were read. -/
theorem entryValues?_ofEntries : ∀ acc es : List (Value × Value),
    ((acc ++ es).Pairwise fun a b => a.1.same b.1 = false) → Value.DistinctEntries es →
    entryValues? acc (ofEntries es) = some (acc ++ es)
  | acc, [], _, _ => by rw [ofEntries, entryValues?, List.append_nil]
  | acc, (k, v) :: es, hdistinct, h => by
    rw [Value.DistinctEntries] at h
    have hnew : ∀ e ∈ acc, e.1.same k = false := fun e he =>
      (List.pairwise_append.mp hdistinct).2.2 e he (k, v) List.mem_cons_self
    have hadd : addEntry? acc k v = some (acc ++ [(k, v)]) := by
      rw [ addEntry?, if_neg (by simpa using hnew)]
    rw [ofEntries, entryValues?, value?_ofValue k h.1, value?_ofValue v h.2.1]
    simp only [hadd]
    rw [entryValues?_ofEntries (acc ++ [(k, v)]) es (by simpa using hdistinct) h.2.2]
    simp

end

/-- An optional field reads the tree of a value as left out if the value is null. -/
theorem absent?_ofValue (v : Value) : (ofValue v).absent? = some v.isNull := by
  cases v <;> rfl

end Tree

end Yaml

end DeployPlan
