import DeployPlan.Proofs.KeyMap
import DeployPlan.Yaml.Decode

/-!
# Trees that are read alike

Documents can say the same in different words: a key may have several names, and some keys are
former names of others.  Two such trees have the same shape, and differ in the names of their
entries and in what stands under them.  What is known of the readers of parts carries over to the
readers of the maps and records of them.

## Main definitions

* `DeployPlan.Yaml.Tree.Alike` — trees whose entries are related one by one.
* `Yaml.Decoder.Respects` — related trees are read as values that agree in some respect, or
  neither of them is read.
* `Yaml.Field.Agree`, `Field.Match` — two fields that make related records of two trees.

## Main results

* `Yaml.Field.readAll_alike` — fields are read alike from entries that are related one by one.
* `Yaml.Decoder.Respects.mapOf`, `optional`, `record` — the rules for maps, for what may be left
  out and for records.
-/

set_option autoImplicit false

namespace DeployPlan

/-! ## Related results -/

section Results

variable {α β : Type}

/-- Of two related results, what becomes of them is related if it is for related values. -/
theorem Option.rel_bind {R : α → α → Prop} {S : β → β → Prop} {g g' : α → Option β}
    {o o' : Option α} (h : Option.Rel R o o') (hg : ∀ a a', R a a' → Option.Rel S (g a) (g' a')) :
    Option.Rel S (o.bind g) (o'.bind g') := by
  cases h with
  | none => exact .none
  | some h => exact hg _ _ h

/-- The same, with functions that give related values. -/
theorem Option.rel_map {R : α → α → Prop} {S : β → β → Prop} {g g' : α → β} {o o' : Option α}
    (h : Option.Rel R o o') (hg : ∀ a a', R a a' → S (g a) (g' a')) :
    Option.Rel S (o.map g) (o'.map g') := by
  cases h with
  | none => exact .none
  | some h => exact .some (hg _ _ h)

/-- Related results are related in any way that follows. -/
theorem Option.rel_imp {R S : α → α → Prop} {o o' : Option α} (h : Option.Rel R o o')
    (hS : ∀ a a', R a a' → S a a') : Option.Rel S o o' := by
  cases h with
  | none => exact .none
  | some h => exact .some (hS _ _ h)

/-- A result is related to itself if its value is. -/
theorem Option.rel_self {R : α → α → Prop} {o : Option α} (h : ∀ a, o = some a → R a a) :
    Option.Rel R o o := by
  cases o with
  | none => exact .none
  | some a => exact .some (h a rfl)

/-- Results that agree in some respect are the same in it. -/
theorem Option.map_eq_of_rel {f : α → β} {o o' : Option α}
    (h : Option.Rel (fun a a' => f a = f a') o o') : o.map f = o'.map f := by
  cases h with
  | none => rfl
  | some h => exact congrArg some h

end Results

namespace Yaml

variable {α β σ : Type}

/-! ## Related trees -/

namespace Tree

/-- Two entries are related as what stands under the names that their keys are read as.  With a
key that is no name, nothing is read. -/
def Entry (E : String → String → Tree → Tree → Prop) (e e' : Tree × Tree) : Prop :=
  Option.Rel (fun name name' => E name name' e.2 e'.2) e.1.text? e'.1.text?

/-- Trees that differ in their entries alone, which are related one by one. -/
inductive Alike (E : String → String → Tree → Tree → Prop) : Tree → Tree → Prop
  | same (t : Tree) : Alike E t t
  | mapping {es es' : List (Tree × Tree)} (h : List.Forall₂ (Entry E) es es') :
    Alike E (.mapping es) (.mapping es')
  | tagged (tag : String) {t t' : Tree} (h : Alike E t t') :
    Alike E (.tagged tag t) (.tagged tag t')
  | alias {t t' : Tree} (h : Alike E t t') : Alike E (.alias t) (.alias t')

/-- Items under the same name. -/
def SameName (T : Tree → Tree → Prop) (name name' : String) (t t' : Tree) : Prop :=
  name' = name ∧ T t t'

variable {E : String → String → Tree → Tree → Prop} {t t' : Tree}

/-- An optional field reads both as left out, or neither. -/
theorem Alike.absent?_eq (h : Alike E t t') : t'.absent? = t.absent? := by
  induction h with
  | same _ | mapping _ | tagged _ _ _ => rfl
  | «alias» _ ih => exact ih

/-- The entries that a record or map reads are the same, or related one by one. -/
theorem Alike.entries? (h : Alike E t t') :
    Option.Rel (fun es es' => es' = es ∨ List.Forall₂ (Entry E) es es') t.entries? t'.entries? := by
  induction h with
  | same _ => exact Option.rel_self fun _ _ => .inl rfl
  | mapping h => exact .some (.inr h)
  | tagged _ _ ih | «alias» _ ih => exact ih

end Tree

open DeployPlan.Yaml.Tree (Alike Entry SameName)

namespace Decoder

variable {T : Tree → Tree → Prop} {f : α → β} {d item : Decoder α}

/-- Related trees are read as values that agree in some respect, or neither of them is read. -/
def Respects (T : Tree → Tree → Prop) (f : α → β) (d : Decoder α) : Prop :=
  ∀ t t', T t t' → Option.Rel (fun a a' => f a = f a') (d t).toOption (d t').toOption

/-- Trees that are the same are read as the same. -/
theorem respects_eq (f : α → β) (d : Decoder α) : Respects Eq f d := by
  rintro t _ rfl
  exact Option.rel_self fun _ _ => rfl

/-! ## What may be left out -/

/-- What may be left out respects what it does when it is there. -/
theorem Respects.optional (hT : ∀ t t', T t t' → t'.absent? = t.absent?) (h : Respects T f d) :
    Respects T (Option.map f) (optional d) := by
  intro t t' ht
  have hd := h t t' ht
  rw [Decoder.optional, Decoder.optional, hT t t' ht]
  cases t.absent? with
  | none => exact .none
  | some absent =>
    cases absent with
    | true => exact .some rfl
    | false =>
      have hmap : ∀ r : Except DecodeError α, (r.map some).toOption = r.toOption.map some := by
        intro r
        cases r <;> rfl
      simp only [hmap]
      exact Option.rel_map hd fun _ _ h => congrArg some h

/-! ## Maps -/

/-- The first of some entries is read if its key is a name, and then the others. -/
theorem readEntries_cons_toOption (item : Decoder α) (acc : KeyMap α) (k t : Tree)
    (es : List (Tree × Tree)) :
    (readEntries item acc ((k, t) :: es)).toOption = k.text?.bind fun name =>
      (item t).toOption.bind fun v => (readEntries item (acc.insert name v) es).toOption := by
  rw [readEntries]
  cases k.text? with
  | none => rfl
  | some name => cases item t <;> rfl

/-- A map is read if its entries are. -/
theorem mapOf_toOption (item : Decoder α) (t : Tree) :
    (mapOf item t).toOption =
      t.entries?.bind fun es => (readEntries item .empty es).toOption := by
  rw [mapOf]
  cases t.entries? with
  | none => rfl
  | some es => cases h : readEntries item .empty es <;> simp [h] <;> rfl

/-- Entries with the same names and related items are read into maps that agree. -/
theorem Respects.readEntries (h : Respects T f item) {es es' : List (Tree × Tree)}
    (hes : List.Forall₂ (Entry (SameName T)) es es') {acc acc' : KeyMap α}
    (hacc : acc.mapValues f = acc'.mapValues f) :
    Option.Rel (fun m m' => m.mapValues f = m'.mapValues f)
      (Decoder.readEntries item acc es).toOption
      (Decoder.readEntries item acc' es').toOption := by
  induction hes generalizing acc acc' with
  | nil => exact .some hacc
  | cons he _ ih =>
    rw [readEntries_cons_toOption, readEntries_cons_toOption]
    refine Option.rel_bind he fun name name' hname => ?_
    obtain ⟨rfl, ht⟩ := hname
    refine Option.rel_bind (h _ _ ht) fun v v' hv => ih ?_
    rw [KeyMap.mapValues, KeyMap.mapValues, KeyMap.mapWithKey_insert, KeyMap.mapWithKey_insert, hv]
    exact congrArg (fun m : KeyMap β => m.insert name' (f v')) hacc

/-- **A map** respects what its items do. -/
theorem Respects.mapOf (h : Respects T f item) :
    Respects (Alike (SameName T)) (KeyMap.mapValues f) (mapOf item) := by
  intro t t' ht
  rw [mapOf_toOption, mapOf_toOption]
  refine Option.rel_bind ht.entries? fun es es' hes => ?_
  rcases hes with rfl | hes
  · exact Option.rel_self fun _ _ => rfl
  · exact h.readEntries hes rfl

end Decoder

/-! ## Records -/

namespace Field

variable {R : σ → σ → Prop} {t t' : Tree}

/-- The field with a name. -/
def find (fields : List (Field σ)) (name : String) : Option (Field σ) :=
  fields.find? fun x => x.names.contains name

/-- Two fields make related records of two trees, whatever related records were there, or neither
tree is read. -/
def Agree (R : σ → σ → Prop) (t t' : Tree) (x x' : Field σ) : Prop :=
  ∀ s s', R s s' → Option.Rel R (x.read t s).toOption (x'.read t' s').toOption

/-- The rule for two fields whose values are read alike. -/
theorem Agree.of {d d' : Decoder α} {put put' : α → σ → σ} {f : α → β}
    (hd : Option.Rel (fun v v' => f v = f v') (d t).toOption (d' t').toOption)
    (hput : ∀ v v', f v = f v' → ∀ s s', R s s' → R (put v s) (put' v' s'))
    {name name' : String} {others others' : List String} :
    Agree R t t' (.of name d put others) (.of name' d' put' others') := by
  have hmap : ∀ (r : Except DecodeError α) (g : α → σ),
      (r.map g).toOption = r.toOption.map g := by
    intro r g
    cases r <;> rfl
  intro s s' hs
  simp only [Field.of, hmap]
  exact Option.rel_map hd fun v v' hv => hput v v' hv s s' hs

/-- Two fields agree, and `φ` gives the name of the second from that of the first. -/
def Match (φ : String → String) (R : σ → σ → Prop) (t t' : Tree) (x x' : Field σ) : Prop :=
  x'.name = φ x.name ∧ Agree R t t' x x'

/-- The first of some entries is read by the field with its name, which was not read before. -/
theorem readAll_cons_toOption (fields : List (Field σ)) (seen : List String) (s : σ) (k t : Tree)
    (es : List (Tree × Tree)) :
    (readAll fields seen s ((k, t) :: es)).toOption = k.text?.bind fun name =>
      (find fields name).bind fun x =>
        if seen.contains x.name then none
        else (x.read t s).toOption.bind fun s =>
          (readAll fields (x.name :: seen) s es).toOption := by
  rw [readAll]
  cases k.text? with
  | none => rfl
  | some name =>
    simp only [Option.bind_some, find]
    cases fields.find? fun x => x.names.contains name with
    | none => rfl
    | some x =>
      simp only [Option.bind_some]
      split
      · rfl
      · cases x.read t s <;> rfl

/-- **Fields are read alike** from entries that are related one by one, if the fields with the
names of two related entries match on them. -/
theorem readAll_alike {fields : List (Field σ)} {E : String → String → Tree → Tree → Prop}
    {φ : String → String} (hφ : φ.Injective)
    (hfields : ∀ name name' t t', E name name' t t' →
      Option.Rel (Match φ R t t') (find fields name) (find fields name'))
    {es es' : List (Tree × Tree)} (hes : List.Forall₂ (Entry E) es es') (seen : List String)
    {s s' : σ} (hs : R s s') :
    Option.Rel R (readAll fields seen s es).toOption
      (readAll fields (seen.map φ) s' es').toOption := by
  induction hes generalizing seen s s' with
  | nil => exact .some hs
  | cons he _ ih =>
    rw [readAll_cons_toOption, readAll_cons_toOption]
    refine Option.rel_bind he fun name name' hname => ?_
    refine Option.rel_bind (hfields _ _ _ _ hname) fun x x' hx => ?_
    obtain ⟨hx', hagree⟩ := hx
    have hseen : (seen.map φ).contains (φ x.name) = seen.contains x.name := by
      simp [hφ.eq_iff]
    rw [hx', hseen]
    split
    · exact .none
    · exact Option.rel_bind (hagree s s' hs) fun _ _ hs => ih (x.name :: seen) hs

/-- The field with a name matches itself if all fields with the name do. -/
theorem rel_find {fields : List (Field σ)} {name : String} {φ : String → String}
    (h : ∀ x ∈ fields, name ∈ x.names → Match φ R t t' x x) :
    Option.Rel (Match φ R t t') (find fields name) (find fields name) := by
  refine Option.rel_self fun x hx => ?_
  have hname : name ∈ x.names := by simpa using List.find?_some hx
  exact h x (List.mem_of_find?_eq_some hx) hname

end Field

namespace Decoder

/-- A record is read if its entries are. -/
theorem record_toOption (kind : String) (fields : List (Field σ)) (init : σ) (t : Tree) :
    (record kind fields init .ok t).toOption =
      t.entries?.bind fun es => (Field.readAll fields [] init es).toOption := by
  rw [record]
  cases t.entries? with
  | none => rfl
  | some es => cases h : Field.readAll fields [] init es <;> simp [h] <;> rfl

/-- **A record** respects what its fields keep, if what they keep are values that agree. -/
theorem Respects.record {fields : List (Field σ)} {E : String → String → Tree → Tree → Prop}
    {R : σ → σ → Prop} {f : σ → β} {kind : String} {init : σ} {φ : String → String}
    (hφ : φ.Injective)
    (hfields : ∀ name name' t t', E name name' t t' →
      Option.Rel (Field.Match φ R t t') (Field.find fields name) (Field.find fields name'))
    (hinit : R init init) (hR : ∀ s s', R s s' → f s = f s') :
    Respects (Alike E) f (record kind fields init .ok) := by
  intro t t' ht
  rw [record_toOption, record_toOption]
  refine Option.rel_bind ht.entries? fun es es' hes => ?_
  rcases hes with rfl | hes
  · exact Option.rel_self fun _ _ => rfl
  · exact Option.rel_imp (Field.readAll_alike hφ hfields hes [] hinit) hR

end Decoder

end Yaml

end DeployPlan
