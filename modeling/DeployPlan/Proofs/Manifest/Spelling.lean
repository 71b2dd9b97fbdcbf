import DeployPlan.Manifest.Decode
import DeployPlan.Proofs.Yaml.Alike
import Mathlib.Logic.Equiv.Basic

/-!
# Spellings of documents

Inputs may be called parameters wherever they are given.  The source of an action and the feed of
a trigger have former names, which still count where the names in use are missing.  So there are
many ways to write one document, and what is read from all of them has the same plain form.

## Main definitions

* `ActionSpec.plain`, `TriggerSpec.plain`, …, `Manifest.plain` — what was read, under the names in
  use.
* `DeployPlan.Spelling.Kept`, `Spelling.Moved` — how else an entry of a record can be written.
* `DependencySpec.Respelled`, `ActionSpec.Respelled`, …, `Manifest.Respelled` — trees of the same
  document in two spellings.

## Main results

* `Spelling.respects_moved` — a record is read alike if an entry is moved to a name that it can
  have as well.
* `Manifest.decoder_respects` — documents in two spellings are read with the same plain form, or
  not at all.
-/

set_option autoImplicit false

namespace DeployPlan

open Yaml (Tree Decoder)
open Yaml.Tree (Alike SameName)

/-! ## Plain forms -/

namespace ActionSpec

/-- The action with its source under the name in use. -/
def plain (a : ActionSpec) : ActionSpec := { a with function := a.source, location := "" }

/-- The action with its source under the former name. -/
def moved (a : ActionSpec) : ActionSpec := { a with function := "", location := a.function }

/-- The source is the same in the plain form. -/
@[simp] theorem source_plain (a : ActionSpec) : a.plain.source = a.source := by
  show (if a.source.isEmpty then "" else a.source) = a.source
  cases h : a.source.isEmpty with
  | true => exact (String.isEmpty_iff.mp h).symm
  | false => rfl

/-- An action without a source under the former name has the same plain form when its source is
moved there. -/
theorem plain_moved {a : ActionSpec} (h : a.location = "") : a.moved.plain = a.plain := by
  have hsource : a.moved.source = a.source := by
    show a.function = if a.function.isEmpty then a.location else a.function
    cases hempty : a.function.isEmpty with
    | true => rw [if_pos rfl, h, String.isEmpty_iff.mp hempty]
    | false => rfl
  rw [plain, plain, hsource]
  rfl

end ActionSpec

namespace TriggerSpec

/-- The trigger with its feed under the name in use. -/
def plain (x : TriggerSpec) : TriggerSpec := { x with feed := x.feedSource, source := "" }

/-- The trigger with its feed under the former name. -/
def moved (x : TriggerSpec) : TriggerSpec := { x with feed := "", source := x.feed }

/-- The feed is the same in the plain form. -/
@[simp] theorem feedSource_plain (x : TriggerSpec) : x.plain.feedSource = x.feedSource := by
  show (if x.feedSource.isEmpty then "" else x.feedSource) = x.feedSource
  cases h : x.feedSource.isEmpty with
  | true => exact (String.isEmpty_iff.mp h).symm
  | false => rfl

/-- A trigger without a feed under the former name has the same plain form when its feed is moved
there. -/
theorem plain_moved {x : TriggerSpec} (h : x.source = "") : x.moved.plain = x.plain := by
  have hfeed : x.moved.feedSource = x.feedSource := by
    show x.feed = if x.feed.isEmpty then x.source else x.feed
    cases hempty : x.feed.isEmpty with
    | true => rw [if_pos rfl, h, String.isEmpty_iff.mp hempty]
    | false => rfl
  rw [plain, plain, hfeed]
  rfl

end TriggerSpec

/-- The package with all names in use. -/
def PackageSpec.plain (p : PackageSpec) : PackageSpec :=
  { p with actions := p.actions.mapValues ActionSpec.plain
           triggers := p.triggers.mapValues TriggerSpec.plain }

/-- The project with all names in use. -/
def ProjectSpec.plain (p : ProjectSpec) : ProjectSpec :=
  { p with package := p.package.map PackageSpec.plain
           packages := p.packages.mapValues PackageSpec.plain }

/-- The document with all names in use. -/
def Manifest.plain (m : Manifest) : Manifest :=
  { m with package := m.package.map PackageSpec.plain
           packages := m.packages.mapValues PackageSpec.plain
           project := m.project.map ProjectSpec.plain }

/-! ## Spellings -/

namespace Spelling

/-- An entry of a record, and how else it can be written: inputs may be called parameters. -/
inductive Kept : String → String → Tree → Tree → Prop
  | same (name : String) (t : Tree) : Kept name name t t
  | inputs (t : Tree) : Kept "inputs" "parameters" t t

/-- An entry of a record without the name `new`, and how else it can be written: what stands under
`old` is moved to `new`. -/
inductive Moved (old new : String) : String → String → Tree → Tree → Prop
  | moved (t : Tree) : Moved old new old new t t
  | kept {name name' : String} {t t' : Tree} (hold : name ≠ old) (hnew : name ≠ new)
    (h : Kept name name' t t') : Moved old new name name' t t'

end Spelling

open Spelling

/-- Trees of a dependency in two spellings. -/
def DependencySpec.Respelled : Tree → Tree → Prop := Alike Kept

/-- Trees of an action in two spellings.  Its source is moved to the former name only if nothing
stands there. -/
def ActionSpec.Respelled (t t' : Tree) : Prop :=
  Alike Kept t t' ∨ Alike (Moved "function" "location") t t'

/-- Trees of a trigger in two spellings.  Its feed is moved to the former name only if nothing
stands there. -/
def TriggerSpec.Respelled (t t' : Tree) : Prop :=
  Alike Kept t t' ∨ Alike (Moved "feed" "source") t t'

/-- An entry of a package in two spellings. -/
inductive PackageSpec.RespelledEntry : String → String → Tree → Tree → Prop
  | kept {name name' : String} {t t' : Tree} (h : Kept name name' t t') :
    RespelledEntry name name' t t'
  | dependencies {t t' : Tree} (h : Alike (SameName DependencySpec.Respelled) t t') :
    RespelledEntry "dependencies" "dependencies" t t'
  | actions {t t' : Tree} (h : Alike (SameName ActionSpec.Respelled) t t') :
    RespelledEntry "actions" "actions" t t'
  | triggers {t t' : Tree} (h : Alike (SameName TriggerSpec.Respelled) t t') :
    RespelledEntry "triggers" "triggers" t t'

/-- Trees of a package in two spellings. -/
def PackageSpec.Respelled : Tree → Tree → Prop := Alike PackageSpec.RespelledEntry

/-- An entry of a project in two spellings. -/
inductive ProjectSpec.RespelledEntry : String → String → Tree → Tree → Prop
  | same (name : String) (t : Tree) : RespelledEntry name name t t
  | package {t t' : Tree} (h : PackageSpec.Respelled t t') :
    RespelledEntry "package" "package" t t'
  | packages {t t' : Tree} (h : Alike (SameName PackageSpec.Respelled) t t') :
    RespelledEntry "packages" "packages" t t'

/-- Trees of a project in two spellings. -/
def ProjectSpec.Respelled : Tree → Tree → Prop := Alike ProjectSpec.RespelledEntry

/-- An entry of a document in two spellings. -/
inductive Manifest.RespelledEntry : String → String → Tree → Tree → Prop
  | same (name : String) (t : Tree) : RespelledEntry name name t t
  | package {t t' : Tree} (h : PackageSpec.Respelled t t') :
    RespelledEntry "package" "package" t t'
  | packages {t t' : Tree} (h : Alike (SameName PackageSpec.Respelled) t t') :
    RespelledEntry "packages" "packages" t t'
  | project {t t' : Tree} (h : ProjectSpec.Respelled t t') :
    RespelledEntry "project" "project" t t'

/-- Trees of a document in two spellings. -/
def Manifest.Respelled : Tree → Tree → Prop := Alike Manifest.RespelledEntry

/-! ## Reading records -/

namespace Spelling

open Yaml.Field (Agree Match find)

variable {α β σ : Type} {fields : List (Yaml.Field σ)} {f : σ → β}

/-- One field has both names of inputs. -/
def NamesInputs (fields : List (Yaml.Field σ)) : Prop :=
  find fields "parameters" = find fields "inputs"

/-- An entry that is kept is read by one field under both of its names. -/
theorem Kept.rel_find {R : σ → σ → Prop} (hinputs : NamesInputs fields) {φ : String → String}
    {name name' : String} {t t' : Tree} (h : Kept name name' t t')
    (hfields : ∀ x ∈ fields, name ∈ x.names → ∀ t, Match φ R t t x x) :
    Option.Rel (Match φ R t t') (find fields name) (find fields name') := by
  cases h with
  | same => exact Yaml.Field.rel_find fun x hx hname => hfields x hx hname t
  | inputs =>
    rw [hinputs]
    exact Yaml.Field.rel_find fun x hx hname => hfields x hx hname t

/-- A record whose inputs are called parameters is read as the same. -/
theorem respects_kept (hinputs : NamesInputs fields) (f : σ → β) (kind : String) (init : σ) :
    Decoder.Respects (Alike Kept) f (.record kind fields init .ok) := by
  refine .record (R := Eq) Function.injective_id (fun name name' t t' h => ?_) rfl
    fun s s' hs => congrArg f hs
  refine h.rel_find hinputs fun x _ _ t => ⟨rfl, fun s s' hs => ?_⟩
  cases hs
  exact Option.rel_self fun _ _ => rfl

/-- The second record is the first with something moved to a place that was free. -/
def MovedTo (P : σ → Prop) (g : σ → σ) (s s' : σ) : Prop := P s ∧ s' = g s

variable {P : σ → Prop} {g : σ → σ}

/-- What fields put in can be moved before or afterwards. -/
theorem agree_move {d : Decoder α} {put put' : α → σ → σ}
    (h : ∀ v s, P s → P (put v s) ∧ put' v (g s) = g (put v s)) {t : Tree}
    {name name' : String} {others others' : List String} :
    Agree (MovedTo P g) t t (.of name d put others) (.of name' d put' others') := by
  refine .of (f := id) (Option.rel_self fun _ _ => rfl) fun v v' hv s s' hs => ?_
  obtain rfl : v = v' := hv
  obtain ⟨hs, rfl⟩ := hs
  exact h v s hs

/-- A field of neither name, whose value can be put in before or after something is moved. -/
def Stays (old new : String) (P : σ → Prop) (g : σ → σ) (x : Yaml.Field σ) : Prop :=
  x.name ≠ old ∧ x.name ≠ new ∧ ∀ t, Agree (MovedTo P g) t t x x

/-- The rule for such fields. -/
theorem Stays.of {old new name : String} {others : List String} {d : Decoder α}
    {put : α → σ → σ} (hold : name ≠ old) (hnew : name ≠ new)
    (h : ∀ v s, P s → P (put v s) ∧ put v (g s) = g (put v s)) :
    Stays old new P g (.of name d put others) :=
  ⟨hold, hnew, fun _ => agree_move h⟩

/-- **A record in which an entry is moved** is read as the one with what it says moved, if the
fields for both names put it in the one place and in the other. -/
theorem respects_moved {old new : String} {x x' : Yaml.Field σ} (hx : find fields old = some x)
    (hx' : find fields new = some x') (hnames : x.names = [old]) (hnames' : x'.names = [new])
    (hmoved : ∀ t, Agree (MovedTo P g) t t x x') (hinputs : NamesInputs fields)
    (hstays : ∀ y ∈ fields, y.names = [old] ∨ y.names = [new] ∨ Stays old new P g y)
    {kind : String} {init : σ} (hinit : P init ∧ init = g init)
    (hf : ∀ s, P s → f (g s) = f s) :
    Decoder.Respects (Alike (Moved old new)) f (.record kind fields init .ok) := by
  -- the fields that were read are told apart by their names with `old` and `new` exchanged
  refine .record (R := MovedTo P g) (Equiv.swap old new).injective
    (fun name name' t t' h => ?_) hinit fun s s' hs => ?_
  · cases h with
    | moved =>
      rw [hx, hx']
      refine .some ⟨?_, hmoved t⟩
      rw [(List.cons.inj hnames).1, (List.cons.inj hnames').1, Equiv.swap_apply_left]
    | kept hold hnew h =>
      refine h.rel_find hinputs fun y hy hname t => ?_
      rcases hstays y hy with hy | hy | ⟨hyold, hynew, hagree⟩
      · exact absurd (List.mem_singleton.mp (hy ▸ hname)) hold
      · exact absurd (List.mem_singleton.mp (hy ▸ hname)) hnew
      · exact ⟨(Equiv.swap_apply_of_ne_of_ne hyold hynew).symm, hagree t⟩
  · rw [hs.2, hf s hs.1]

/-- The rule for a field whose value has the form `f` in the form `h` of a record. -/
theorem agree_form {f : α → α} {h : σ → σ} {d : Decoder α} {put : α → σ → σ} {name : String}
    {others : List String} (hput : ∀ v s, h (put v s) = put (f v) (h s)) {t t' : Tree}
    (hd : Option.Rel (fun v v' => f v = f v') (d t).toOption (d t').toOption) :
    Agree (fun s s' => h s = h s') t t' (.of name d put others) (.of name d put others) :=
  .of hd fun v v' hv s s' hs => by rw [hput, hput, hv, hs]

/-- The same for one tree. -/
theorem agree_form_self {f : α → α} {h : σ → σ} {d : Decoder α} {put : α → σ → σ}
    {name : String} {others : List String} (hput : ∀ v s, h (put v s) = put (f v) (h s))
    (t : Tree) :
    Agree (fun s s' => h s = h s') t t (.of name d put others) (.of name d put others) :=
  agree_form hput (Decoder.respects_eq f d t t rfl)

end Spelling

/-! ## Reading documents -/

/-- Dependencies in two spellings are read as the same. -/
theorem DependencySpec.decoder_respects :
    Decoder.Respects DependencySpec.Respelled id DependencySpec.decoder := by
  have hinputs : NamesInputs fields := rfl
  exact respects_kept hinputs id _ _

/-- Actions in two spellings are read with the same plain form. -/
theorem ActionSpec.decoder_respects :
    Decoder.Respects ActionSpec.Respelled ActionSpec.plain ActionSpec.decoder := by
  have hinputs : NamesInputs fields := rfl
  rintro t t' (h | h)
  · exact respects_kept hinputs ActionSpec.plain _ _ t t' h
  · refine respects_moved (P := fun a => a.location = "") (g := moved) rfl rfl rfl rfl
      (fun t => ?_) hinputs ?_ ⟨rfl, rfl⟩ (fun a => plain_moved) t t' h
    · refine agree_move ?_
      exact fun v a ha => ⟨ha, rfl⟩
    · simp only [fields, List.forall_mem_cons]
      refine ⟨.inl rfl, .inr (.inl rfl), ?_, ?_, ?_, ?_, ?_, ?_, ?_, ?_, ?_, List.forall_mem_nil _⟩
      all_goals
        refine .inr (.inr (.of (by decide) (by decide) ?_))
        exact fun _ _ ha => ⟨ha, rfl⟩

/-- Triggers in two spellings are read with the same plain form. -/
theorem TriggerSpec.decoder_respects :
    Decoder.Respects TriggerSpec.Respelled TriggerSpec.plain TriggerSpec.decoder := by
  have hinputs : NamesInputs fields := rfl
  rintro t t' (h | h)
  · exact respects_kept hinputs TriggerSpec.plain _ _ t t' h
  · refine respects_moved (P := fun x => x.source = "") (g := moved) rfl rfl rfl rfl
      (fun t => ?_) hinputs ?_ ⟨rfl, rfl⟩ (fun x => plain_moved) t t' h
    · refine agree_move ?_
      exact fun v x hx => ⟨hx, rfl⟩
    · simp only [fields, List.forall_mem_cons]
      refine ⟨?_, .inl rfl, .inr (.inl rfl), ?_, ?_, List.forall_mem_nil _⟩
      all_goals
        refine .inr (.inr (.of (by decide) (by decide) ?_))
        exact fun _ _ hx => ⟨hx, rfl⟩

/-- Packages in two spellings are read with the same plain form. -/
theorem PackageSpec.decoder_respects :
    Decoder.Respects PackageSpec.Respelled PackageSpec.plain PackageSpec.decoder := by
  have hinputs : NamesInputs fields := rfl
  have hself : ∀ x ∈ fields, ∀ t, Yaml.Field.Agree (fun p p' => plain p = plain p') t t x x := by
    simp only [fields, List.forall_mem_cons]
    refine ⟨?_, ?_, ?_, ?_, ?_, agree_form_self (f := KeyMap.mapValues ActionSpec.plain) ?_, ?_,
      agree_form_self (f := KeyMap.mapValues TriggerSpec.plain) ?_, ?_, ?_, ?_, ?_,
      List.forall_mem_nil _⟩
    case refine_6 | refine_8 => exact fun _ _ => rfl
    all_goals
      refine agree_form_self (f := id) ?_
      exact fun _ _ => rfl
  refine .record (R := fun p p' => plain p = plain p') Function.injective_id
    (fun name name' t t' h => ?_) rfl fun _ _ h => h
  cases h with
  | kept h => exact h.rel_find hinputs fun x hx _ t => ⟨rfl, hself x hx t⟩
  | dependencies h =>
    have hread := DependencySpec.decoder_respects.mapOf t t' h
    have hid : ∀ v : KeyMap DependencySpec, v.mapValues id = v := KeyMap.mapWithKey_id
    refine .some ⟨rfl, agree_form ?_ hread⟩
    exact fun v p => by rw [hid]; rfl
  | actions h =>
    refine .some ⟨rfl, agree_form ?_ (ActionSpec.decoder_respects.mapOf t t' h)⟩
    exact fun _ _ => rfl
  | triggers h =>
    refine .some ⟨rfl, agree_form ?_ (TriggerSpec.decoder_respects.mapOf t t' h)⟩
    exact fun _ _ => rfl

/-- Projects in two spellings are read with the same plain form. -/
theorem ProjectSpec.decoder_respects :
    Decoder.Respects ProjectSpec.Respelled ProjectSpec.plain ProjectSpec.decoder := by
  have hself : ∀ x ∈ fields, ∀ t, Yaml.Field.Agree (fun p p' => plain p = plain p') t t x x := by
    simp only [fields, List.forall_mem_cons]
    refine ⟨agree_form_self (f := id) ?_, agree_form_self (f := id) ?_,
      agree_form_self (f := Option.map PackageSpec.plain) ?_,
      agree_form_self (f := KeyMap.mapValues PackageSpec.plain) ?_, List.forall_mem_nil _⟩
    all_goals exact fun _ _ => rfl
  refine .record (R := fun p p' => plain p = plain p') Function.injective_id
    (fun name name' t t' h => ?_) rfl fun _ _ h => h
  cases h with
  | same => exact Yaml.Field.rel_find fun x hx _ => ⟨rfl, hself x hx t⟩
  | package h =>
    have hread := PackageSpec.decoder_respects.optional fun _ _ h => h.absent?_eq
    refine .some ⟨rfl, agree_form ?_ (hread t t' h)⟩
    exact fun _ _ => rfl
  | packages h =>
    refine .some ⟨rfl, agree_form ?_ (PackageSpec.decoder_respects.mapOf t t' h)⟩
    exact fun _ _ => rfl

/-- **Documents in two spellings** are read with the same plain form, or neither of them is
read. -/
theorem Manifest.decoder_respects :
    Decoder.Respects Manifest.Respelled Manifest.plain Manifest.decoder := by
  have hself : ∀ x ∈ fields, ∀ t, Yaml.Field.Agree (fun m m' => plain m = plain m') t t x x := by
    simp only [fields, List.forall_mem_cons]
    refine ⟨agree_form_self (f := Option.map PackageSpec.plain) ?_,
      agree_form_self (f := KeyMap.mapValues PackageSpec.plain) ?_,
      agree_form_self (f := Option.map ProjectSpec.plain) ?_, List.forall_mem_nil _⟩
    all_goals exact fun _ _ => rfl
  refine .record (R := fun m m' => plain m = plain m') Function.injective_id
    (fun name name' t t' h => ?_) rfl fun _ _ h => h
  cases h with
  | same => exact Yaml.Field.rel_find fun x hx _ => ⟨rfl, hself x hx t⟩
  | package h =>
    have hread := PackageSpec.decoder_respects.optional fun _ _ h => h.absent?_eq
    refine .some ⟨rfl, agree_form ?_ (hread t t' h)⟩
    exact fun _ _ => rfl
  | packages h =>
    refine .some ⟨rfl, agree_form ?_ (PackageSpec.decoder_respects.mapOf t t' h)⟩
    exact fun _ _ => rfl
  | project h =>
    have hread := ProjectSpec.decoder_respects.optional fun _ _ h => h.absent?_eq
    refine .some ⟨rfl, agree_form ?_ (hread t t' h)⟩
    exact fun _ _ => rfl

end DeployPlan
