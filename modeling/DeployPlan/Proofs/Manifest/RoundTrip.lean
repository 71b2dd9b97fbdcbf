import DeployPlan.Manifest.Decode
import DeployPlan.Proofs.Manifest.Fields

/-!
# Manifests that are written and read again

A document that was read is the document of its value, but for one thing: a parameter that is
declared with nulls only, for its type, its value and its default.  Nothing is written of these,
so that what remains is a mapping that declares no parameter, but is the value of one.

## Main definitions

* `DeployPlan.ParamDeclaration.isBlank` — a declaration with neither a type, nor a value, nor a
  default.
* `ParamSpec.settled`, `Manifest.settled` and so on — with the values that blank declarations are
  written as in their places.
* `ParamSpec.Readable`, `Manifest.Readable` and so on — what is known of parameters, documents and
  their parts that were read.

## Main results

* `Manifest.parse_gives_readable` — documents that are read are readable.
* `Manifest.decoder_encode` — a readable document is written and read again as the settled one.
* `Manifest.encode_settled` — which has the same value.
-/

set_option autoImplicit false

namespace DeployPlan

open Yaml (Value Tree Decoder DecodeError)

/-! ## Declarations -/

namespace ParamDeclaration

/-- A declaration with neither a type, nor a value, nor a default. -/
def isBlank (d : ParamDeclaration) : Bool :=
  d.type.isNone && d.value.isNone && d.fallback.isNone

/-- A free value as a declaration holds it. -/
def Holds (o : Option Value) : Prop := ∀ v, o = some v → v.isNull = false ∧ v.Distinct

/-- A declaration as it is read. -/
structure Readable (d : ParamDeclaration) : Prop where
  value : Holds d.value
  fallback : Holds d.fallback

/-- Declarations are read from the trees of values. -/
theorem decoder_gives_readable : Decoder.Gives Tree.OfDistinct decoder Readable := by
  have hnone : Holds none := nofun
  refine .record Tree.ofDistinct_hereditary ⟨hnone, hnone⟩ ?_
  simp only [fields, List.forall_mem_cons, List.not_mem_nil, false_implies, implies_true]
  exact ⟨.free fun _ _ h => { h with },
    .of Decoder.optional_value_gives fun _ _ hv h => { h with value := hv },
    .of Decoder.optional_value_gives fun _ _ hv h => { h with fallback := hv },
    .free fun _ _ h => { h with }, .free fun _ _ h => { h with }, trivial⟩

/-- A text that may be left out is read as it was written. -/
theorem optional_text_of_some (o : Option String) (s : String) (_ : o = some s) :
    Decoder.optional Decoder.text (Tree.ofValue (.str s)) = .ok (some s) := rfl

/-- A value that a declaration holds is read as it was written. -/
theorem optional_value_of_holds {o : Option Value} (h : Holds o) (v : Value) (hv : o = some v) :
    Decoder.optional Decoder.value (Tree.ofValue (id v)) = .ok (some v) :=
  Decoder.optional_of_ok (h v hv).1 (Decoder.value_ofValue (h v hv).2)

/-- **A declaration** that was written is read again. -/
theorem decoder_encode {d : ParamDeclaration} (h : d.Readable) :
    decoder (Tree.ofValue d.encode) = .ok d := by
  refine Decoder.record_of_puts
    (((((Yaml.Field.Puts.optional rfl (optional_text_of_some d.type)).append
      (.optional rfl (optional_value_of_holds h.value)) (by decide)).append
      (.optional rfl (optional_value_of_holds h.fallback)) (by decide)).append
      (.optional rfl (optional_text_of_some d.description)) (by decide)).append
      (.single rfl (a := d.required) rfl) (by decide)) ?_
  rcases d with ⟨_ | _, _ | _, _ | _, _ | _, _⟩ <;> rfl

/-- What is written of a declaration declares a parameter, unless the declaration is blank. -/
theorem isDeclaration_encode (d : ParamDeclaration) :
    ParamSpec.isDeclaration d.encode = !d.isBlank := by
  rcases d with ⟨_ | _, _ | _, _ | _, _ | _, _⟩ <;> rfl

/-- It has distinct keys. -/
theorem distinct_encode {d : ParamDeclaration} (h : d.Readable) : d.encode.Distinct := by
  have hvalue : ∀ v, d.value = some v → v.Distinct := fun v hv => (h.value v hv).2
  have hfallback : ∀ v, d.fallback = some v → v.Distinct := fun v hv => (h.fallback v hv).2
  rcases d with ⟨_ | type, _ | value, _ | fallback, _ | description, required⟩ <;>
    simp_all [encode, encodeOptional, encodeField, Value.Distinct, Value.DistinctEntries,
      Value.same]

end ParamDeclaration

/-! ## Parameters -/

namespace ParamSpec

/-- A blank declaration becomes the value that it is written as. -/
def settled : ParamSpec → ParamSpec
  | .declared d => if d.isBlank then .literal d.encode else .declared d
  | .literal v => .literal v

/-- A parameter as it is read. -/
inductive Readable : ParamSpec → Prop
  | declared {d : ParamDeclaration} (h : d.Readable) : Readable (.declared d)
  | literal {v : Value} (h : v.Distinct) (hdeclares : isDeclaration v = false) :
    Readable (.literal v)

/-- Parameters that are read are readable. -/
theorem decoder_gives_readable : Decoder.Gives Tree.Sound decoder Readable := by
  intro t ht spec hspec
  cases hv : Decoder.value t with
  | error e => simp [decoder, hv, Except.bind] at hspec
  | ok v =>
    have hdistinct := Decoder.value_gives_distinct t ht v hv
    simp only [decoder, hv, Except.bind, ofValue] at hspec
    split at hspec
    · split at hspec
      · rename_i d hd
        cases hspec
        exact .declared (ParamDeclaration.decoder_gives_readable _ ⟨v, hdistinct, rfl⟩ d hd)
      · cases hspec
    · rename_i hdeclares
      cases hspec
      exact .literal hdistinct (by simpa using hdeclares)

/-- **A parameter** that was written is read again as the settled one. -/
theorem decoder_encode {spec : ParamSpec} (h : spec.Readable) :
    decoder (Tree.ofValue spec.encode) = .ok spec.settled := by
  cases h with
  | literal hdistinct hdeclares =>
    simp [decoder, encode, Decoder.value_ofValue hdistinct, Except.bind, ofValue, hdeclares,
      settled]
  | @declared d hd =>
    have hread := ParamDeclaration.decoder_encode hd
    have hdeclares := d.isDeclaration_encode
    cases hblank : d.isBlank <;>
      simp [decoder, encode, Decoder.value_ofValue (ParamDeclaration.distinct_encode hd),
        Except.bind, ofValue, hdeclares, hread, settled, hblank]

/-- Settled parameters have the same values. -/
theorem encode_settled (spec : ParamSpec) : spec.settled.encode = spec.encode := by
  cases spec with
  | literal v => rfl
  | declared d =>
    rw [settled]
    split <;> rfl

end ParamSpec

/-! ## Maps of parameters and values -/

/-- Inputs with the values that blank declarations are written as. -/
abbrev settledInputs (inputs : KeyMap ParamSpec) : KeyMap ParamSpec :=
  inputs.mapValues ParamSpec.settled

/-- Inputs that are read are readable. -/
theorem inputs_give_readable :
    Decoder.Gives Tree.Sound (.mapOf ParamSpec.decoder) (KeyMap.All ParamSpec.Readable) :=
  ParamSpec.decoder_gives_readable.mapOf Tree.sound_hereditary

/-- Inputs that were written are read again as the settled ones. -/
theorem inputs_encode {inputs : KeyMap ParamSpec} (h : inputs.All ParamSpec.Readable) :
    Decoder.mapOf ParamSpec.decoder (Tree.ofValue (encodeMap ParamSpec.encode inputs)) =
      .ok (settledInputs inputs) :=
  Decoder.mapOf_encodeMap fun key spec hspec => ParamSpec.decoder_encode (h key spec hspec)

/-- Annotations that are read have distinct keys. -/
theorem annotations_give_distinct :
    Decoder.Gives Tree.Sound (.mapOf .value) (KeyMap.All Value.Distinct) :=
  Decoder.value_gives_distinct.mapOf Tree.sound_hereditary

/-- Annotations that were written are read again. -/
theorem annotations_encode {annotations : KeyMap Value} (h : annotations.All Value.Distinct) :
    Decoder.mapOf .value (Tree.ofValue (encodeMap id annotations)) = .ok annotations :=
  Decoder.mapOf_encodeMap_self fun key v hv => Decoder.value_ofValue (h key v hv)

/-! ## Entities -/

namespace LimitsSpec

/-- Limits as they are read. -/
structure Readable (l : LimitsSpec) : Prop where
  timeout : ∀ n, l.timeout = some n → Decoder.Fits n
  memorySize : ∀ n, l.memorySize = some n → Decoder.Fits n
  logSize : ∀ n, l.logSize = some n → Decoder.Fits n
  concurrentActivations : ∀ n, l.concurrentActivations = some n → Decoder.Fits n
  userInvocationRate : ∀ n, l.userInvocationRate = some n → Decoder.Fits n
  codeSize : ∀ n, l.codeSize = some n → Decoder.Fits n
  parameterSize : ∀ n, l.parameterSize = some n → Decoder.Fits n

/-- Limits that are read are readable. -/
theorem decoder_gives_readable : Decoder.Gives Tree.Sound decoder Readable := by
  have hlimit := Decoder.integer_gives_fits.optional
  have hinit : Readable {} := by constructor <;> exact nofun
  refine .record Tree.sound_hereditary hinit ?_
  simp only [fields, List.forall_mem_cons, List.not_mem_nil, false_implies, implies_true]
  exact ⟨.of hlimit fun _ _ hn h => { h with timeout := hn },
    .of hlimit fun _ _ hn h => { h with memorySize := hn },
    .of hlimit fun _ _ hn h => { h with logSize := hn },
    .of hlimit fun _ _ hn h => { h with concurrentActivations := hn },
    .of hlimit fun _ _ hn h => { h with userInvocationRate := hn },
    .of hlimit fun _ _ hn h => { h with codeSize := hn },
    .of hlimit fun _ _ hn h => { h with parameterSize := hn }, trivial⟩

/-- **Limits** that were written are read again. -/
theorem decoder_encode {l : LimitsSpec} (h : l.Readable) :
    decoder (Tree.ofValue l.encode) = .ok l :=
  Decoder.record_of_puts
    (.cons rfl (Decoder.optional_integer_encodeLimit h.timeout) (by decide) <|
      .cons rfl (Decoder.optional_integer_encodeLimit h.memorySize) (by decide) <|
      .cons rfl (Decoder.optional_integer_encodeLimit h.logSize) (by decide) <|
      .cons rfl (Decoder.optional_integer_encodeLimit h.concurrentActivations) (by decide) <|
      .cons rfl (Decoder.optional_integer_encodeLimit h.userInvocationRate) (by decide) <|
      .cons rfl (Decoder.optional_integer_encodeLimit h.codeSize) (by decide) <|
      .single rfl (Decoder.optional_integer_encodeLimit h.parameterSize)) rfl

end LimitsSpec

namespace ActionSpec

/-- An action with settled inputs and outputs. -/
def settled (a : ActionSpec) : ActionSpec :=
  { a with inputs := settledInputs a.inputs, outputs := settledInputs a.outputs }

/-- An action as it is read. -/
structure Readable (a : ActionSpec) : Prop where
  inputs : a.inputs.All ParamSpec.Readable
  outputs : a.outputs.All ParamSpec.Readable
  annotations : a.annotations.All Value.Distinct
  limits : ∀ l, a.limits = some l → l.Readable

/-- Actions that are read are readable. -/
theorem decoder_gives_readable : Decoder.Gives Tree.Sound decoder Readable := by
  have hinit : Readable {} :=
    ⟨KeyMap.all_empty _, KeyMap.all_empty _, KeyMap.all_empty _, fun _ h => by cases h⟩
  refine .record Tree.sound_hereditary hinit ?_
  simp only [fields, List.forall_mem_cons, List.not_mem_nil, false_implies, implies_true]
  exact ⟨.free fun _ _ h => { h with }, .free fun _ _ h => { h with },
    .free fun _ _ h => { h with }, .free fun _ _ h => { h with }, .free fun _ _ h => { h with },
    .free fun _ _ h => { h with },
    .of inputs_give_readable fun _ _ hm h => { h with inputs := hm },
    .of inputs_give_readable fun _ _ hm h => { h with outputs := hm },
    .of annotations_give_distinct fun _ _ hm h => { h with annotations := hm },
    .free fun _ _ h => { h with },
    .of LimitsSpec.decoder_gives_readable.optional fun _ _ hl h => { h with limits := hl },
    trivial⟩

/-- The limits of an action, if it has any, are read again. -/
theorem optional_limits {o : Option LimitsSpec} (h : ∀ l, o = some l → l.Readable) :
    Decoder.optional LimitsSpec.decoder (Tree.ofValue ((o.map LimitsSpec.encode).getD .null)) =
      .ok o := by
  cases o with
  | none => rfl
  | some l => exact Decoder.optional_of_ok rfl (LimitsSpec.decoder_encode (h l rfl))

/-- **An action** that was written is read again as the settled one. -/
theorem decoder_encode {a : ActionSpec} (h : a.Readable) :
    decoder (Tree.ofValue a.encode) = .ok a.settled :=
  Decoder.record_of_puts
    (.cons rfl (a := a.function) rfl (by decide) <| .cons rfl (a := a.location) rfl (by decide) <|
      .cons rfl (a := a.runtime) rfl (by decide) <| .cons rfl (a := a.main) rfl (by decide) <|
      .cons rfl (a := a.namespace) rfl (by decide) <|
      .cons rfl (a := a.version) rfl (by decide) <|
      .cons rfl (inputs_encode h.inputs) (by decide) <|
      .cons rfl (inputs_encode h.outputs) (by decide) <|
      .cons rfl (annotations_encode h.annotations) (by decide) <|
      .cons rfl (a := a.webExport) rfl (by decide) <|
      .single rfl (optional_limits h.limits)) rfl

/-- Settled actions have the same values. -/
theorem encode_settled (a : ActionSpec) : a.settled.encode = a.encode := by
  simp only [encode, settled, encodeMap_mapValues ParamSpec.encode_settled]

end ActionSpec

namespace SequenceSpec

/-- A sequence as it is read. -/
def Readable (s : SequenceSpec) : Prop := s.annotations.All Value.Distinct

/-- Sequences that are read are readable. -/
theorem decoder_gives_readable : Decoder.Gives Tree.Sound decoder Readable := by
  refine .record Tree.sound_hereditary (KeyMap.all_empty _) ?_
  simp only [fields, List.forall_mem_cons, List.not_mem_nil, false_implies, implies_true]
  exact ⟨.free fun _ _ h => h, .of annotations_give_distinct fun _ _ hm _ => hm, trivial⟩

/-- **A sequence** that was written is read again. -/
theorem decoder_encode {s : SequenceSpec} (h : s.Readable) :
    decoder (Tree.ofValue s.encode) = .ok s :=
  Decoder.record_of_puts
    (.cons rfl (a := s.actions) rfl (by decide) <| .single rfl (annotations_encode h)) rfl

end SequenceSpec

namespace TriggerSpec

/-- A trigger with settled inputs. -/
def settled (t : TriggerSpec) : TriggerSpec := { t with inputs := settledInputs t.inputs }

/-- A trigger as it is read. -/
structure Readable (t : TriggerSpec) : Prop where
  inputs : t.inputs.All ParamSpec.Readable
  annotations : t.annotations.All Value.Distinct

/-- Triggers that are read are readable. -/
theorem decoder_gives_readable : Decoder.Gives Tree.Sound decoder Readable := by
  refine .record Tree.sound_hereditary ⟨KeyMap.all_empty _, KeyMap.all_empty _⟩ ?_
  simp only [fields, List.forall_mem_cons, List.not_mem_nil, false_implies, implies_true]
  exact ⟨.free fun _ _ h => { h with }, .free fun _ _ h => { h with },
    .free fun _ _ h => { h with },
    .of inputs_give_readable fun _ _ hm h => { h with inputs := hm },
    .of annotations_give_distinct fun _ _ hm h => { h with annotations := hm }, trivial⟩

/-- **A trigger** that was written is read again as the settled one. -/
theorem decoder_encode {t : TriggerSpec} (h : t.Readable) :
    decoder (Tree.ofValue t.encode) = .ok t.settled :=
  Decoder.record_of_puts
    (.cons rfl (a := t.namespace) rfl (by decide) <| .cons rfl (a := t.feed) rfl (by decide) <|
      .cons rfl (a := t.source) rfl (by decide) <|
      .cons rfl (inputs_encode h.inputs) (by decide) <|
      .single rfl (annotations_encode h.annotations)) rfl

/-- Settled triggers have the same values. -/
theorem encode_settled (t : TriggerSpec) : t.settled.encode = t.encode := by
  simp only [encode, settled, encodeMap_mapValues ParamSpec.encode_settled]

end TriggerSpec

/-- **A rule** that was written is read again. -/
theorem RuleSpec.decoder_encode (r : RuleSpec) : decoder (Tree.ofValue r.encode) = .ok r :=
  Decoder.record_of_puts
    (.cons rfl (a := r.namespace) rfl (by decide) <|
      .cons rfl (a := r.trigger) rfl (by decide) <| .single rfl (a := r.action) rfl) rfl

namespace DependencySpec

/-- A dependency with settled inputs. -/
def settled (d : DependencySpec) : DependencySpec :=
  { d with inputs := settledInputs d.inputs }

/-- A dependency as it is read. -/
structure Readable (d : DependencySpec) : Prop where
  inputs : d.inputs.All ParamSpec.Readable
  annotations : d.annotations.All Value.Distinct

/-- Dependencies that are read are readable. -/
theorem decoder_gives_readable : Decoder.Gives Tree.Sound decoder Readable := by
  refine .record Tree.sound_hereditary ⟨KeyMap.all_empty _, KeyMap.all_empty _⟩ ?_
  simp only [fields, List.forall_mem_cons, List.not_mem_nil, false_implies, implies_true]
  exact ⟨.free fun _ _ h => { h with }, .free fun _ _ h => { h with },
    .of inputs_give_readable fun _ _ hm h => { h with inputs := hm },
    .of annotations_give_distinct fun _ _ hm h => { h with annotations := hm }, trivial⟩

/-- **A dependency** that was written is read again as the settled one. -/
theorem decoder_encode {d : DependencySpec} (h : d.Readable) :
    decoder (Tree.ofValue d.encode) = .ok d.settled :=
  Decoder.record_of_puts
    (.cons rfl (a := d.location) rfl (by decide) <|
      .cons rfl (a := d.version) rfl (by decide) <|
      .cons rfl (inputs_encode h.inputs) (by decide) <|
      .single rfl (annotations_encode h.annotations)) rfl

/-- Settled dependencies have the same values. -/
theorem encode_settled (d : DependencySpec) : d.settled.encode = d.encode := by
  simp only [encode, settled, encodeMap_mapValues ParamSpec.encode_settled]

end DependencySpec

/-- **The routes of an API** that were written are read again. -/
theorem ApiSpec.decoder_encode (a : ApiSpec) : decoder (Tree.ofValue a.encode) = .ok a :=
  Decoder.mapOf_encodeMap_self fun _ _ _ => Decoder.mapOf_encodeMap_self fun _ _ _ =>
    Decoder.mapOf_encodeMap_self fun _ _ _ => rfl

namespace PackageSpec

/-- A package with settled inputs, its own and those of its entities. -/
def settled (p : PackageSpec) : PackageSpec :=
  { p with
    dependencies := p.dependencies.mapValues DependencySpec.settled
    actions := p.actions.mapValues ActionSpec.settled
    triggers := p.triggers.mapValues TriggerSpec.settled
    inputs := settledInputs p.inputs }

/-- A package as it is read. -/
structure Readable (p : PackageSpec) : Prop where
  dependencies : p.dependencies.All DependencySpec.Readable
  actions : p.actions.All ActionSpec.Readable
  sequences : p.sequences.All SequenceSpec.Readable
  triggers : p.triggers.All TriggerSpec.Readable
  inputs : p.inputs.All ParamSpec.Readable
  annotations : p.annotations.All Value.Distinct

/-- Packages that are read are readable. -/
theorem decoder_gives_readable : Decoder.Gives Tree.Sound decoder Readable := by
  have hinit : Readable {} := ⟨KeyMap.all_empty _, KeyMap.all_empty _, KeyMap.all_empty _,
    KeyMap.all_empty _, KeyMap.all_empty _, KeyMap.all_empty _⟩
  have hsound := Tree.sound_hereditary
  refine .record hsound hinit ?_
  simp only [fields, List.forall_mem_cons, List.not_mem_nil, false_implies, implies_true]
  exact ⟨.free fun _ _ h => { h with }, .free fun _ _ h => { h with },
    .free fun _ _ h => { h with }, .free fun _ _ h => { h with },
    .of (DependencySpec.decoder_gives_readable.mapOf hsound) fun _ _ hm h =>
      { h with dependencies := hm },
    .of (ActionSpec.decoder_gives_readable.mapOf hsound) fun _ _ hm h =>
      { h with actions := hm },
    .of (SequenceSpec.decoder_gives_readable.mapOf hsound) fun _ _ hm h =>
      { h with sequences := hm },
    .of (TriggerSpec.decoder_gives_readable.mapOf hsound) fun _ _ hm h =>
      { h with triggers := hm },
    .free fun _ _ h => { h with }, .free fun _ _ h => { h with },
    .of inputs_give_readable fun _ _ hm h => { h with inputs := hm },
    .of annotations_give_distinct fun _ _ hm h => { h with annotations := hm }, trivial⟩

/-- **A package** that was written is read again as the settled one. -/
theorem decoder_encode {p : PackageSpec} (h : p.Readable) :
    decoder (Tree.ofValue p.encode) = .ok p.settled := by
  have hdependencies := Decoder.mapOf_encodeMap fun key d hd =>
    DependencySpec.decoder_encode (h.dependencies key d hd)
  have hactions := Decoder.mapOf_encodeMap fun key a ha =>
    ActionSpec.decoder_encode (h.actions key a ha)
  have hsequences := Decoder.mapOf_encodeMap_self fun key s hs =>
    SequenceSpec.decoder_encode (h.sequences key s hs)
  have htriggers := Decoder.mapOf_encodeMap fun key t ht =>
    TriggerSpec.decoder_encode (h.triggers key t ht)
  have hrules := Decoder.mapOf_encodeMap_self (m := p.rules) fun _ r _ =>
    RuleSpec.decoder_encode r
  have happis := Decoder.mapOf_encodeMap_self (m := p.apis) fun _ a _ =>
    ApiSpec.decoder_encode a
  exact Decoder.record_of_puts
    (.cons rfl (a := p.name) rfl (by decide) <| .cons rfl (a := p.version) rfl (by decide) <|
      .cons rfl (a := p.license) rfl (by decide) <|
      .cons rfl (a := p.namespace) rfl (by decide) <|
      .cons rfl hdependencies (by decide) <| .cons rfl hactions (by decide) <|
      .cons rfl hsequences (by decide) <| .cons rfl htriggers (by decide) <|
      .cons rfl hrules (by decide) <| .cons rfl happis (by decide) <|
      .cons rfl (inputs_encode h.inputs) (by decide) <|
      .single rfl (annotations_encode h.annotations)) rfl

/-- Settled packages have the same values. -/
theorem encode_settled (p : PackageSpec) : p.settled.encode = p.encode := by
  simp only [encode, settled, encodeMap_mapValues ParamSpec.encode_settled,
    encodeMap_mapValues DependencySpec.encode_settled,
    encodeMap_mapValues ActionSpec.encode_settled,
    encodeMap_mapValues TriggerSpec.encode_settled]

end PackageSpec

/-! ## Documents -/

/-- Packages that were written are read again as settled ones. -/
theorem packages_encode {packages : KeyMap PackageSpec} (h : packages.All PackageSpec.Readable) :
    Decoder.mapOf PackageSpec.decoder (Tree.ofValue (encodeMap PackageSpec.encode packages)) =
      .ok (packages.mapValues PackageSpec.settled) :=
  Decoder.mapOf_encodeMap fun key p hp => PackageSpec.decoder_encode (h key p hp)

/-- A single package that was written is read again as the settled one. -/
theorem optional_package {o : Option PackageSpec} (h : ∀ p, o = some p → p.Readable)
    (p : PackageSpec) (hp : o = some p) :
    Decoder.optional PackageSpec.decoder (Tree.ofValue p.encode) = .ok (some p.settled) :=
  Decoder.optional_of_ok rfl (PackageSpec.decoder_encode (h p hp))

namespace ProjectSpec

/-- A project with settled packages. -/
def settled (p : ProjectSpec) : ProjectSpec :=
  { p with
    package := p.package.map PackageSpec.settled
    packages := p.packages.mapValues PackageSpec.settled }

/-- A project as it is read. -/
structure Readable (p : ProjectSpec) : Prop where
  package : ∀ q, p.package = some q → q.Readable
  packages : p.packages.All PackageSpec.Readable

/-- Projects that are read are readable. -/
theorem decoder_gives_readable : Decoder.Gives Tree.Sound decoder Readable := by
  refine .record Tree.sound_hereditary ⟨nofun, KeyMap.all_empty _⟩ ?_
  simp only [fields, List.forall_mem_cons, List.not_mem_nil, false_implies, implies_true]
  exact ⟨.free fun _ _ h => { h with }, .free fun _ _ h => { h with },
    .of PackageSpec.decoder_gives_readable.optional fun _ _ hq h => { h with package := hq },
    .of (PackageSpec.decoder_gives_readable.mapOf Tree.sound_hereditary) fun _ _ hm h =>
      { h with packages := hm }, trivial⟩

/-- **A project** that was written is read again as the settled one. -/
theorem decoder_encode {p : ProjectSpec} (h : p.Readable) :
    decoder (Tree.ofValue p.encode) = .ok p.settled := by
  refine Decoder.record_of_puts
    (((Yaml.Field.Puts.cons rfl (a := p.name) rfl (by decide) <|
      .single rfl (a := p.namespace) rfl).append
      (.optional rfl (optional_package h.package)) (by decide)).append
      (.nonEmpty rfl (packages_encode h.packages)) (by decide)) ?_
  obtain ⟨name, ns, package, packages⟩ := p
  cases hempty : packages.isEmpty <;> cases package <;>
    simp [settled, hempty, KeyMap.mapValues_of_isEmpty]

/-- Settled projects have the same values. -/
theorem encode_settled (p : ProjectSpec) : p.settled.encode = p.encode := by
  simp only [encode, settled, encodeOptional_map PackageSpec.encode_settled,
    encodeNonEmpty_mapValues PackageSpec.encode_settled]

end ProjectSpec

namespace Manifest

/-- **A document with settled packages**: in the places of blank declarations are the values that
these are written as. -/
def settled (m : Manifest) : Manifest :=
  { m with
    package := m.package.map PackageSpec.settled
    packages := m.packages.mapValues PackageSpec.settled
    project := m.project.map ProjectSpec.settled }

/-- A document as it is read; it does not know the path of its file. -/
structure Readable (m : Manifest) : Prop where
  package : ∀ q, m.package = some q → q.Readable
  packages : m.packages.All PackageSpec.Readable
  project : ∀ p, m.project = some p → p.Readable
  path : m.path = ""

/-- Documents that are read from trees are readable. -/
theorem decoder_gives_readable : Decoder.Gives Tree.Sound decoder Readable := by
  have hinit : Readable {} := ⟨nofun, KeyMap.all_empty _, nofun, rfl⟩
  refine .record Tree.sound_hereditary hinit ?_
  simp only [fields, List.forall_mem_cons, List.not_mem_nil, false_implies, implies_true]
  exact ⟨.of PackageSpec.decoder_gives_readable.optional fun _ _ hq h => { h with package := hq },
    .of (PackageSpec.decoder_gives_readable.mapOf Tree.sound_hereditary) fun _ _ hm h =>
      { h with packages := hm },
    .of ProjectSpec.decoder_gives_readable.optional fun _ _ hp h => { h with project := hp },
    trivial⟩

/-- **Documents that are read from texts** are readable. -/
theorem parse_gives_readable {text : String} {m : Manifest} (h : parse text = .ok m) :
    m.Readable := by
  rw [parse, Decoder.run] at h
  split at h
  · rename_i t ht
    rw [Decoder.read] at h
    split at h
    · rename_i hm
      cases h
      exact decoder_gives_readable t (Tree.sound_of_parse? ht) _ hm
    · split at h <;> cases h
  · cases h

/-- **A document** that was written is read again as the settled one. -/
theorem decoder_encode {m : Manifest} (h : m.Readable) :
    decoder (Tree.ofValue m.encode) = .ok m.settled := by
  have hproject : ∀ p, m.project = some p →
      Decoder.optional ProjectSpec.decoder (Tree.ofValue p.encode) = .ok (some p.settled) :=
    fun p hp => Decoder.optional_of_ok rfl (ProjectSpec.decoder_encode (h.project p hp))
  refine Decoder.record_of_puts
    (((Yaml.Field.Puts.optional rfl (optional_package h.package)).append
      (.nonEmpty rfl (packages_encode h.packages)) (by decide)).append
      (.optional rfl hproject) (by decide)) ?_
  obtain ⟨package, packages, project, path⟩ := m
  obtain rfl : path = "" := h.path
  cases hempty : packages.isEmpty <;> cases package <;> cases project <;>
    simp [settled, hempty, KeyMap.mapValues_of_isEmpty]

/-- Settled documents have the same values. -/
theorem encode_settled (m : Manifest) : m.settled.encode = m.encode := by
  simp only [encode, settled, encodeOptional_map PackageSpec.encode_settled,
    encodeNonEmpty_mapValues PackageSpec.encode_settled,
    encodeOptional_map ProjectSpec.encode_settled]

end Manifest

end DeployPlan
