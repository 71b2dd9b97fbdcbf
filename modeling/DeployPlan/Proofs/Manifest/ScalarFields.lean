import DeployPlan.Manifest.Decode
import DeployPlan.Proofs.Compose.Entity
import DeployPlan.Proofs.Manifest.Fields
import DeployPlan.Proofs.Yaml.Insertion
import DeployPlan.Proofs.Yaml.PlainTexts
import Mathlib.Tactic.FinCases

/-!
# Fields that take scalars of all kinds

Versions, licenses, runtimes and web modes are texts that may be written as any scalar.  In quotes
a text is taken unchanged.  A plain scalar is taken for the text of its value, so that it is the
same as in quotes only if it is spelled as that text; `1.2` and `true` are, and `1.10` is not.

## Main definitions

* `Yaml.Field.Steady` — a field whose entries can be read or not whatever was read before.
* `Yaml.Field.IsScalar` — a field of records that takes scalars of all kinds.
* `ScalarField` — the fields of packages, actions and dependencies that do.
* `ScalarField.decode`, `ScalarField.record` — what a record has in a field, and a record with an
  entry for it.

## Main results

* `Yaml.Field.IsScalar.scalarText_of_readAll`, `exists_readAll` — a field has the text of its
  entry, and any entry with a text can be read.
* `ScalarField.decode_eq_ok_iff` — what a record has in such a field.
* `Context.version_of_composeDependency` — the version of a dependency.
* `ScalarField.decode_written` — what the same characters give in quotes and without.
* `ActionSpec.version_unquoted` — they can give different texts.
-/

set_option autoImplicit false

namespace DeployPlan

namespace Yaml

variable {α σ : Type}

namespace Field

/-! ## Fields of records -/

/-- Whether an entry of a field can be read does not depend on what was read before. -/
def Steady (f : Field σ) : Prop :=
  ∀ t s s', f.read t s = .ok s' → ∀ r, ∃ r', f.read t r = .ok r'

/-- That is so of a field that is made of a reader. -/
theorem steady_of (name : String) (d : Decoder α) (put : α → σ → σ) (others : List String) :
    (Field.of name d put others).Steady := by
  intro t s s' h r
  cases hv : d t with
  | ok v => exact ⟨put v r, by simp only [Field.of, hv, Except.map]⟩
  | error e =>
    simp only [Field.of, hv, Except.map] at h
    cases h

/-- Nor does it for entries in turn. -/
theorem readAll_steady {fields : List (Field σ)} (hfields : ∀ f ∈ fields, f.Steady)
    {seen : List String} {entries : List (Tree × Tree)} {s s' : σ}
    (h : readAll fields seen s entries = .ok s') (r : σ) :
    ∃ r', readAll fields seen r entries = .ok r' := by
  induction entries generalizing seen s r with
  | nil => exact ⟨r, rfl⟩
  | cons e entries ih =>
    obtain ⟨name, f, s₁, hname, hf, hnew, hs₁, hrest⟩ := readAll_cons_eq_ok h
    obtain ⟨r₁, hr₁⟩ := hfields f (List.mem_of_find?_eq_some hf) e.2 s s₁ hs₁ r
    obtain ⟨r', hr'⟩ := ih hrest r₁
    refine ⟨r', ?_⟩
    rw [readAll_cons hname hf hnew, hr₁]
    exact hr'

/-- A field of records that takes scalars of all kinds: the entry under its name sets what `get`
tells, and the entries of other fields do not change that. -/
structure IsScalar (fields : List (Field σ)) (name : String) (get : σ → String) : Prop where
  own : ∃ put, find fields name = some (.of name .scalarText put) ∧ ∀ v s, get (put v s) = v
  others : ∀ f ∈ fields, f.name ≠ name → ∀ v, f.Keeps (fun _ => True) fun s => get s = v
  steady : ∀ f ∈ fields, f.Steady

namespace IsScalar

variable {fields : List (Field σ)} {name : String} {get : σ → String} {seen : List String}
  {s s' : σ} {k t t' : Tree} {before after entries : List (Tree × Tree)}

/-- Entries that are read after the field do not change it. -/
theorem get_eq_of_seen (h : IsScalar fields name get) (hseen : name ∈ seen)
    (hread : readAll fields seen s entries = .ok s') : get s' = get s := by
  induction entries generalizing seen s with
  | nil =>
    cases hread
    rfl
  | cons e entries ih =>
    obtain ⟨other, f, s₁, -, hf, hnew, hs₁, hrest⟩ := readAll_cons_eq_ok hread
    have hname : f.name ≠ name := fun heq => hnew (heq ▸ hseen)
    have hkeep : get s₁ = get s :=
      h.others f (List.mem_of_find?_eq_some hf) hname (get s) e.2 trivial s s₁ rfl hs₁
    exact (ih (.tail _ hseen) hrest).trans hkeep

/-- What is known when the entry of the field is read: it was not read before, the entry has a text,
and the others are read after that was put in. -/
theorem readAll_cons_eq_ok (h : IsScalar fields name get) (hk : k.text? = some name)
    (hread : readAll fields seen s ((k, t) :: after) = .ok s') :
    ∃ put v, find fields name = some (.of name .scalarText put) ∧ get (put v s) = v ∧
      name ∉ seen ∧ Decoder.scalarText t = .ok v ∧
      readAll fields (name :: seen) (put v s) after = .ok s' := by
  obtain ⟨put, hfind, hput⟩ := h.own
  obtain ⟨name', f, s₁, hname', hf, hnew, hs₁, hrest⟩ := Field.readAll_cons_eq_ok hread
  obtain rfl : name = name' := Option.some.inj (hk.symm.trans hname')
  obtain rfl : _ = f := Option.some.inj (hfind.symm.trans hf)
  cases hv : Decoder.scalarText t with
  | ok v =>
    simp only [Field.of, hv, Except.map] at hs₁
    cases hs₁
    exact ⟨put, v, hfind, hput v s, hnew, rfl, hrest⟩
  | error e =>
    simp only [Field.of, hv, Except.map] at hs₁
    cases hs₁

/-- **The field has the text of its entry**, which it is set to and which what follows does not
change. -/
theorem scalarText_of_readAll (h : IsScalar fields name get) (hk : k.text? = some name)
    (hread : readAll fields seen s (before ++ (k, t) :: after) = .ok s') :
    Decoder.scalarText t = .ok (get s') := by
  obtain ⟨seen₁, s₁, hreads⟩ := readAll_append_of_ok hread
  rw [hreads] at hread
  obtain ⟨put, v, -, hput, -, hv, hrest⟩ := h.readAll_cons_eq_ok hk hread
  rw [hv, h.get_eq_of_seen List.mem_cons_self hrest, hput]

/-- **Any other entry with a text** can be read in its place. -/
theorem exists_readAll (h : IsScalar fields name get) (hk : k.text? = some name)
    (hread : readAll fields seen s (before ++ (k, t) :: after) = .ok s') {w : String}
    (ht' : Decoder.scalarText t' = .ok w) :
    ∃ r, readAll fields seen s (before ++ (k, t') :: after) = .ok r := by
  obtain ⟨seen₁, s₁, hreads⟩ := readAll_append_of_ok hread
  rw [hreads] at hread ⊢
  obtain ⟨put, v, hfind, -, hnew, -, hrest⟩ := h.readAll_cons_eq_ok hk hread
  have hw : (Field.of name Decoder.scalarText put).read t' s₁ = .ok (put w s₁) := by
    simp only [Field.of, ht', Except.map]
  rw [readAll_cons hk hfind hnew, hw]
  exact readAll_steady h.steady hrest (put w s₁)

end IsScalar

end Field

/-- A record is what its entries are read as. -/
theorem Decoder.record_mapping_eq_ok_iff {kind : String} {fields : List (Field σ)} {init s : σ}
    {entries : List (Tree × Tree)} :
    Decoder.record kind fields init .ok (.mapping entries) = .ok s ↔
      Field.readAll fields [] init entries = .ok s := by
  rw [Decoder.record, Tree.entries?]
  dsimp only
  cases Field.readAll fields [] init entries with
  | ok s' => exact Iff.rfl
  | error e =>
    constructor
    · intro h
      cases h
    · intro h
      cases h

end Yaml

open Yaml (Decoder Style Tree)

open Yaml.Scalar (Faithful)

/-! ## The fields of packages, actions and dependencies -/

/-- The fields that take scalars of all kinds. -/
inductive ScalarField where
  | packageVersion
  | packageLicense
  | actionRuntime
  | actionVersion
  | actionWebExport
  | dependencyVersion

namespace ScalarField

/-- The name of a field. -/
def name : ScalarField → String
  | .packageVersion | .actionVersion | .dependencyVersion => "version"
  | .packageLicense => "license"
  | .actionRuntime => "runtime"
  | .actionWebExport => "web-export"

/-- Reads a record and tells what a field of it has. -/
def decode (f : ScalarField) (t : Tree) : Except Yaml.DecodeError String :=
  match f with
  | .packageVersion => (·.version) <$> PackageSpec.decoder t
  | .packageLicense => (·.license) <$> PackageSpec.decoder t
  | .actionRuntime => (·.runtime) <$> ActionSpec.decoder t
  | .actionVersion => (·.version) <$> ActionSpec.decoder t
  | .actionWebExport => (·.webExport) <$> ActionSpec.decoder t
  | .dependencyVersion => (·.version) <$> DependencySpec.decoder t

/-- A record with an entry for a field, among others. -/
def record (f : ScalarField) (before : List (Tree × Tree)) (t : Tree)
    (after : List (Tree × Tree)) : Tree :=
  .mapping (before ++ (.written .plain f.name, t) :: after)

/-- Each is a field of records that takes scalars of all kinds. -/
theorem exists_isScalar (f : ScalarField) :
    ∃ (σ : Type) (kind : String) (fields : List (Yaml.Field σ)) (init : σ) (get : σ → String),
      Yaml.Field.IsScalar fields f.name get ∧
        ∀ t, f.decode t = get <$> Decoder.record kind fields init .ok t := by
  refine match f with
    | .packageVersion => ⟨_, _, PackageSpec.fields, {}, (·.version), ?_, fun _ => rfl⟩
    | .packageLicense => ⟨_, _, PackageSpec.fields, {}, (·.license), ?_, fun _ => rfl⟩
    | .actionRuntime => ⟨_, _, ActionSpec.fields, {}, (·.runtime), ?_, fun _ => rfl⟩
    | .actionVersion => ⟨_, _, ActionSpec.fields, {}, (·.version), ?_, fun _ => rfl⟩
    | .actionWebExport => ⟨_, _, ActionSpec.fields, {}, (·.webExport), ?_, fun _ => rfl⟩
    | .dependencyVersion => ⟨_, _, DependencySpec.fields, {}, (·.version), ?_, fun _ => rfl⟩
  all_goals
    -- The field is found under its name, and every other one puts its value elsewhere.
    refine ⟨⟨_, rfl, fun _ _ => rfl⟩, fun f hf hname v => ?_, fun f hf => ?_⟩
    · fin_cases hf <;> first | exact absurd rfl hname | exact .free fun _ _ h => h
    · fin_cases hf <;> exact Yaml.Field.steady_of _ _ _ _

/-- **What a record has in a field** is the text of its entry, if the other entries are in order. -/
theorem decode_eq_ok_iff (f : ScalarField) {before after : List (Tree × Tree)} {t t' : Tree}
    {v w : String} (h : f.decode (f.record before t after) = .ok v) :
    f.decode (f.record before t' after) = .ok w ↔ Decoder.scalarText t' = .ok w := by
  have hkey : (Tree.written .plain f.name).text? = some f.name := rfl
  obtain ⟨σ, kind, fields, init, get, hscalar, hdecode⟩ := f.exists_isScalar
  simp only [hdecode, Except.map_eq_ok_iff, record, Decoder.record_mapping_eq_ok_iff] at h ⊢
  obtain ⟨s, hs, -⟩ := h
  constructor
  · rintro ⟨r, hr, rfl⟩
    exact hscalar.scalarText_of_readAll hkey hr
  · intro ht'
    obtain ⟨r, hr⟩ := hscalar.exists_readAll hkey hs ht'
    have htext := hscalar.scalarText_of_readAll hkey hr
    exact ⟨r, hr, Except.ok.inj (htext.symm.trans ht')⟩

end ScalarField

/-! ## Versions of dependencies -/

namespace Context

variable {ctx : Context} {package name : String} {spec : DependencySpec} {r : DependencyRecord}

/-- A dependency has the version that was read, or that for those without one. -/
theorem version_of_composeDependency
    (h : (ctx.composeDependency package name spec).result = .ok r) :
    r.version = if spec.version.isEmpty then defaultVersion else spec.version := by
  rw [composeDependency_result] at h
  split at h
  · cases h
  · obtain ⟨parameters, -, rfl⟩ := Except.map_eq_ok_iff.mp h
    rfl

/-- **A version that was written reaches the record** of its dependency unless it is empty, or a
plain scalar that does not give its characters. -/
theorem version_eq_self_iff {before after : List (Tree × Tree)} {style : Style} {s : String}
    (hspec : DependencySpec.decoder
      (ScalarField.dependencyVersion.record before (.written style s) after) = .ok spec)
    (h : (ctx.composeDependency package name spec).result = .ok r) :
    r.version = s ↔ s ≠ "" ∧ (style = .plain → Faithful s) := by
  have hdecode : ScalarField.dependencyVersion.decode
      (ScalarField.dependencyVersion.record before (.written style s) after) =
        .ok spec.version := by
    rw [ScalarField.decode, hspec]
    rfl
  have htext : Decoder.scalarText (.written style s) = .ok spec.version :=
    (ScalarField.dependencyVersion.decode_eq_ok_iff hdecode).mp hdecode
  have hself : spec.version = s ↔ (style = .plain → Faithful s) := by
    by_cases hstyle : style = .plain
    · subst hstyle
      rw [← Decoder.scalarText_plain_eq_self_iff, htext]
      simp
    · have heq : spec.version = s :=
        Except.ok.inj (htext.symm.trans (Decoder.scalarText_written hstyle s))
      simp [hstyle, heq]
  rw [version_of_composeDependency h, ← hself]
  by_cases hempty : spec.version = ""
  · -- What is put in place of the empty version is not read as the empty one.
    have hdefault : defaultVersion ≠ s := by
      rintro rfl
      have hread : Decoder.scalarText (.written style defaultVersion) = .ok defaultVersion := by
        cases style <;> rfl
      rw [hread, hempty] at htext
      exact absurd (Except.ok.inj htext) (by decide)
    rw [if_pos (by rw [hempty]; rfl)]
    constructor
    · exact fun heq => absurd heq hdefault
    · rintro ⟨hne, rfl⟩
      exact absurd hempty hne
  · have hne : spec.version.isEmpty = false := by simpa using hempty
    rw [hne]
    simp only [Bool.false_eq_true, if_false, iff_and_self]
    rintro rfl
    exact hempty

end Context

namespace ScalarField

/-- **The same characters in quotes and without.**  A record that can be read has in its field what
stands there in quotes.  With the same characters as a plain scalar it can be read and has them
there exactly if they are the text of their value.  Otherwise it has that text, as if the text were
in quotes, unless the characters write an integer that is out of range; then it cannot be read.  So
it is with the versions of dependencies, of which the empty one is replaced.

**Proof sketch.** The field has the text that is read from its entry, whatever is in the other
entries.  Plain characters that look like a truth value or a number give the text of that, which is
read back as the same one. -/
theorem decode_written (f : ScalarField) {style : Style} (hstyle : style ≠ .plain)
    (before after : List (Tree × Tree)) (s : String) :
    (∀ v, f.decode (f.record before (.written style s) after) = .ok v → v = s) ∧
    (f.decode (f.record before (.written .plain s) after) = .ok s ↔
      f.decode (f.record before (.written style s) after) = .ok s ∧ Faithful s) ∧
    (∀ t, f.decode (f.record before (.written .plain s) after) = .ok t →
      Faithful t ∧ f.decode (f.record before (.written style t) after) = .ok t) ∧
    (f.decode (f.record before (.written style s) after) = .ok s →
      ((∀ t, f.decode (f.record before (.written .plain s) after) ≠ .ok t) ↔
        ∃ n, Yaml.Scalar.integer? s.toList = some n ∧ Yaml.Scalar.outOfRange n = true)) ∧
    ∀ (ctx : Context) (package name : String) (spec : DependencySpec) (r : DependencyRecord),
      DependencySpec.decoder (dependencyVersion.record before (.written .plain s) after) =
        .ok spec →
      (ctx.composeDependency package name spec).result = .ok r →
      (r.version = s ↔ s ≠ "" ∧ Faithful s) := by
  have hquoted (t : String) : Decoder.scalarText (.written style t) = .ok t :=
    Decoder.scalarText_written hstyle t
  refine ⟨fun v h => ?_, ⟨fun h => ⟨?_, ?_⟩, fun ⟨h, hs⟩ => ?_⟩, fun t h => ⟨?_, ?_⟩, fun h => ?_,
    fun ctx package name spec r hspec hr => ?_⟩
  · have htext := (f.decode_eq_ok_iff h).mp h
    exact Except.ok.inj (htext.symm.trans (hquoted s))
  · exact (f.decode_eq_ok_iff h).mpr (hquoted s)
  · exact Decoder.faithful_of_scalarText_plain ((f.decode_eq_ok_iff h).mp h)
  · exact (f.decode_eq_ok_iff h).mpr (Decoder.scalarText_plain_of_faithful hs)
  · exact Decoder.faithful_of_scalarText_plain ((f.decode_eq_ok_iff h).mp h)
  · exact (f.decode_eq_ok_iff h).mpr (hquoted t)
  · simp only [ne_eq, f.decode_eq_ok_iff h]
    exact Decoder.scalarText_plain_fails_iff
  · simpa using Context.version_eq_self_iff hspec hr

/-- An entry for the location of a dependency. -/
def locationEntry : Tree × Tree :=
  (.written .plain "location", .written .plain "github.com/acme/helpers")

/-- A version that is spelled as the text of its value is. -/
theorem decode_written_version :
    dependencyVersion.decode (dependencyVersion.record [locationEntry]
        (.written .singleQuoted "1.2") []) = .ok "1.2" ∧
      dependencyVersion.decode (dependencyVersion.record [locationEntry]
        (.written .plain "1.2") []) = .ok "1.2" ∧
      Faithful "1.2" := by
  have hquoted : dependencyVersion.decode (dependencyVersion.record [locationEntry]
      (.written .singleQuoted "1.2") []) = .ok "1.2" := rfl
  have hplain : ∃ v, dependencyVersion.decode (dependencyVersion.record [locationEntry]
      (.written .plain "1.2") []) = .ok v ∧ (v == "1.2") = true :=
    Except.exists_of_any (by decide +kernel)
  obtain ⟨v, hv, heq⟩ := hplain
  rw [eq_of_beq heq] at hv
  have hstyle : Style.singleQuoted ≠ .plain := by decide
  obtain ⟨-, hiff, -⟩ := decode_written dependencyVersion hstyle [locationEntry] [] "1.2"
  exact ⟨hquoted, hv, (hiff.mp hv).2⟩

end ScalarField

/-- **The same characters can give different versions** in quotes and without. -/
theorem ActionSpec.version_unquoted :
    ∃ plain quoted, ActionSpec.decoder.run "version: 1.10\n" = .ok plain ∧
      ActionSpec.decoder.run "version: '1.10'\n" = .ok quoted ∧
      plain.version = "1.1" ∧ quoted.version = "1.10" := by
  have hplain : ∃ a, ActionSpec.decoder.run "version: 1.10\n" = .ok a ∧
      (a.version == "1.1") = true := Except.exists_of_any (by decide +kernel)
  have hquoted : ∃ a, ActionSpec.decoder.run "version: '1.10'\n" = .ok a ∧
      (a.version == "1.10") = true := Except.exists_of_any (by decide +kernel)
  obtain ⟨plain, hplain, hversion⟩ := hplain
  obtain ⟨quoted, hquoted, hversion'⟩ := hquoted
  exact ⟨plain, quoted, hplain, hquoted, eq_of_beq hversion, eq_of_beq hversion'⟩

end DeployPlan
