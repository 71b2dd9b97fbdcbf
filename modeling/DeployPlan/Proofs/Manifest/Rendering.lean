import DeployPlan.Proofs.Compose.Parts
import DeployPlan.Proofs.Manifest.RoundTrip

/-!
# What the canonical text of a manifest tells

The digest of a project is that of the canonical text of its document.  If the text of a value is
read as the value again, the text of a document tells the document, except for the path of its
file and for blank declarations: these have the same text as the mappings that are left of them,
which are the values of parameters.

## Main definitions

* `DeployPlan.Yaml.Value.ReadsBack` — the canonical text of a value is read as the value.

## Main results

* `Manifest.canonicalText_determines` — two documents share a canonical text if and only if they
  are the same once they are settled.
* `Manifest.canonicalText_shared` — two documents that share one, and have different plans.
-/

set_option autoImplicit false

namespace DeployPlan

open Yaml (Value Tree)

/-! ## Canonical texts -/

/-- The canonical text of a value exists, and is read as the value. -/
def Yaml.Value.ReadsBack (v : Value) : Prop :=
  v.canonical?.bind (fun text => (Tree.parse? text).bind Tree.value?) = some v

instance (v : Value) : Decidable v.ReadsBack := by
  unfold Yaml.Value.ReadsBack
  infer_instance

/-- Values that are read back share a canonical text only if they are equal. -/
theorem Yaml.Value.ReadsBack.eq_of_canonical? {v w : Value} (hv : v.ReadsBack)
    (hw : w.ReadsBack) (h : v.canonical? = w.canonical?) : v = w := by
  rw [ReadsBack] at hv hw
  rw [h, hw] at hv
  exact (Option.some.inj hv).symm

/-! ## Documents -/

deriving instance DecidableEq for ParamDeclaration, ParamSpec, ActionSpec, SequenceSpec,
  TriggerSpec, DependencySpec, PackageSpec, ProjectSpec, Manifest

namespace Manifest

/-- The path of its file has no part in the canonical text of a document. -/
theorem canonicalText?_path (m : Manifest) (path : String) :
    { m with path := path }.canonicalText? = m.canonicalText? := rfl

/-- No parameter of a document is a blank declaration. -/
def IsSettled (m : Manifest) : Prop := m.settled = m

instance (m : Manifest) : Decidable m.IsSettled := inferInstanceAs (Decidable (_ = _))

/-- **The canonical text of a document tells the document**, up to the path of its file, once
blank declarations have given way to the values that they are written as.  What is written of a
document is read again as the settled document; two documents share a canonical text if and only
if they are the same when they are settled; and documents that are settled already have the same
plans then.

**Proof sketch.** The texts tell the values of the documents, and each value is read as the
settled document; a settled document has the value of the document itself. -/
theorem canonicalText_determines [Host] {s t : String} {m n : Manifest} (hm : parse s = .ok m)
    (hn : parse t = .ok n) (hmback : m.encode.ReadsBack) (hnback : n.encode.ReadsBack)
    (path path' : String) :
    decoder (Tree.ofValue { m with path := path }.encode) = .ok m.settled ∧
      ({ m with path := path }.canonicalText? = { n with path := path' }.canonicalText? ↔
        m.settled = n.settled) ∧
      (m.IsSettled → n.IsSettled →
        { m with path := path }.canonicalText? = { n with path := path' }.canonicalText? →
        ∀ settings vars,
          { m with path := path }.composePlan settings vars =
            { n with path := path }.composePlan settings vars) := by
  have hmread := decoder_encode (parse_gives_readable hm)
  have hnread := decoder_encode (parse_gives_readable hn)
  have htext : { m with path := path }.canonicalText? = { n with path := path' }.canonicalText? ↔
      m.settled = n.settled := by
    rw [canonicalText?_path m path, canonicalText?_path n path']
    constructor
    · intro htext
      have hencode := hmback.eq_of_canonical? hnback htext
      rw [hencode, hnread] at hmread
      exact (Except.ok.inj hmread).symm
    · intro hsettled
      rw [canonicalText?, canonicalText?, ← encode_settled m, hsettled, encode_settled n]
  refine ⟨hmread, htext, fun hmsettled hnsettled hsame settings vars => ?_⟩
  obtain rfl : m = n := hmsettled.symm.trans ((htext.mp hsame).trans hnsettled)
  rfl

/-- Two texts are read as documents with a property. -/
theorem exists_parse_of_test {s t : String} {p : Manifest → Manifest → Bool}
    (h : (match parse s, parse t with | .ok m, .ok n => p m n | _, _ => false) = true) :
    ∃ m n, parse s = .ok m ∧ parse t = .ok n ∧ p m n = true := by
  cases hm : parse s with
  | error e => simp [hm] at h
  | ok m =>
    cases hn : parse t with
    | error e => simp [hm, hn] at h
    | ok n => exact ⟨m, n, rfl, rfl, by simpa [hm, hn] using h⟩

attribute [local instance] oneHost

/-- The document of a project, written in two ways, has one canonical text and one plan. -/
theorem projectText_determines :
    ∃ m n, parse "project:\n  name: Shop\n  namespace: eu\n" = .ok m ∧
      parse "project:\n  namespace: 'eu'\n  name: Shop\n" = .ok n ∧
      m.encode.ReadsBack ∧ n.encode.ReadsBack ∧ m.IsSettled ∧ n.IsSettled ∧
      { m with path := "a.yaml" }.canonicalText? = { n with path := "b.yaml" }.canonicalText? ∧
      m.settled = n.settled ∧
      ∀ settings vars, { m with path := "a.yaml" }.composePlan settings vars =
        { n with path := "a.yaml" }.composePlan settings vars := by
  obtain ⟨m, n, hm, hn, htest⟩ := exists_parse_of_test
    (s := "project:\n  name: Shop\n  namespace: eu\n")
    (t := "project:\n  namespace: 'eu'\n  name: Shop\n")
    (p := fun m n => decide m.encode.ReadsBack && (decide n.encode.ReadsBack &&
      (decide m.IsSettled && (decide n.IsSettled && m.canonicalText? == n.canonicalText?))))
    (by decide +kernel)
  simp only [Bool.and_eq_true, decide_eq_true_eq, beq_iff_eq] at htest
  obtain ⟨hmback, hnback, hmsettled, hnsettled, htext⟩ := htest
  obtain ⟨-, hsame, hplan⟩ := canonicalText_determines hm hn hmback hnback "a.yaml" "b.yaml"
  exact ⟨m, n, hm, hn, hmback, hnback, hmsettled, hnsettled, htext, hsame.mp htext,
    hplan hmsettled hnsettled htext⟩

/-- How many parameters a package of a plan has. -/
def parameterCount? (m : Manifest) (name : String) : Option Nat :=
  match (m.composePlan {} {}).resultAt default with
  | .ok plan => (plan.packages.get? name).map fun q => q.package.parameters.length
  | .error _ => none

/-- **Two documents can share a canonical text and have different plans**: a blank declaration is
no parameter of a package, and the mapping that is left of it, as which it is read again, is
one. -/
theorem canonicalText_shared :
    ∃ m n, parse "packages:\n  p:\n    inputs:\n      x:\n        value: ~\n" = .ok m ∧
      parse "packages:\n  p:\n    inputs:\n      x:\n        required: false\n" = .ok n ∧
      m ≠ n ∧ m.path = n.path ∧ decoder (Tree.ofValue m.encode) = .ok n ∧
      m.canonicalText?.isSome ∧ m.canonicalText? = n.canonicalText? ∧ m.digest? = n.digest? ∧
      m.parameterCount? "p" = some 0 ∧ n.parameterCount? "p" = some 1 := by
  obtain ⟨m, n, hm, hn, htest⟩ := exists_parse_of_test
    (s := "packages:\n  p:\n    inputs:\n      x:\n        value: ~\n")
    (t := "packages:\n  p:\n    inputs:\n      x:\n        required: false\n")
    (p := fun m n => decide (m.path = n.path ∧ m.settled = n ∧ m.canonicalText?.isSome ∧
      m.parameterCount? "p" = some 0 ∧ n.parameterCount? "p" = some 1)) (by decide +kernel)
  obtain ⟨hpath, hsettled, hsome, hmcount, hncount⟩ := of_decide_eq_true htest
  have htext : m.canonicalText? = n.canonicalText? := by
    rw [canonicalText?, canonicalText?, ← encode_settled m, hsettled]
  refine ⟨m, n, hm, hn, ?_, hpath, ?_, hsome, htext, congrArg (Option.map _) htext, hmcount,
    hncount⟩
  · rintro rfl
    rw [hmcount] at hncount
    cases hncount
  · rw [decoder_encode (parse_gives_readable hm), hsettled]

end Manifest

end DeployPlan
