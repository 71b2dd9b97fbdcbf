import DeployPlan.Manifest.Decode
import DeployPlan.Proofs.Yaml.Insertion

/-!
# Documents with an entry too many

The parts of a document are records, some of them in maps, and a document is read strictly in each
of its parts: one entry more, whose key is no name of a field, and it is not read, however deep the
part is in the document.  Only what is free can have any key: parameters, annotations and the paths
of routes are no parts.

## Main definitions

* `DeployPlan.Manifest.Part` — the kinds of records that a document is made of.
* `Manifest.Shape` — a single part, or a map of them.
* `Manifest.Replaced` — a document with another mapping in the place of one of its parts.

## Main results

* `Manifest.Shape.passes` — a part passes on the errors of the parts in it.
* `Manifest.Replaced.fault?` — so does the document.
* `Manifest.read_inserted` — a document is not read with an entry too many.
-/

set_option autoImplicit false

namespace DeployPlan

namespace Manifest

open Yaml (Tree Decoder DecodeError)
open Yaml.Tree (Mappings)

/-! ## The parts of a document -/

/-- The kinds of records that a document is made of. -/
inductive Part where
  | document
  | project
  | package
  | action
  | limits
  | sequence
  | trigger
  | rule
  | dependency
  deriving DecidableEq

namespace Part

/-- What is read of a part. -/
def Result : Part → Type
  | .document => Manifest
  | .project => ProjectSpec
  | .package => PackageSpec
  | .action => ActionSpec
  | .limits => LimitsSpec
  | .sequence => SequenceSpec
  | .trigger => TriggerSpec
  | .rule => RuleSpec
  | .dependency => DependencySpec

/-- The reader of a part. -/
def decoder : (p : Part) → Decoder p.Result
  | .document => Manifest.decoder
  | .project => ProjectSpec.decoder
  | .package => PackageSpec.decoder
  | .action => ActionSpec.decoder
  | .limits => LimitsSpec.decoder
  | .sequence => SequenceSpec.decoder
  | .trigger => TriggerSpec.decoder
  | .rule => RuleSpec.decoder
  | .dependency => DependencySpec.decoder

/-- What the fields of a part are read into. -/
def Draft : Part → Type
  | .rule => RuleSpec.Draft
  | p => p.Result

/-- The fields of a part. -/
def fields : (p : Part) → List (Yaml.Field p.Draft)
  | .document => Manifest.fields
  | .project => ProjectSpec.fields
  | .package => PackageSpec.fields
  | .action => ActionSpec.fields
  | .limits => LimitsSpec.fields
  | .sequence => SequenceSpec.fields
  | .trigger => TriggerSpec.fields
  | .rule => RuleSpec.fields
  | .dependency => DependencySpec.fields

/-- The keys that a part may have. -/
def fieldNames (p : Part) : List String := p.fields.flatMap Yaml.Field.names

example : Part.trigger.fieldNames =
    ["namespace", "feed", "source", "inputs", "parameters", "annotations"] := rfl

/-- A part is a record of its fields. -/
theorem exists_decoder_eq_record (p : Part) :
    ∃ kind init finish, p.decoder = .record kind p.fields init finish := by
  cases p <;> exact ⟨_, _, _, rfl⟩

/-- Each part is strict. -/
theorem strict (p : Part) : p.decoder.Strict p.fieldNames (Yaml.Field.fieldOf p.fields) := by
  obtain ⟨kind, init, finish, h⟩ := p.exists_decoder_eq_record
  rw [h]
  exact Decoder.strict_record

/-- Inputs and parameters are the same field, if a part has it. -/
theorem fieldOf_inputs (p : Part) :
    Yaml.Field.fieldOf p.fields "inputs" = Yaml.Field.fieldOf p.fields "parameters" := by
  cases p <;> rfl

end Part

/-- A part, or a map of parts. -/
inductive Shape where
  | one (p : Part)
  | mapOf (p : Part)

/-- What stands under a name in a part, if it is made of parts. -/
def Part.inner? : Part → String → Option Shape
  | .document, "package" => some (.one .package)
  | .document, "packages" => some (.mapOf .package)
  | .document, "project" => some (.one .project)
  | .project, "package" => some (.one .package)
  | .project, "packages" => some (.mapOf .package)
  | .package, "dependencies" => some (.mapOf .dependency)
  | .package, "actions" => some (.mapOf .action)
  | .package, "sequences" => some (.mapOf .sequence)
  | .package, "triggers" => some (.mapOf .trigger)
  | .package, "rules" => some (.mapOf .rule)
  | .action, "limits" => some (.one .limits)
  | _, _ => none

namespace Shape

/-- What stands under a name in a shape, if it is made of parts. -/
def inner? : Shape → String → Option Shape
  | .one p, name => p.inner? name
  | .mapOf p, _ => some (.one p)

/-- The error of reading a shape. -/
def fault? : Shape → Tree → Option DecodeError
  | .one p => p.decoder.fault?
  | .mapOf p => (Decoder.mapOf p.decoder).fault?

end Shape

/-- What stands under a name in a part is read by a field, with the errors of its shape. -/
theorem Part.exists_field {p : Part} {name : String} {κ : Shape} (h : p.inner? name = some κ) :
    ∃ f, Yaml.Field.find p.fields name = some f ∧
      ∀ u, u.absent? = some false → ∀ s, Decoder.fault? (fun u => f.read u s) u = κ.fault? u := by
  unfold Part.inner? at h
  split at h
  case h_12 => cases h
  case h_1 | h_3 | h_4 | h_11 =>
    cases h
    exact ⟨_, rfl, fun u hu s => Yaml.Field.fault?_of_optional hu s⟩
  all_goals
    cases h
    exact ⟨_, rfl, fun u _ s => Yaml.Field.fault?_of u s⟩

/-- **A part passes on** the errors of the parts in it, and so does a map of parts. -/
theorem Shape.passes {κ κ' : Shape} {name : String} (h : κ.inner? name = some κ') :
    Decoder.Passes κ.fault? name κ'.fault? := by
  cases κ with
  | one p =>
    obtain ⟨f, hf, hinner⟩ := Part.exists_field h
    obtain ⟨kind, init, finish, hrecord⟩ := p.exists_decoder_eq_record
    rw [fault?, hrecord]
    exact Decoder.passes_record hf hinner
  | mapOf p =>
    cases h
    exact Decoder.passes_mapOf name

/-! ## Another mapping in the place of a part -/

/-- A tree of some shape, in which a mapping that stands for a part is replaced by another.  The
path is the keys that lead to the part. -/
inductive Replaced (p : Part) (w w' : Tree) : Shape → Tree → Tree → List String → Prop
  | here : Replaced p w w' (.one p) w w' []
  | under {κ κ' : Shape} {es es' : List (Tree × Tree)} {k u u' t t' : Tree} {name : String}
    {path : List String} (hm : Mappings (es ++ (k, u) :: es') (es ++ (k, u') :: es') t t')
    (hkey : k.text? = some name) (hinner : κ.inner? name = some κ')
    (h : Replaced p w w' κ' u u' path) : Replaced p w w' κ t t' (k.pathText :: path)

namespace Replaced

variable {p : Part} {w w' t t' : Tree} {κ : Shape} {path : List String}

/-- The same under the only key of a mapping. -/
theorem alone {κ' : Shape} {k u u' : Tree} {name : String} (hkey : k.text? = some name)
    (hinner : κ.inner? name = some κ') (h : Replaced p w w' κ' u u' path) :
    Replaced p w w' κ (.mapping [(k, u)]) (.mapping [(k, u')]) (k.pathText :: path) :=
  .under (.mapping : Mappings ([] ++ (k, u) :: []) ([] ++ (k, u') :: []) _ _) hkey hinner h

/-- Nothing is left out where a mapping stands. -/
theorem absent? (hw : w.absent? = some false) (hw' : w'.absent? = some false)
    (h : Replaced p w w' κ t t' path) : t.absent? = some false ∧ t'.absent? = some false := by
  cases h with
  | here => exact ⟨hw, hw'⟩
  | under hm _ _ _ => exact ⟨hm.absent?, hm.symm.absent?⟩

/-- **The error of a part is the error of the whole**, with the path to the part before the place,
if the whole was read before.

**Proof sketch.** By induction on the path: each part or map passes on the error of what stands
under the next key. -/
theorem fault? (hw : w.absent? = some false) (hw' : w'.absent? = some false)
    (h : Replaced p w w' κ t t' path) (hok : κ.fault? t = none) :
    p.decoder.fault? w = none ∧
      ∀ e, p.decoder.fault? w' = some e → κ.fault? t' = some (e.underPath path) := by
  induction h with
  | here => exact ⟨hok, fun _ he => he⟩
  | under hm hkey hinner h ih =>
    obtain ⟨hu, hu'⟩ := h.absent? hw hw'
    obtain ⟨hok₁, herror⟩ := Shape.passes hinner hm hkey hu hu' hok
    obtain ⟨hokw, hpath⟩ := ih hok₁
    exact ⟨hokw, fun e he => herror _ (hpath e he)⟩

end Replaced

/-! ## Documents that are read -/

/-- There is no error in a document that is read. -/
theorem fault?_of_read {t : Tree} {m : Manifest} (h : Manifest.decoder.read t = .ok m) :
    (Shape.one .document).fault? t = none := by
  rw [Decoder.read] at h
  split at h
  · rename_i m' hm'
    exact Decoder.fault?_eq_none_iff.mpr ⟨m', hm'⟩
  · split at h <;> cases h

/-- An error in a document that is a value is what it is read as. -/
theorem read_of_fault? {t : Tree} {e : DecodeError}
    (h : (Shape.one .document).fault? t = some e) :
    Manifest.decoder.read t = .error (if t.value?.isNone then .malformed else e) := by
  have he : Manifest.decoder t = .error e := Decoder.fault?_eq_some_iff.mp h
  simp only [Decoder.read, he]
  split <;> rfl

/-- **A document is not read with an entry too many**, wherever it is inserted: in the mapping of
any part that the document is made of, an entry whose key is no name of a field is an error at the
path to the part, and so are parameters next to inputs.

**Proof sketch.** The part was read before, as the whole was.  The entries before the new one are
read as before; the new one is an error then, or the entries are for a field twice.  The error of
the part is the error of the whole. -/
theorem read_inserted {t t' w w' k v : Tree} {es es' : List (Tree × Tree)} {path : List String}
    {p : Part} {name : String} {m : Manifest} (hread : Manifest.decoder.read t = .ok m)
    (hat : Replaced p w w' (.one .document) t t' path)
    (hm : Mappings (es ++ es') (es ++ (k, v) :: es') w w') (hkey : k.text? = some name) :
    (name ∉ p.fieldNames →
      Manifest.decoder.read t' =
        .error (if t'.value?.isNone then .malformed
          else .mismatch (some path) (.unknownField name p.fieldNames))) ∧
    ∀ e ∈ es ++ es',
      e.1.text? = some "inputs" ∧ name = "parameters" ∨
        e.1.text? = some "parameters" ∧ name = "inputs" →
      ∃ error, Manifest.decoder.read t' = .error error := by
  obtain ⟨hok, hpath⟩ := hat.fault? hm.absent? hm.symm.absent? (fault?_of_read hread)
  constructor
  · intro hunknown
    have hfault := hpath _ (p.strict.unknown hm hok hkey hunknown)
    rw [read_of_fault? hfault, DecodeError.underPath_mismatch]
  · intro e he hnames
    have hsame : ∃ name', e.1.text? = some name' ∧
        Yaml.Field.fieldOf p.fields name = Yaml.Field.fieldOf p.fields name' := by
      rcases hnames with ⟨hinputs, rfl⟩ | ⟨hparameters, rfl⟩
      · exact ⟨_, hinputs, p.fieldOf_inputs.symm⟩
      · exact ⟨_, hparameters, p.fieldOf_inputs⟩
    obtain ⟨name', hname', hfield⟩ := hsame
    obtain ⟨error, herror⟩ := p.strict.repeated hm he hname' hkey hfield
    exact ⟨_, read_of_fault? (hpath error herror)⟩

/-- A key of a mapping. -/
def keyTree (name : String) : Tree := .ofValue (.str name)

/-- A document with an action of a package in its project. -/
def projectTree (action : Tree) : Tree :=
  .mapping [(keyTree "project", .mapping [(keyTree "packages", .mapping [(keyTree "shop",
    .mapping [(keyTree "actions", .mapping [(keyTree "pay", action)])])])])]

/-- An action with inputs and limits, some of them an alias, and with other entries. -/
def limitedTree (limits others : List (Tree × Tree)) : Tree :=
  .tagged "action"
    (.mapping ((keyTree "inputs", .mapping []) ::
      (keyTree "limits",
        .alias (.mapping ((keyTree "memorySize", .ofValue (.int 256)) :: limits))) ::
      others))

/-- The place of the action. -/
theorem Replaced.action {p : Part} {w w' u u' : Tree} {path : List String}
    (h : Replaced p w w' (.one .action) u u' path) :
    Replaced p w w' (.one .document) (projectTree u) (projectTree u')
      ("project" :: "packages" :: "shop" :: "actions" :: "pay" :: path) :=
  alone rfl rfl <| alone rfl rfl <| alone rfl rfl <| alone rfl rfl <| alone rfl rfl h

/-- The document is read, but not with a limit that is unknown, and not with parameters next to the
inputs. -/
theorem read_inserted_projectTree :
    (∃ m, Manifest.decoder.read (projectTree (limitedTree [] [])) = .ok m) ∧
    Manifest.decoder.read
        (projectTree (limitedTree [(keyTree "memory", .ofValue (.int 512))] [])) =
      .error (.mismatch (some ["project", "packages", "shop", "actions", "pay", "limits"])
        (.unknownField "memory" Part.limits.fieldNames)) ∧
    ∃ error, Manifest.decoder.read
        (projectTree (limitedTree [] [(keyTree "parameters", .mapping [])])) = .error error := by
  have hread : Manifest.decoder.read (projectTree (limitedTree [] [])) = .ok _ := rfl
  refine ⟨⟨_, hread⟩, ?_, ?_⟩
  · have hat : Replaced .limits _ _ (.one .action) (limitedTree [] [])
        (limitedTree [(keyTree "memory", .ofValue (.int 512))] []) ["limits"] :=
      .under (.tagged _ (.mapping : Mappings ([(keyTree "inputs", .mapping [])] ++ _ :: [])
        ([(keyTree "inputs", .mapping [])] ++ _ :: []) _ _)) rfl rfl .here
    have hm : Mappings ([(keyTree "memorySize", .ofValue (.int 256))] ++ [])
        ([(keyTree "memorySize", .ofValue (.int 256))] ++
          (keyTree "memory", .ofValue (.int 512)) :: []) _ _ := .alias .mapping
    exact (read_inserted hread hat.action hm rfl).1 (by decide)
  · have hm : Mappings ([(keyTree "inputs", .mapping []), _] ++ [])
        ([(keyTree "inputs", .mapping []), _] ++ (keyTree "parameters", .mapping []) :: [])
        (limitedTree [] []) (limitedTree [] [(keyTree "parameters", .mapping [])]) :=
      .tagged _ .mapping
    exact (read_inserted hread (Replaced.action .here) hm rfl).2 _ List.mem_cons_self
      (.inl ⟨rfl, rfl⟩)

end Manifest

end DeployPlan
