import DeployPlan.Proofs.Yaml.Alike

/-!
# Entries that do not belong

A record is read strictly: an entry whose key is no name of a field, and a second entry for a field,
are errors.  What is told here of records and maps is told in terms of their errors alone, so that
it carries over to whatever they are parts of: a record or map passes on the error of an entry, with
the key of the entry put before the place.

## Main definitions

* `DeployPlan.Yaml.Tree.Mappings` — two mappings behind the same tags and aliases.
* `Yaml.Decoder.fault?` — the error of a reader.
* `Yaml.Decoder.Strict` — entries that do not belong are errors.
* `Yaml.Decoder.Passes` — errors in the entries under a key are passed on.

## Main results

* `Yaml.Field.readAll_append_of_ok` — entries that are read leave others to be read after them.
* `Yaml.Field.nodup_of_readAll` — entries that are read are for different fields.
* `Yaml.Decoder.strict_record` — records are strict.
* `Yaml.Decoder.passes_record`, `passes_mapOf` — records and maps pass on errors.
-/

set_option autoImplicit false

namespace DeployPlan

namespace Yaml

variable {α σ : Type}

/-! ## Mappings -/

namespace Tree

/-- Two mappings behind the same tags and aliases, with their entries. -/
inductive Mappings (es es' : List (Tree × Tree)) : Tree → Tree → Prop
  | mapping : Mappings es es' (.mapping es) (.mapping es')
  | tagged (tag : String) {t t' : Tree} (h : Mappings es es' t t') :
    Mappings es es' (.tagged tag t) (.tagged tag t')
  | alias {t t' : Tree} (h : Mappings es es' t t') : Mappings es es' (.alias t) (.alias t')

variable {es es' : List (Tree × Tree)} {t t' : Tree}

/-- The other way round. -/
theorem Mappings.symm (h : Mappings es es' t t') : Mappings es' es t' t := by
  induction h with
  | mapping => exact .mapping
  | tagged tag _ ih => exact .tagged tag ih
  | «alias» _ ih => exact .alias ih

/-- A record or map reads the entries of the first. -/
theorem Mappings.entries? (h : Mappings es es' t t') : t.entries? = some es := by
  induction h with
  | mapping => rfl
  | tagged _ _ ih | «alias» _ ih => exact ih

/-- An optional field does not read the first as left out. -/
theorem Mappings.absent? (h : Mappings es es' t t') : t.absent? = some false := by
  induction h with
  | mapping | tagged _ _ _ => rfl
  | «alias» _ ih => exact ih

end Tree

open DeployPlan.Yaml.Tree (Mappings)

/-! ## Errors -/

namespace DecodeError

/-- The error as seen from the collection that a path of keys starts at. -/
def underPath (path : List String) (e : DecodeError) : DecodeError :=
  path.foldr (fun key e => (e.under key).locate) e

/-- What does not fit in the collection at the end of the path does not fit at the path. -/
theorem underPath_mismatch (path : List String) (what : Mismatch) :
    (mismatch (some []) what).underPath path = .mismatch (some path) what := by
  induction path with
  | nil => rfl
  | cons key path ih =>
    rw [underPath, List.foldr_cons, ← underPath, ih]
    rfl

end DecodeError

namespace Decoder

variable {d item : Decoder α} {t t' : Tree} {e : DecodeError}

/-- The error of a reader, if there is one. -/
def fault? (d : Decoder α) (t : Tree) : Option DecodeError :=
  match d t with
  | .ok _ => none
  | .error e => some e

/-- There is no error in what is read. -/
theorem fault?_eq_none_iff : d.fault? t = none ↔ ∃ a, d t = .ok a := by
  rw [fault?]
  cases d t <;> simp

/-- An error is what a reader gives. -/
theorem fault?_eq_some_iff : d.fault? t = some e ↔ d t = .error e := by
  rw [fault?]
  cases d t <;> simp

/-- What is not left out has the errors of its reader. -/
theorem fault?_optional (h : t.absent? = some false) : (optional d).fault? t = d.fault? t := by
  simp only [fault?, optional, h]
  cases d t <;> rfl

end Decoder

/-! ## Entries in turn -/

namespace Field

section Errors

variable {name : String} {d : Decoder α} {put : α → σ → σ} {others : List String}

/-- A field has the errors of its reader. -/
theorem fault?_of (u : Tree) (s : σ) :
    Decoder.fault? (fun u => (Field.of name d put others).read u s) u = d.fault? u := by
  simp only [Decoder.fault?, Field.of]
  cases d u <;> rfl

/-- So has a field of what may be left out, where it is there. -/
theorem fault?_of_optional {put : Option α → σ → σ} {u : Tree} (hu : u.absent? = some false)
    (s : σ) :
    Decoder.fault? (fun u => (Field.of name (.optional d) put others).read u s) u =
      d.fault? u := by
  rw [fault?_of, Decoder.fault?_optional hu]

end Errors

variable {fields : List (Field σ)}

/-- The field that entries under a name are for. -/
def fieldOf (fields : List (Field σ)) (name : String) : Option String :=
  (find fields name).map Field.name

/-- The field that an entry is for. -/
def fieldOfEntry (fields : List (Field σ)) (e : Tree × Tree) : Option String :=
  e.1.text?.bind (fieldOf fields)

/-- What is known when the first of some entries is read: the field that it is for was not read
before, and the others are read after it. -/
theorem readAll_cons_eq_ok {seen : List String} {s s' : σ} {e : Tree × Tree}
    {es : List (Tree × Tree)} (h : readAll fields seen s (e :: es) = .ok s') :
    ∃ name f s₁, e.1.text? = some name ∧ find fields name = some f ∧ f.name ∉ seen ∧
      f.read e.2 s = .ok s₁ ∧ readAll fields (f.name :: seen) s₁ es = .ok s' := by
  obtain ⟨k, t⟩ := e
  rw [readAll] at h
  split at h
  · cases h
  rename_i name hname
  split at h
  · cases h
  rename_i f hf
  split at h
  · cases h
  rename_i hseen
  split at h
  · rename_i s₁ hs₁
    exact ⟨name, f, s₁, hname, hf, by simpa using hseen, hs₁, h⟩
  · cases h

/-- An entry for a field that was not read before is read by the field, and the others are read
after it, unless that is an error. -/
theorem readAll_cons {seen : List String} {s : σ} {k t : Tree} {name : String} {f : Field σ}
    (hname : k.text? = some name) (hf : find fields name = some f) (hseen : f.name ∉ seen)
    (es : List (Tree × Tree)) :
    readAll fields seen s ((k, t) :: es) =
      match f.read t s with
      | .ok s₁ => readAll fields (f.name :: seen) s₁ es
      | .error e => .error (e.under k.pathText) := by
  have hcontains : seen.contains f.name = false := by simpa using hseen
  rw [find] at hf
  simp only [readAll, hname, hf, hcontains]
  rfl

/-- **Entries that are read** leave others to be read after them, whichever these are. -/
theorem readAll_append_of_ok {es es' : List (Tree × Tree)} {seen : List String} {s s' : σ}
    (h : readAll fields seen s (es ++ es') = .ok s') :
    ∃ seen₁ s₁, ∀ rest, readAll fields seen s (es ++ rest) = readAll fields seen₁ s₁ rest := by
  induction es generalizing seen s with
  | nil => exact ⟨seen, s, fun _ => rfl⟩
  | cons e es ih =>
    obtain ⟨name, f, s₁, hname, hf, hseen, hread, hrest⟩ := readAll_cons_eq_ok h
    obtain ⟨seen₂, s₂, hreads⟩ := ih hrest
    refine ⟨seen₂, s₂, fun rest => ?_⟩
    simp only [List.cons_append, readAll_cons hname hf hseen, hread, hreads]

/-- **Entries that are read are for different fields**, and for others than those before them. -/
theorem nodup_of_readAll {es : List (Tree × Tree)} {seen : List String} {s s' : σ}
    (h : readAll fields seen s es = .ok s') :
    (es.map (fieldOfEntry fields)).Nodup ∧
      ∀ e ∈ es, ∀ n ∈ seen, fieldOfEntry fields e ≠ some n := by
  induction es generalizing seen s with
  | nil => exact ⟨List.nodup_nil, nofun⟩
  | cons e es ih =>
    obtain ⟨name, f, s₁, hname, hf, hseen, -, hrest⟩ := readAll_cons_eq_ok h
    have hfield : fieldOfEntry fields e = some f.name := by
      rw [fieldOfEntry, hname, Option.bind_some, fieldOf, hf, Option.map_some]
    obtain ⟨hnodup, hothers⟩ := ih hrest
    constructor
    · refine List.nodup_cons.mpr ⟨fun hmem => ?_, hnodup⟩
      obtain ⟨e', he', hsame⟩ := List.mem_map.mp hmem
      exact hothers e' he' f.name List.mem_cons_self (hsame.trans hfield)
    · intro e' he' n hn
      rcases List.mem_cons.mp he' with rfl | he'
      · rw [hfield]
        rintro ⟨⟩
        exact hseen hn
      · exact hothers e' he' n (List.mem_cons_of_mem _ hn)

end Field

namespace Decoder

variable {item : Decoder α}

/-- What is known when the first of some entries of a map is read. -/
theorem readEntries_cons_eq_ok {acc m : KeyMap α} {e : Tree × Tree} {es : List (Tree × Tree)}
    (h : readEntries item acc (e :: es) = .ok m) :
    ∃ name v, e.1.text? = some name ∧ item e.2 = .ok v ∧
      readEntries item (acc.insert name v) es = .ok m := by
  obtain ⟨k, t⟩ := e
  rw [readEntries] at h
  split at h
  · cases h
  rename_i name hname
  split at h
  · rename_i v hv
    exact ⟨name, v, hname, hv, h⟩
  · cases h

/-- Entries of a map that are read leave others to be read after them. -/
theorem readEntries_append_of_ok {es es' : List (Tree × Tree)} {acc m : KeyMap α}
    (h : readEntries item acc (es ++ es') = .ok m) :
    ∃ acc₁, ∀ rest, readEntries item acc (es ++ rest) = readEntries item acc₁ rest := by
  induction es generalizing acc with
  | nil => exact ⟨acc, fun _ => rfl⟩
  | cons e es ih =>
    obtain ⟨name, v, hname, hv, hrest⟩ := readEntries_cons_eq_ok h
    obtain ⟨acc₁, hreads⟩ := ih hrest
    refine ⟨acc₁, fun rest => ?_⟩
    rw [List.cons_append, readEntries, hname]
    simp only [hv, hreads]

/-! ## Entries that do not belong -/

/-- **A strict reader of records**: an entry that is inserted is an error, if its key is none of
the known names, or if there is an entry for its field. -/
structure Strict (d : Decoder α) (known : List String) (fieldOf : String → Option String) :
    Prop where
  unknown : ∀ {es es' : List (Tree × Tree)} {k v t t' : Tree} {name : String},
    Mappings (es ++ es') (es ++ (k, v) :: es') t t' → d.fault? t = none →
    k.text? = some name → name ∉ known →
    d.fault? t' = some (.mismatch (some []) (.unknownField name known))
  repeated : ∀ {es es' : List (Tree × Tree)} {k v t t' : Tree} {name name' : String}
    {e : Tree × Tree}, Mappings (es ++ es') (es ++ (k, v) :: es') t t' →
    e ∈ es ++ es' → e.1.text? = some name' → k.text? = some name →
    fieldOf name = fieldOf name' → ∃ e, d.fault? t' = some e

/-- **A reader passes on** the errors of another in the entries under a name: what it reads is
read by the other there, and the error of a tree in its place is its own error. -/
def Passes (outer? : Tree → Option DecodeError) (name : String)
    (inner? : Tree → Option DecodeError) : Prop :=
  ∀ {es es' : List (Tree × Tree)} {k u u' t t' : Tree},
    Mappings (es ++ (k, u) :: es') (es ++ (k, u') :: es') t t' → k.text? = some name →
    u.absent? = some false → u'.absent? = some false → outer? t = none →
    inner? u = none ∧ ∀ e, inner? u' = some e → outer? t' = some ((e.under k.pathText).locate)

variable {kind : String} {fields : List (Field σ)} {init : σ} {finish : σ → Except DecodeError α}
  {t : Tree} {es : List (Tree × Tree)} {e : DecodeError}

/-- The fields of a record that is read are read. -/
theorem exists_readAll_of_record (hes : t.entries? = some es)
    (h : (record kind fields init finish).fault? t = none) :
    ∃ s, Field.readAll fields [] init es = .ok s := by
  obtain ⟨a, ha⟩ := fault?_eq_none_iff.mp h
  simp only [record, hes] at ha
  cases hread : Field.readAll fields [] init es with
  | ok s => exact ⟨s, rfl⟩
  | error e => rw [hread] at ha; cases ha

/-- The error of a field is the error of the record. -/
theorem fault?_record (hes : t.entries? = some es)
    (h : Field.readAll fields [] init es = .error e) :
    (record kind fields init finish).fault? t = some e.locate := by
  rw [fault?_eq_some_iff, record, hes]
  simp only [h]
  rfl

/-- **Records are strict.** -/
theorem strict_record :
    (record kind fields init finish).Strict (fields.flatMap Field.names)
      (Field.fieldOf fields) where
  unknown {es es' k v t t' name} hm hok hkey hunknown := by
    obtain ⟨s, hs⟩ := exists_readAll_of_record hm.entries? hok
    obtain ⟨seen, s₁, hreads⟩ := Field.readAll_append_of_ok hs
    have hfind : fields.find? (fun f => f.names.contains name) = none := by
      refine List.find?_eq_none.mpr fun f hf hcontains => hunknown ?_
      exact List.mem_flatMap.mpr ⟨f, hf, by simpa using hcontains⟩
    have hread : Field.readAll fields [] init (es ++ (k, v) :: es') =
        .error (.mismatch none (.unknownField name (fields.flatMap Field.names))) := by
      rw [hreads, Field.readAll, hkey]
      simp only [hfind]
    exact fault?_record hm.symm.entries? hread
  repeated {es es' k v t t' name name' e} hm he hkey' hkey hsame := by
    cases hfault : (record kind fields init finish).fault? t' with
    | some e => exact ⟨e, rfl⟩
    | none =>
      obtain ⟨s, hs⟩ := exists_readAll_of_record hm.symm.entries? hfault
      obtain ⟨hnodup, -⟩ := Field.nodup_of_readAll hs
      rw [List.map_append, List.map_cons, List.nodup_middle, ← List.map_append] at hnodup
      have hfield : Field.fieldOfEntry fields e = Field.fieldOfEntry fields (k, v) := by
        rw [Field.fieldOfEntry, Field.fieldOfEntry, hkey', hkey]
        exact hsame.symm
      exact absurd (hfield ▸ List.mem_map_of_mem he) (List.nodup_cons.mp hnodup).1

/-- **Records pass on** the errors of their fields. -/
theorem passes_record {name : String} {f : Field σ} {inner? : Tree → Option DecodeError}
    (hf : Field.find fields name = some f)
    (hinner : ∀ u, u.absent? = some false → ∀ s, fault? (fun u => f.read u s) u = inner? u) :
    Passes (record kind fields init finish).fault? name inner? := by
  intro es es' k u u' t t' hm hkey hu hu' hok
  obtain ⟨s, hs⟩ := exists_readAll_of_record hm.entries? hok
  obtain ⟨seen, s₁, hreads⟩ := Field.readAll_append_of_ok hs
  rw [hreads] at hs
  obtain ⟨name₁, f₁, s₂, hname, hfind, hseen, hread, -⟩ := Field.readAll_cons_eq_ok hs
  obtain rfl : name₁ = name := Option.some.inj (hname.symm.trans hkey)
  obtain rfl : f₁ = f := Option.some.inj (hfind.symm.trans hf)
  constructor
  · rw [← hinner u hu s₁, fault?_eq_none_iff]
    exact ⟨s₂, hread⟩
  · intro e he
    rw [← hinner u' hu' s₁, fault?_eq_some_iff] at he
    refine fault?_record hm.symm.entries? ?_
    simp only [hreads, Field.readAll_cons hname hfind hseen, he]

/-- **Maps pass on** the errors of their items. -/
theorem passes_mapOf (name : String) : Passes (mapOf item).fault? name item.fault? := by
  intro es es' k u u' t t' hm hkey _ _ hok
  obtain ⟨m, hmap⟩ := fault?_eq_none_iff.mp hok
  simp only [mapOf, hm.entries?] at hmap
  cases hread : readEntries item .empty (es ++ (k, u) :: es') with
  | error e => rw [hread] at hmap; cases hmap
  | ok m' =>
    obtain ⟨acc, hreads⟩ := readEntries_append_of_ok hread
    rw [hreads] at hread
    obtain ⟨name₁, v, hname, hv, -⟩ := readEntries_cons_eq_ok hread
    constructor
    · exact fault?_eq_none_iff.mpr ⟨v, hv⟩
    · intro e he
      have hfail : readEntries item .empty (es ++ (k, u') :: es') =
          .error (e.under k.pathText) := by
        rw [hreads, readEntries, hkey]
        simp only [fault?_eq_some_iff.mp he]
      rw [fault?_eq_some_iff, mapOf, hm.symm.entries?]
      simp only [hfail]
      rfl

end Decoder

end Yaml

end DeployPlan
