import DeployPlan.Proofs.KeyValues

/-!
# Inputs that are merged

Merging looks into a list that grows while it is built.  What comes out can be told without that
list: the inputs that are not null, in the order of their keys, and behind them what was there under
other keys, of each key the first.

## Main definitions

* `ParamSpec.overrideValue?` — the value that an input of a descriptor sets.
* `Override.inputValue?` — the value that the inputs of a descriptor set under a key.
* `KeyValues.firstOfEach` — of each key the first entry.

## Main results

* `Override.addMissing_eq` — the growing list, told at once.
* `Override.find?_mergeInputs_eq` — look-ups in merged parameters.
* `Override.mergeInputs_arranged` — what merging gives, and what is found after merging twice.
-/

set_option autoImplicit false

namespace DeployPlan

/-! ## Entries of maps -/

namespace KeyValues

/-- Of each key the first entry. -/
def firstOfEach (list : List KeyValue) : List KeyValue :=
  list.eraseDupsBy fun later first => later.key == first.key

/-- The first entry stays, and takes the place of the later ones with its key. -/
theorem firstOfEach_cons (kv : KeyValue) (list : List KeyValue) :
    firstOfEach (kv :: list) =
      kv :: firstOfEach (list.filter fun later => later.key != kv.key) := by
  rw [firstOfEach, List.eraseDupsBy_cons, firstOfEach]
  congr 3
  funext later
  by_cases h : later.key = kv.key <;> simp [h]

section Maps

variable {α : Type} (m : KeyMap α) (value? : α → Option Json)

/-- The entries of the values in a map that have one of their own, in the order of the keys. -/
def ofMap : List KeyValue := m.entries.filterMap fun e => (value? e.2).map (KeyValue.mk e.1)

/-- They have distinct keys. -/
theorem distinct_ofMap : Distinct (ofMap m value?) := distinct_filterMap m fun _ => value?

/-- What is among them. -/
theorem mem_ofMap_iff {kv : KeyValue} :
    kv ∈ ofMap m value? ↔ (m.get? kv.key).bind value? = some kv.value := by
  rw [ofMap, List.mem_filterMap, Option.bind_eq_some_iff]
  constructor
  · rintro ⟨e, he, hkv⟩
    obtain ⟨v, hv, rfl⟩ := Option.map_eq_some_iff.mp hkv
    exact ⟨e.2, KeyMap.mem_entries_iff.mp he, hv⟩
  · rintro ⟨a, ha, hv⟩
    exact ⟨(kv.key, a), KeyMap.mem_entries_iff.mpr ha, by rw [hv]; rfl⟩

/-- What is found among them. -/
theorem find?_ofMap (key : String) :
    find? key (ofMap m value?) = ((m.get? key).bind value?).map (KeyValue.mk key) := by
  cases hv : (m.get? key).bind value? with
  | some v =>
    have hmem : ⟨key, v⟩ ∈ ofMap m value? := (mem_ofMap_iff m value?).mpr hv
    exact find?_eq_some_of_mem (distinct_ofMap m value?) hmem
  | none =>
    refine find?_eq_none_of_not_mem fun hmem => ?_
    obtain ⟨kv, hkv, rfl⟩ := List.mem_map.mp hmem
    rw [mem_ofMap_iff, hv] at hkv
    cases hkv

/-- Their keys are in order. -/
theorem pairwise_keys_ofMap : (keys (ofMap m value?)).Pairwise (· < ·) := by
  rw [keys, List.pairwise_map, ofMap, List.pairwise_filterMap]
  refine m.sorted.imp fun {a b} hlt kv hkv kv' hkv' => ?_
  obtain ⟨v, -, rfl⟩ := Option.map_eq_some_iff.mp hkv
  obtain ⟨v', -, rfl⟩ := Option.map_eq_some_iff.mp hkv'
  exact hlt

end Maps

end KeyValues

/-! ## Inputs -/

open KeyValues

/-- The value that an input of a descriptor sets: what it carries, unless that is null. -/
def ParamSpec.overrideValue? (vars : Variables) (spec : ParamSpec) : Option Json :=
  spec.rawValue?.bind fun v => (v.resolved vars).nonNull?

/-- A free value sets itself, unless it is null. -/
theorem ParamSpec.overrideValue?_literal (vars : Variables) (v : Yaml.Value) :
    (literal v).overrideValue? vars = (v.resolved vars).nonNull? := by
  cases v <;> rfl

namespace Override

/-- The value that the inputs of a descriptor set under a key. -/
def inputValue? (vars : Variables) (inputs : KeyMap ParamSpec) (key : String) : Option Json :=
  (inputs.get? key).bind (ParamSpec.overrideValue? vars)

/-- Inputs set the entries of the values that they carry. -/
theorem inputEntries_eq (vars : Variables) (inputs : KeyMap ParamSpec) :
    inputEntries vars inputs = ofMap inputs (ParamSpec.overrideValue? vars) := by
  simp only [inputEntries, ofMap, ParamSpec.overrideValue?, Option.map_bind, Function.comp_def]

/-! ## Merging -/

/-- **The growing list, told at once**: what is there stays in front, and behind it are the others
under new keys, of each key the first.

**Proof sketch.** Induction on the others, for all lists that may be there.  One that is added is
the first under its key; from then on its key is one that is there, so that the selection of the
rest is the selection by both lists. -/
theorem addMissing_eq (entries others : List KeyValue) :
    addMissing entries others =
      entries ++ firstOfEach (others.filter fun kv => !has kv.key entries) := by
  induction others generalizing entries with
  | nil => exact (List.append_nil entries).symm
  | cons kv others ih =>
    change addMissing (if has kv.key entries then entries else entries ++ [kv]) others = _
    by_cases hkv : has kv.key entries = true
    · rw [if_pos hkv, ih, List.filter_cons_of_neg (by simp [hkv])]
    · have hselect : ∀ later : KeyValue, (!has later.key (entries ++ [kv])) =
          (!has later.key entries && later.key != kv.key) := by
        intro later
        rw [has, List.any_append, Bool.not_or, ← has]
        simp [bne, BEq.comm]
      rw [if_neg hkv, ih, List.filter_cons_of_pos (by simpa using hkv), firstOfEach_cons,
        List.filter_filter, List.append_assoc, List.singleton_append]
      simp only [hselect, Bool.and_comm]

/-- **Look-ups in merged parameters** find what the inputs set, and else what was there before. -/
theorem find?_mergeInputs_eq (vars : Variables) (inputs : KeyMap ParamSpec)
    (parameters : List KeyValue) (key : String) :
    find? key (mergeInputs vars inputs parameters) =
      ((inputValue? vars inputs key).map (KeyValue.mk key)).or (find? key parameters) := by
  rw [mergeInputs]
  split
  · rename_i hempty
    rw [KeyMap.eq_empty_of_isEmpty hempty]
    rfl
  · rw [find?_addMissing_eq, inputEntries_eq, find?_ofMap]
    rfl

/-- **What merging gives.**  Inputs that are there at all give a list with distinct keys: in front
the values that are not null, in the order of their keys, and behind them the parameters whose key
none of those has, of each key the first.  So what is found under a key is the value of the inputs,
or else, and also where an input is null, what was found before; and no key is lost.  After two
descriptors it is the value of the later one, or else that of the first, or else what was there.

**Proof sketch.** The shape of the list is that of the growing list, told at once.  Look-ups in it
find what is in front and else what is added, once for each descriptor. -/
theorem mergeInputs_arranged (vars : Variables) (inputs : KeyMap ParamSpec)
    (parameters : List KeyValue) :
    (inputs.isEmpty = false →
      Distinct (mergeInputs vars inputs parameters) ∧
      ∃ given : List KeyValue, (keys given).Pairwise (· < ·) ∧
        (∀ key v, ⟨key, v⟩ ∈ given ↔ inputValue? vars inputs key = some v) ∧
        mergeInputs vars inputs parameters =
          given ++ firstOfEach (parameters.filter fun kv => !has kv.key given)) ∧
    (∀ key, find? key (mergeInputs vars inputs parameters) =
      ((inputValue? vars inputs key).map (KeyValue.mk key)).or (find? key parameters)) ∧
    (∀ kv ∈ parameters, has kv.key (mergeInputs vars inputs parameters) = true) ∧
    ∀ (next : KeyMap ParamSpec) (key : String),
      find? key (mergeInputs vars next (mergeInputs vars inputs parameters)) =
        (((inputValue? vars next key).or (inputValue? vars inputs key)).map (KeyValue.mk key)).or
          (find? key parameters) := by
  refine ⟨fun hinputs => ?_, find?_mergeInputs_eq vars inputs parameters, fun kv hkv => ?_,
    fun next key => ?_⟩
  · have hmerge : mergeInputs vars inputs parameters =
        addMissing (ofMap inputs (ParamSpec.overrideValue? vars)) parameters := by
      rw [mergeInputs, hinputs, inputEntries_eq]
      rfl
    rw [hmerge]
    exact ⟨distinct_addMissing (distinct_ofMap _ _) parameters, _, pairwise_keys_ofMap _ _,
      fun key v => mem_ofMap_iff inputs _, addMissing_eq _ parameters⟩
  · have hthere : has kv.key parameters = true := has_iff.mpr (List.mem_map_of_mem hkv)
    rw [← isSome_find?, find?_mergeInputs_eq, Option.isSome_or, isSome_find?, hthere, Bool.or_true]
  · rw [find?_mergeInputs_eq, find?_mergeInputs_eq, Option.map_or, Option.or_assoc]

/-- A null, a reference, and a declaration with a default. -/
def zoneInputs : KeyMap ParamSpec := KeyMap.ofList
  [("host", .literal .null), ("port", .literal (.str "$PORT")),
    ("zone", .declared { fallback := some (.str "east") })]

/-- Parameters with one key twice. -/
def zoneParameters : List KeyValue :=
  [⟨"zone", .str "west"⟩, ⟨"host", .str "first"⟩, ⟨"host", .str "second"⟩]

/-- The default wins, the null does not, and of the key that is there twice the first is left. -/
theorem mergeInputs_arranged_zone :
    let vars : Variables := { own := KeyMap.ofList [("PORT", "8080")] }
    zoneInputs.isEmpty = false ∧
    mergeInputs vars zoneInputs zoneParameters =
      [⟨"port", .str "8080"⟩, ⟨"zone", .str "east"⟩, ⟨"host", .str "first"⟩] ∧
    Distinct (mergeInputs vars zoneInputs zoneParameters) ∧
    find? "host" (mergeInputs vars zoneInputs zoneParameters) = some ⟨"host", .str "first"⟩ ∧
    has "zone" (mergeInputs vars zoneInputs zoneParameters) = true := by
  intro vars
  have hinputs : zoneInputs.isEmpty = false := by rfl
  obtain ⟨hgives, hfind, hkeys, -⟩ := mergeInputs_arranged vars zoneInputs zoneParameters
  obtain ⟨hdistinct, -⟩ := hgives hinputs
  have hport : (Yaml.Value.str "$PORT").resolved vars = .str "8080" :=
    congrArg Json.str (by decide +kernel)
  have hzone : (Yaml.Value.str "east").resolved vars = .str "east" :=
    congrArg Json.str (by decide +kernel)
  have hentries : inputEntries vars zoneInputs =
      [⟨"port", .str "8080"⟩, ⟨"zone", .str "east"⟩] := by
    rw [inputEntries_eq]
    change [("host", ParamSpec.literal .null), ("port", .literal (.str "$PORT")),
      ("zone", .declared { fallback := some (.str "east") })].filterMap _ = _
    have hdeclared : (ParamSpec.declared { fallback := some (.str "east") }).overrideValue? vars =
        some (.str "east") := congrArg Json.nonNull? hzone
    simp only [List.filterMap_cons, List.filterMap_nil, ParamSpec.overrideValue?_literal, hport,
      hdeclared]
    rfl
  have hmerge : mergeInputs vars zoneInputs zoneParameters =
      [⟨"port", .str "8080"⟩, ⟨"zone", .str "east"⟩, ⟨"host", .str "first"⟩] := by
    rw [mergeInputs, hinputs, hentries]
    rfl
  refine ⟨hinputs, hmerge, hdistinct, ?_, hkeys ⟨"zone", .str "west"⟩ List.mem_cons_self⟩
  rw [hfind]
  rfl

end Override

end DeployPlan
