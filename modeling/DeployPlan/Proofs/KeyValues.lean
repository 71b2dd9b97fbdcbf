import DeployPlan.Override
import DeployPlan.Proofs.KeyMap
import Mathlib.Data.List.Nodup

/-!
# Keys of parameters and annotations

The lists of parameters and annotations of an entity are edited by key.  What counts about an
edit is what it does to the keys: whether they stay, which go, and whether they stay distinct.

## Main definitions

* `KeyValues.Distinct` — no two entries have one key.

## Main results

* `KeyValues.keys_replaceFirst` — replacing a value keeps the keys and their order.
* `KeyValues.find?_eq_some_of_mem` — with distinct keys, what is in a list is found.
* `Override.distinct_mergeInputs` — merging inputs keeps keys distinct.
* `Override.find?_addMissing_eq` — look-ups in merged entries.
* `Override.find?_mergeInputs` — an input that is not null is found among the merged parameters.
-/

set_option autoImplicit false

namespace DeployPlan

namespace KeyValues

/-! ## Keys -/

/-- No two entries have one key. -/
def Distinct (list : List KeyValue) : Prop := (keys list).Nodup

/-- No entries have no keys. -/
@[simp] theorem keys_nil : keys [] = [] := rfl

/-- The keys of a list are that of the first entry and those of the others. -/
@[simp] theorem keys_cons (kv : KeyValue) (list : List KeyValue) :
    keys (kv :: list) = kv.key :: keys list := rfl

/-- The keys of two lists come one after the other. -/
@[simp] theorem keys_append (list others : List KeyValue) :
    keys (list ++ others) = keys list ++ keys others :=
  List.map_append

/-- A key has an entry if it is one of the keys. -/
theorem has_iff {key : String} {list : List KeyValue} :
    has key list = true ↔ key ∈ keys list := by
  simp [has, keys]

/-- Which keys have an entry depends only on the keys. -/
theorem has_congr {list list' : List KeyValue} (h : keys list' = keys list) (key : String) :
    has key list' = has key list := by
  rw [Bool.eq_iff_iff, has_iff, has_iff, h]

/-- Replacing a value keeps the keys and their order. -/
@[simp] theorem keys_replaceFirst (key : String) (value : Json) (list : List KeyValue) :
    keys (replaceFirst key value list) = keys list := by
  induction list with
  | nil => rfl
  | cons kv list ih =>
    rw [replaceFirst]
    split
    · rfl
    · simp [ih]

/-- What is in a list after a value was replaced was there before, or is the new value. -/
theorem mem_of_mem_replaceFirst {key : String} {value : Json} {list : List KeyValue}
    {kv : KeyValue} (h : kv ∈ replaceFirst key value list) : kv ∈ list ∨ kv = ⟨key, value⟩ := by
  induction list with
  | nil => cases h
  | cons kv' list ih =>
    rw [replaceFirst] at h
    split at h
    · rename_i hkey
      rcases List.mem_cons.mp h with rfl | h
      · exact .inr (by rw [hkey])
      · exact .inl (List.mem_cons_of_mem _ h)
    · rcases List.mem_cons.mp h with rfl | h
      · exact .inl List.mem_cons_self
      · exact (ih h).imp_left (List.mem_cons_of_mem _)

/-- Without an entry under its key, no value is replaced. -/
theorem replaceFirst_of_not_mem {key : String} {list : List KeyValue} (h : key ∉ keys list)
    (value : Json) : replaceFirst key value list = list := by
  induction list with
  | nil => rfl
  | cons kv list ih =>
    rw [keys_cons, List.mem_cons, not_or] at h
    rw [replaceFirst, if_neg (Ne.symm h.1), ih h.2]

/-- Whether a value is replaced before or after a selection by keys makes no difference. -/
theorem filter_replaceFirst (p : String → Bool) (key : String) (value : Json)
    (list : List KeyValue) :
    (replaceFirst key value list).filter (fun kv => p kv.key) =
      replaceFirst key value (list.filter fun kv => p kv.key) := by
  induction list with
  | nil => rfl
  | cons kv list ih =>
    by_cases hkey : kv.key = key
    · cases hp : p key with
      | true => simp [replaceFirst, hkey, hp]
      | false =>
        have hgone : key ∉ keys (list.filter fun kv => p kv.key) := by
          intro hmem
          obtain ⟨kv', hkv', rfl⟩ := List.mem_map.mp hmem
          rw [(List.mem_filter.mp hkv').2] at hp
          cases hp
        simp [replaceFirst, hkey, hp, replaceFirst_of_not_mem hgone]
    · cases hp : p kv.key <;> simp [replaceFirst, hkey, hp, ih]

/-- Removing a key removes it from the keys. -/
theorem keys_remove (key : String) (list : List KeyValue) :
    keys (remove key list) = (keys list).filter (· != key) := by
  rw [keys, keys, remove, List.filter_map]
  rfl

/-- A key that was removed is gone. -/
theorem not_mem_keys_remove (key : String) (list : List KeyValue) :
    key ∉ keys (remove key list) := by
  simp [keys_remove]

/-- Nothing is removed from a list without the key. -/
theorem remove_of_not_mem {key : String} {list : List KeyValue} (h : key ∉ keys list) :
    remove key list = list := by
  refine List.filter_eq_self.mpr fun kv hkv => ?_
  have hne : kv.key ≠ key := fun heq => h (heq ▸ List.mem_map_of_mem hkv)
  simpa using hne

/-- Keys stay distinct when one is removed. -/
theorem Distinct.remove {list : List KeyValue} (h : Distinct list) (key : String) :
    Distinct (remove key list) := by
  rw [Distinct, keys_remove]
  exact h.filter _

/-- An entry with a new key can be put behind a list. -/
theorem Distinct.concat {list : List KeyValue} (h : Distinct list) {kv : KeyValue}
    (hkv : kv.key ∉ keys list) : Distinct (list ++ [kv]) := by
  rw [Distinct, keys_append, List.nodup_append]
  refine ⟨h, List.nodup_singleton _, fun key hkey other hother heq => ?_⟩
  rw [keys_cons, keys_nil, List.mem_singleton] at hother
  rw [heq, hother] at hkey
  exact hkv hkey

/-- If keys are distinct, an entry is the one that is found under its key. -/
theorem find?_eq_some_of_mem {list : List KeyValue} (h : Distinct list) {kv : KeyValue}
    (hkv : kv ∈ list) : find? kv.key list = some kv := by
  induction list with
  | nil => cases hkv
  | cons kv' list ih =>
    have hnew : kv'.key ∉ keys list := (List.nodup_cons.mp h).1
    have hrest : Distinct list := (List.nodup_cons.mp h).2
    rcases List.mem_cons.mp hkv with rfl | hkv
    · simp [find?]
    · have hmem : kv.key ∈ keys list := List.mem_map_of_mem hkv
      have hne : kv'.key ≠ kv.key := fun heq => hnew (heq.symm ▸ hmem)
      have hskip : find? kv.key (kv' :: list) = find? kv.key list := by simp [find?, hne]
      rw [hskip, ih hrest hkv]

/-- Something is found under the keys that have an entry. -/
theorem isSome_find? (key : String) (list : List KeyValue) :
    (find? key list).isSome = has key list := by
  rw [Bool.eq_iff_iff, find?, List.find?_isSome, has, List.any_eq_true]

/-- Nothing is found under a key that is not there. -/
theorem find?_eq_none_of_not_mem {key : String} {list : List KeyValue} (h : key ∉ keys list) :
    find? key list = none := by
  refine List.find?_eq_none.mpr fun kv hkv heq => h ?_
  exact eq_of_beq heq ▸ List.mem_map_of_mem hkv

/-- An entry adds nothing to what is found if its key is there before it. -/
theorem find?_or_of_has {kv : KeyValue} {entries : List KeyValue} (h : has kv.key entries = true)
    (key : String) : (find? key entries).or (find? key [kv]) = find? key entries := by
  by_cases hkey : kv.key = key
  · subst hkey
    obtain ⟨first, hfirst⟩ := Option.isSome_iff_exists.mp ((isSome_find? _ _).trans h)
    rw [hfirst, Option.some_or]
  · have hnone : find? key [kv] = none := by simp [find?, hkey]
    rw [hnone, Option.or_none]

/-- Keys of the entries that are made of some items, each under the key of its item. -/
theorem keys_filterMap_id {α : Type} (has : String × α → Bool) {l : List (String × α)}
    {made : List (Option KeyValue)}
    (h : List.Forall₂ (fun e o => o.map KeyValue.key = if has e then some e.1 else none) l made) :
    keys (made.filterMap id) = (l.filter has).map (·.1) := by
  induction h with
  | nil => rfl
  | @cons e o l made ho _ ih =>
    cases hhas : has e with
    | false =>
      rw [hhas] at ho
      cases o with
      | none => simpa [hhas] using ih
      | some kv => cases ho
    | true =>
      rw [hhas] at ho
      cases o with
      | none => cases ho
      | some kv =>
        have hkey : kv.key = e.1 := Option.some.inj ho
        simpa [hhas, hkey] using ih

/-- Keys that come in the order of a map with each key once are distinct. -/
theorem distinct_filterMap {α : Type} (m : KeyMap α) (value? : String → α → Option Json) :
    Distinct (m.entries.filterMap fun e => (value? e.1 e.2).map (KeyValue.mk e.1)) := by
  have h : List.Forall₂
      (fun e o => o.map KeyValue.key = if (value? e.1 e.2).isSome then some e.1 else none) m.entries
      (m.entries.map fun e => (value? e.1 e.2).map (KeyValue.mk e.1)) := by
    rw [List.forall₂_map_right_iff, List.forall₂_same]
    intro e _
    cases value? e.1 e.2 <;> rfl
  have hkeys := keys_filterMap_id (fun e => (value? e.1 e.2).isSome) h
  rw [List.filterMap_map] at hkeys
  rw [Distinct]
  exact hkeys ▸ m.nodup_keys_filter _

end KeyValues

/-! ## Inputs -/

namespace Override

open KeyValues

/-- The entries that inputs set have distinct keys. -/
theorem distinct_inputEntries (vars : Variables) (inputs : KeyMap ParamSpec) :
    Distinct (inputEntries vars inputs) := by
  have h := distinct_filterMap inputs fun _ spec =>
    spec.rawValue?.bind fun v => (v.resolved vars).nonNull?
  simpa [inputEntries, Option.map_bind, Function.comp_def] using h

/-- Entries that are added only if their keys are new keep keys distinct, whatever keys the
added ones have. -/
theorem distinct_addMissing {entries : List KeyValue} (h : Distinct entries)
    (others : List KeyValue) : Distinct (addMissing entries others) := by
  induction others generalizing entries with
  | nil => exact h
  | cons kv others ih =>
    show Distinct (addMissing (if has kv.key entries then entries else entries ++ [kv]) others)
    split
    · exact ih h
    · rename_i hkv
      exact ih (h.concat (mt has_iff.mpr hkv))

/-- What is there after merging was on one side or the other. -/
theorem mem_of_mem_addMissing {entries others : List KeyValue} {kv : KeyValue}
    (h : kv ∈ addMissing entries others) : kv ∈ entries ∨ kv ∈ others := by
  induction others generalizing entries with
  | nil => exact .inl h
  | cons kv' others ih =>
    change kv ∈ addMissing (if has kv'.key entries then entries else entries ++ [kv']) others at h
    rcases ih h with h | h
    · split at h
      · exact .inl h
      · rcases List.mem_append.mp h with h | h
        · exact .inl h
        · rw [List.mem_singleton.mp h]
          exact .inr List.mem_cons_self
    · exact .inr (List.mem_cons_of_mem _ h)

/-- A merged parameter is what an input sets, or was there before. -/
theorem mem_of_mem_mergeInputs {vars : Variables} {inputs : KeyMap ParamSpec}
    {parameters : List KeyValue} {kv : KeyValue}
    (h : kv ∈ mergeInputs vars inputs parameters) :
    kv ∈ inputEntries vars inputs ∨ kv ∈ parameters := by
  rw [mergeInputs] at h
  split at h
  · exact .inr h
  · exact mem_of_mem_addMissing h

/-- Merging inputs keeps keys distinct. -/
theorem distinct_mergeInputs (vars : Variables) (inputs : KeyMap ParamSpec)
    {parameters : List KeyValue} (h : Distinct parameters) :
    Distinct (mergeInputs vars inputs parameters) := by
  rw [mergeInputs]
  split
  · exact h
  · exact distinct_addMissing (distinct_inputEntries vars inputs) parameters

/-- **Look-ups in merged entries** find what is in front, and else what is added. -/
theorem find?_addMissing_eq (key : String) (entries others : List KeyValue) :
    find? key (addMissing entries others) = (find? key entries).or (find? key others) := by
  induction others generalizing entries with
  | nil => exact (Option.or_none ..).symm
  | cons kv others ih =>
    have hcons : find? key (kv :: others) = (find? key [kv]).or (find? key others) := by
      change find? key ([kv] ++ others) = _
      exact List.find?_append
    change find? key (addMissing (if has kv.key entries then entries else entries ++ [kv]) others) =
      _
    rw [ih, hcons, ← Option.or_assoc]
    by_cases hkv : has kv.key entries = true
    · rw [if_pos hkv, find?_or_of_has hkv]
    · rw [if_neg hkv, find?, List.find?_append]
      rfl

/-- An input that is not null sets an entry. -/
theorem mem_inputEntries {vars : Variables} {inputs : KeyMap ParamSpec} {input : String}
    {spec : ParamSpec} {v : Yaml.Value} {j : Json}
    (hspec : inputs.get? input = some spec) (hv : spec.rawValue? = some v)
    (hj : (v.resolved vars).nonNull? = some j) : ⟨input, j⟩ ∈ inputEntries vars inputs := by
  refine List.mem_filterMap.mpr ⟨(input, spec), KeyMap.mem_entries_iff.mpr hspec, ?_⟩
  simp [hv, hj]

/-- **An input that is not null is found** among the merged parameters, whatever is there. -/
theorem find?_mergeInputs {vars : Variables} {inputs : KeyMap ParamSpec} {input : String}
    {spec : ParamSpec} {v : Yaml.Value} {j : Json}
    (hspec : inputs.get? input = some spec) (hv : spec.rawValue? = some v)
    (hj : (v.resolved vars).nonNull? = some j) (parameters : List KeyValue) :
    find? input (mergeInputs vars inputs parameters) = some ⟨input, j⟩ := by
  have hentries : inputs.isEmpty = false := by
    have hmem := KeyMap.mem_entries_iff.mpr hspec
    rw [KeyMap.isEmpty, List.isEmpty_eq_false_iff]
    exact List.ne_nil_of_mem hmem
  have hset : find? input (inputEntries vars inputs) = some ⟨input, j⟩ :=
    find?_eq_some_of_mem (distinct_inputEntries vars inputs) (mem_inputEntries hspec hv hj)
  rw [mergeInputs, hentries, if_neg Bool.false_ne_true, find?_addMissing_eq, hset, Option.some_or]

end Override

end DeployPlan
