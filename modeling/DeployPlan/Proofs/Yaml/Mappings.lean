import DeployPlan.Proofs.KeyMap
import DeployPlan.Proofs.Yaml.KeyTexts
import DeployPlan.Proofs.Yaml.Tree

/-!
# Mappings and objects

A mapping becomes an object.  An entry is left out if its key has no text, and there is a message
about it.  Of two entries under one text one is lost, and no message says so; but that happens only
if one key is a text and the other a truth value or a number.

## Main definitions

* `Value.unkeyed` — the keys of a mapping that have no text.
* `Value.clashing` — the entries of a mapping under the text of a truth value or number that is a
  key as well.
* `Value.mappings` — the mappings in a value that become objects.

## Main results

* `Value.length_eq_of_distinct` — where the entries of a mapping are left.
* `Value.droppedKeys_perm` — which keys the messages are about.
* `Tree.mappings_accounted` — both for all mappings of a document.
* `Tree.entry_lost` — an entry can be lost.
-/

set_option autoImplicit false

namespace DeployPlan

namespace Yaml

namespace Value

/-! ## One mapping -/

/-- The texts of the truth values and numbers among the keys of a mapping. -/
def scalarKeys (entries : List (Value × Value)) : List String :=
  entries.filterMap fun e => e.1.scalarKey?

/-- The keys of a mapping that have no text. -/
def unkeyed (entries : List (Value × Value)) : List Value :=
  (entries.map (·.1)).filter fun k => k.keyText?.isNone

/-- The entries of a mapping under a text that is the text of a truth value or number as well, which
is another key of the mapping. -/
def clashing (entries : List (Value × Value)) : List (Value × Value) :=
  entries.filter fun e => e.1.textKey?.any fun s => (scalarKeys entries).contains s

/-- The keys of an object are the key texts of the mapping, in some order. -/
theorem map_entriesToJson_perm (entries : List (Value × Value)) :
    ((entriesToJson entries).map (·.1)).Perm
      (entries.filterMap (fun e => e.1.textKey?) ++ scalarKeys entries) := by
  induction entries with
  | nil => rfl
  | cons e entries ih =>
    obtain ⟨k, v⟩ := e
    have hmiddle : ∀ s : String, ((s :: (entriesToJson entries).map (·.1))).Perm
        (entries.filterMap (fun e => e.1.textKey?) ++ s :: scalarKeys entries) := fun s =>
      (ih.cons s).trans List.perm_middle.symm
    cases k with
    | str s => exact ih.cons s
    | bool b => exact hmiddle _
    | int n => exact hmiddle _
    | float x => exact hmiddle _
    | _ => exact ih

/-- Each entry of a mapping has a key text or has none. -/
theorem length_entriesToJson_add (entries : List (Value × Value)) :
    (entriesToJson entries).length + (unkeyed entries).length = entries.length := by
  induction entries with
  | nil => rfl
  | cons e entries ih =>
    obtain ⟨k, v⟩ := e
    rw [entriesToJson, unkeyed, List.map_cons, List.filter_cons, ← unkeyed]
    cases hk : k.keyText? with
    | none => simp only [Option.isNone_none, if_true, List.length_cons, ← ih, Nat.add_assoc]
    | some s =>
      simp only [Option.isNone_some, Bool.false_eq_true, if_false, List.length_cons, ← ih]
      omega

/-- Of two lists without repetition, what is in both counts once in their union. -/
theorem length_dedup_append {l m : List String} (hl : l.Nodup) (hm : m.Nodup) :
    (l ++ m).dedup.length + (l.filter fun s => m.contains s).length = l.length + m.length := by
  have hperm : (l ++ m).dedup.Perm ((l.filter fun s => !m.contains s) ++ m) := by
    have hnodup : ((l.filter fun s => !m.contains s) ++ m).Nodup := by
      refine List.nodup_append'.mpr ⟨hl.filter _, hm, fun s hs hsm => ?_⟩
      simp [hsm] at hs
    rw [List.perm_ext_iff_of_nodup (List.nodup_dedup _) hnodup]
    intro s
    by_cases hs : s ∈ m <;> simp [hs]
  have hsplit := List.length_eq_length_filter_add (l := l) fun s => m.contains s
  rw [hperm.length_eq, List.length_append]
  omega

/-- **Where the entries of a mapping are left**: each has a place of its own in the object, or has
no key text, or is one of two under one text.

**Proof sketch.** The texts among the keys are distinct, and so are those of the truth values and
numbers.  So a key of the object is written twice if it is among both, and otherwise once. -/
theorem length_eq_of_distinct {entries : List (Value × Value)}
    (h : entries.Pairwise fun a b => same a.1 b.1 = false) :
    entries.length = (KeyMap.ofList (entriesToJson entries)).entries.length +
      (unkeyed entries).length + (clashing entries).length := by
  set texts := entries.filterMap fun e => e.1.textKey? with htexts
  have hnodupTexts : texts.Nodup := by
    refine List.pairwise_filterMap.mpr (h.imp ?_)
    intro a b hab s hs s' hs' heq
    rw [eq_str_of_textKey? hs, eq_str_of_textKey? hs', heq, same, beq_self_eq_true] at hab
    cases hab
  have hnodupScalars : (scalarKeys entries).Nodup := by
    refine List.pairwise_filterMap.mpr (h.imp ?_)
    intro a b hab s hs s' hs' heq
    rw [same_of_scalarKey?_eq hs (heq ▸ hs')] at hab
    cases hab
  have hobject : (KeyMap.ofList (entriesToJson entries)).entries.length =
      (texts ++ scalarKeys entries).dedup.length := by
    have hperm := (map_entriesToJson_perm entries).dedup
    exact (KeyMap.size_ofList _).trans hperm.length_eq
  have hclashing : (texts.filter fun s => (scalarKeys entries).contains s).length =
      (clashing entries).length := by
    rw [clashing, ← List.countP_eq_length_filter, ← List.countP_eq_length_filter, htexts,
      List.countP_filterMap]
    refine List.countP_congr fun e _ => ?_
    cases e.1.textKey? <;> rfl
  have hlength := (map_entriesToJson_perm entries).length_eq
  rw [List.length_map, List.length_append, ← htexts] at hlength
  have hunion := length_dedup_append hnodupTexts hnodupScalars
  have hadd := length_entriesToJson_add entries
  omega

/-- Entries clash if a key is a truth value or a number and another one its text. -/
theorem clashing_eq_nil_iff {entries : List (Value × Value)} :
    clashing entries = [] ↔ ∀ s ∈ scalarKeys entries, ∀ e ∈ entries, e.1 ≠ .str s := by
  rw [clashing, List.filter_eq_nil_iff]
  constructor
  · intro h s hs e he heq
    refine h e he ?_
    rw [heq]
    exact List.contains_iff_mem.mpr hs
  · intro h e he hclash
    obtain ⟨s, hs, hmem⟩ := (Option.any_eq_true _ _).mp hclash
    exact h s (List.contains_iff_mem.mp hmem) e he (eq_str_of_textKey? hs)

/-! ## All mappings -/

mutual

/-- The mappings in a value that become objects, at any depth.  What is under a key without a text
does not become anything. -/
def mappings : Value → List (List (Value × Value))
  | .seq items => itemMappings items
  | .map entries => entries :: entryMappings entries
  | .tagged _ v => mappings v
  | _ => []

/-- The mappings in the items of a sequence. -/
def itemMappings : List Value → List (List (Value × Value))
  | [] => []
  | v :: vs => mappings v ++ itemMappings vs

/-- The mappings in the values of those entries that have a key text. -/
def entryMappings : List (Value × Value) → List (List (Value × Value))
  | [] => []
  | (k, v) :: es => match keyText? k with
    | some _ => mappings v ++ entryMappings es
    | none => entryMappings es

end

mutual

/-- The keys of each mapping in a value are distinct, if they are throughout. -/
theorem pairwise_of_mem_mappings :
    ∀ v : Value, v.Distinct → ∀ entries ∈ v.mappings,
      entries.Pairwise fun a b => same a.1 b.1 = false
  | .null, _, _, h | .bool _, _, _, h | .int _, _, _, h | .float _, _, _, h | .str _, _, _, h =>
    absurd h List.not_mem_nil
  | .seq items, hv, entries, h => pairwise_of_mem_itemMappings items hv entries h
  | .map es, hv, entries, h => by
    obtain rfl | h := List.mem_cons.mp h
    · exact hv.1
    · exact pairwise_of_mem_entryMappings es hv.2 entries h
  | .tagged _ v, hv, entries, h => pairwise_of_mem_mappings v hv entries h

/-- The same for the items of a sequence. -/
theorem pairwise_of_mem_itemMappings :
    ∀ items : List Value, DistinctItems items → ∀ entries ∈ itemMappings items,
      entries.Pairwise fun a b => same a.1 b.1 = false
  | [], _, _, h => absurd h List.not_mem_nil
  | v :: vs, hv, entries, h => (List.mem_append.mp h).elim
      (pairwise_of_mem_mappings v hv.1 entries) (pairwise_of_mem_itemMappings vs hv.2 entries)

/-- The same for the entries of a mapping. -/
theorem pairwise_of_mem_entryMappings :
    ∀ es : List (Value × Value), DistinctEntries es → ∀ entries ∈ entryMappings es,
      entries.Pairwise fun a b => same a.1 b.1 = false
  | [], _, _, h => absurd h List.not_mem_nil
  | (k, v) :: es, hv, entries, h => by
    have ih := pairwise_of_mem_entryMappings es hv.2.2 entries
    rw [entryMappings] at h
    cases hk : k.keyText? with
    | none =>
      rw [hk] at h
      exact ih h
    | some s =>
      rw [hk] at h
      exact (List.mem_append.mp h).elim (pairwise_of_mem_mappings v hv.2.1 entries) ih

end

mutual

/-- **The keys that messages are about** are those without a text, mapping by mapping. -/
theorem droppedKeys_perm : ∀ v : Value, v.droppedKeys.Perm (v.mappings.flatMap unkeyed)
  | .null | .bool _ | .int _ | .float _ | .str _ => .refl _
  | .seq items => itemsDroppedKeys_perm items
  | .map entries => entriesDroppedKeys_perm entries
  | .tagged _ v => droppedKeys_perm v

/-- The same for the items of a sequence. -/
theorem itemsDroppedKeys_perm :
    ∀ items : List Value, (itemsDroppedKeys items).Perm ((itemMappings items).flatMap unkeyed)
  | [] => .refl _
  | v :: vs => by
    rw [itemsDroppedKeys, itemMappings, List.flatMap_append]
    exact (droppedKeys_perm v).append (itemsDroppedKeys_perm vs)

/-- The same for a mapping with its own keys. -/
theorem entriesDroppedKeys_perm :
    ∀ entries : List (Value × Value),
      (entriesDroppedKeys entries).Perm (unkeyed entries ++ (entryMappings entries).flatMap unkeyed)
  | [] => .refl _
  | (k, v) :: es => by
    have ih := entriesDroppedKeys_perm es
    rw [entriesDroppedKeys, entryMappings, unkeyed, List.map_cons, List.filter_cons, ← unkeyed]
    cases hk : k.keyText? with
    | none => exact ih.cons k
    | some s =>
      rw [List.flatMap_append]
      exact ((droppedKeys_perm v).append ih).trans (List.perm_append_comm_assoc _ _ _)

end

end Value

namespace Tree

open Value

/-- **Where the entries of mappings are left**: in every mapping of a document that becomes an
object, each entry has a place of its own in the object, or its key has no text, or its key is the
text of a truth value or number that is another key of the mapping.  The messages are about the keys
without a text.  So an entry is lost without a message exactly if a key of the mapping is a truth
value or a number and another one is its text. -/
theorem mappings_accounted {text : String} {t : Tree} (ht : parse? text = some t) {v : Value}
    (hv : t.value? = some v) :
    (∀ entries ∈ v.mappings, ∃ object, toJson (.map entries) = .obj object ∧
      entries.length = object.length + (unkeyed entries).length + (clashing entries).length ∧
      (entries.length = object.length + (unkeyed entries).length ↔
        ∀ s ∈ scalarKeys entries, ∀ e ∈ entries, e.1 ≠ .str s)) ∧
      v.droppedKeys.Perm (v.mappings.flatMap unkeyed) := by
  have hdistinct : v.Distinct := (sound_of_parse? ht).distinct hv
  refine ⟨fun entries hentries => ?_, v.droppedKeys_perm⟩
  have hlength := length_eq_of_distinct (pairwise_of_mem_mappings v hdistinct entries hentries)
  refine ⟨_, rfl, hlength, ?_⟩
  rw [← clashing_eq_nil_iff, ← List.length_eq_zero_iff]
  omega

/-- Of four entries one has no key text, and two have one key. -/
theorem mappings_accounted_clash : ∃ t v,
    parse? "\x7btrue: 1, 'true': 2, [a]: 3, 1.5: \x7b~: 4\x7d\x7d" = some t ∧ t.value? = some v ∧
      ∃ object, v.toJson = .obj object ∧ 4 = object.length + 1 + 1 := by
  have hread : (parse? "\x7btrue: 1, 'true': 2, [a]: 3, 1.5: \x7b~: 4\x7d\x7d").bind value? =
      some (.map [(.bool true, .int 1), (.str "true", .int 2), (.seq [.str "a"], .int 3),
        (.float ⟨0x3FF8000000000000⟩, .map [(.null, .int 4)])]) := by
    decide +kernel
  obtain ⟨t, ht, hv⟩ := Option.bind_eq_some_iff.mp hread
  obtain ⟨object, hobject, hlength, -⟩ := (mappings_accounted ht hv).1 _ List.mem_cons_self
  refine ⟨t, _, ht, hv, object, hobject, hlength.trans ?_⟩
  exact congrArg₂ (object.length + · + ·) (by decide +kernel) (by decide +kernel)

/-- **An entry is lost** without a message. -/
theorem entry_lost : ∃ t v, parse? "\x7btrue: 1, 'true': 2\x7d" = some t ∧ t.value? = some v ∧
    v = .map [(.bool true, .int 1), (.str "true", .int 2)] ∧
      v.toJson = .obj [("true", .int 2)] ∧ v.droppedKeys = [] := by
  have hread : (parse? "\x7btrue: 1, 'true': 2\x7d").bind value? =
      some (.map [(.bool true, .int 1), (.str "true", .int 2)]) := by decide +kernel
  obtain ⟨t, ht, hv⟩ := Option.bind_eq_some_iff.mp hread
  exact ⟨t, _, ht, hv, rfl, by rfl, rfl⟩

end Tree

end Yaml

end DeployPlan
