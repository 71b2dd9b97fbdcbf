import DeployPlan.KeyMap
import Mathlib.Data.List.Dedup
import Mathlib.Data.List.Forall2

/-!
# Laws of maps with text keys

Further equations of `KeyMap`, beyond the look-ups that stand beside its definition: what a list
of writes or of changes adds up to, and what holds of all entries of a map.

## Main definitions

* `KeyMap.All` — all values of a map have a property.
* `KeyMap.Rel`, `RelAt` — two maps have the same keys, with related values under each; the relation
  may depend on the key.

## Main results

* `KeyMap.get?_insertAll` — after a list of writes, a key holds what was written last.
* `KeyMap.entries_ofList` — sorted entries are the entries of their map.
* `KeyMap.entries_union` — a map whose keys come behind adds its entries behind.
* `KeyMap.size_ofList` — the map of a list has as many entries as the list has keys.
* `KeyMap.foldl_modify` — a list of changes is one change of each value: the changes of its key,
  in turn.
* `KeyMap.relAt_ofList`, `relAt_of_forall₂` — related lists of entries make related maps.
* `KeyMap.Rel.trans` — maps that are related by way of another are related.
-/

set_option autoImplicit false

namespace DeployPlan

variable {α β γ : Type}

/-! ## Entry lists -/

namespace Entries

/-- An entry whose key is greater than all others is written at the end. -/
theorem insert_eq_append {k : String} {v : α} {l : List (String × α)}
    (h : ∀ e ∈ l, e.1 < k) : insert k v l = l ++ [(k, v)] := by
  induction l with
  | nil => rfl
  | cons hd tl ih =>
    obtain ⟨k', v'⟩ := hd
    have hlt : k' < k := h (k', v') List.mem_cons_self
    have hne : k ≠ k' := fun he => String.lt_irrefl k (he ▸ hlt)
    have hnlt : ¬ k < k' := fun h' => String.lt_irrefl k (String.lt_trans h' hlt)
    rw [insert, if_neg hnlt, if_neg hne, ih fun e he => h e (List.mem_cons_of_mem _ he)]
    rfl

/-- The first entry under a key of two lists is that of the first list, if it has one. -/
theorem find?_append (k : String) (l m : List (String × α)) :
    find? k (l ++ m) = (find? k l).or (find? k m) := by
  induction l with
  | nil => simp [find?]
  | cons hd tl ih =>
    obtain ⟨k', v'⟩ := hd
    by_cases h : k = k' <;> simp [find?, h, ih]

/-- What is found is in the list. -/
theorem mem_of_find? {k : String} {v : α} {l : List (String × α)} (h : find? k l = some v) :
    (k, v) ∈ l := by
  induction l with
  | nil => cases h
  | cons hd tl ih =>
    obtain ⟨k', v'⟩ := hd
    by_cases hk : k = k'
    · subst hk
      rw [find?, if_pos rfl, Option.some.injEq] at h
      exact h ▸ List.mem_cons_self
    · rw [find?, if_neg hk] at h
      exact List.mem_cons_of_mem _ (ih h)

/-- A key in a list is found. -/
theorem find?_ne_none {k : String} {v : α} {l : List (String × α)} (h : (k, v) ∈ l) :
    find? k l ≠ none := by
  induction l with
  | nil => cases h
  | cons hd tl ih =>
    obtain ⟨k', v'⟩ := hd
    rw [find?]
    by_cases hk : k = k'
    · simp [hk]
    · rw [if_neg hk]
      refine ih ((List.mem_cons.mp h).resolve_left ?_)
      intro heq
      exact hk (Prod.mk.inj heq).1

/-- In a list with each key once, the entries under a key are what is found there. -/
theorem Sorted.filter_key {l : List (String × α)} (h : Sorted l) (k : String) :
    l.filter (fun e => e.1 == k) = ((find? k l).map fun v => (k, v)).toList := by
  induction l with
  | nil => rfl
  | cons hd tl ih =>
    obtain ⟨k', v'⟩ := hd
    rw [Sorted, List.pairwise_cons] at h
    by_cases hk : k = k'
    · subst hk
      have htl : tl.filter (fun e => e.1 == k) = [] := by
        rw [List.filter_eq_nil_iff]
        intro e he heq
        have hlt := h.1 e he
        rw [eq_of_beq heq] at hlt
        exact String.lt_irrefl _ hlt
      simp [find?, htl]
    · have hk' : (k' == k) = false := by simpa using Ne.symm hk
      simp [find?, hk, hk', ih h.2]

/-- Whether a list is sorted depends only on the keys. -/
theorem sorted_iff_keys {l : List (String × α)} :
    Sorted l ↔ (l.map (·.1)).Pairwise (· < ·) :=
  List.pairwise_map.symm

/-- A part of a sorted list is sorted. -/
theorem Sorted.sublist {l m : List (String × α)} (h : Sorted m) (hl : l.Sublist m) : Sorted l :=
  List.Pairwise.sublist hl h

/-- A sorted list gets longer by a key that is not there. -/
theorem Sorted.length_insert {l : List (String × α)} (h : Sorted l) (k : String) (v : α) :
    (Entries.insert k v l).length = if (find? k l).isSome then l.length else l.length + 1 := by
  induction l with
  | nil => rfl
  | cons e l ih =>
    obtain ⟨k', v'⟩ := e
    rw [Sorted, List.pairwise_cons] at h
    rw [Entries.insert, find?]
    by_cases hlt : k < k'
    · -- the key is less than all others, and so not there
      have hne : k ≠ k' := fun heq => String.lt_irrefl k' (heq ▸ hlt)
      have hnone : find? k l = none := by
        refine find?_eq_none_of_forall_ne fun e he heq => ?_
        exact String.lt_irrefl k (String.lt_trans hlt (heq ▸ h.1 e he))
      simp [hlt, hne, hnone]
    · by_cases heq : k = k'
      · simp [heq]
      · have hlength := ih h.2
        simp only [if_neg hlt, if_neg heq, List.length_cons, hlength]
        split <;> rfl

/-- The keys of a sorted list are distinct. -/
theorem Sorted.nodup_keys {l : List (String × α)} (h : Sorted l) : (l.map (·.1)).Nodup := by
  rw [List.nodup_iff_pairwise_ne, List.pairwise_map]
  refine List.Pairwise.imp ?_ h
  intro a b hlt he
  rw [he] at hlt
  exact String.lt_irrefl _ hlt

end Entries

/-! ## Writes -/

namespace KeyMap

/-- The keys of some entries of a map are distinct. -/
theorem nodup_keys_filter (m : KeyMap α) (p : String × α → Bool) :
    ((m.entries.filter p).map (·.1)).Nodup :=
  (List.filter_sublist.map _).nodup m.sorted.nodup_keys

/-- A key has an entry if there is something under it. -/
theorem contains_iff {m : KeyMap α} {k : String} :
    m.contains k = true ↔ ∃ v, m.get? k = some v := by
  rw [contains, Option.isSome_iff_exists]

/-- A key has no entry if there is nothing under it. -/
theorem contains_eq_false_iff {m : KeyMap α} {k : String} :
    m.contains k = false ↔ m.get? k = none := by
  rw [contains, Option.isSome_eq_false_iff, Option.isNone_iff_eq_none]

/-- A list is written entry by entry. -/
theorem insertAll_cons (m : KeyMap α) (e : String × α) (l : List (String × α)) :
    m.insertAll (e :: l) = (m.insert e.1 e.2).insertAll l :=
  rfl

/-- After a list of writes, a key holds what was written last, or what was there. -/
theorem get?_insertAll (m : KeyMap α) (l : List (String × α)) (k : String) :
    (m.insertAll l).get? k = (Entries.find? k l.reverse).or (m.get? k) := by
  induction l generalizing m with
  | nil => simp [insertAll, Entries.find?]
  | cons hd tl ih =>
    obtain ⟨k', v'⟩ := hd
    rw [insertAll_cons, ih, List.reverse_cons, Entries.find?_append, get?_insert]
    by_cases h : k = k' <;> simp [Entries.find?, h]

/-- Writing two lists in turn is writing them as one. -/
theorem insertAll_append (m : KeyMap α) (l l' : List (String × α)) :
    m.insertAll (l ++ l') = (m.insertAll l).insertAll l' :=
  List.foldl_append

/-- Writes behind all entries of a map are added at its end. -/
theorem entries_insertAll {m : KeyMap α} {l : List (String × α)}
    (h : Entries.Sorted (m.entries ++ l)) : (m.insertAll l).entries = m.entries ++ l := by
  induction l generalizing m with
  | nil => simp [insertAll]
  | cons hd tl ih =>
    obtain ⟨k, v⟩ := hd
    have hlt : ∀ e ∈ m.entries, e.1 < k := fun e he =>
      (List.pairwise_append.mp h).2.2 e he (k, v) List.mem_cons_self
    have hins : (m.insert k v).entries = m.entries ++ [(k, v)] := Entries.insert_eq_append hlt
    rw [insertAll_cons, ih (by rw [hins]; simpa using h), hins]
    simp

/-- Sorted entries are the entries of their map. -/
theorem entries_ofList {l : List (String × α)} (h : Entries.Sorted l) : (ofList l).entries = l := by
  simpa [ofList, empty] using entries_insertAll (m := empty) (l := l) (by simpa [empty] using h)

/-- What a map with one entry holds. -/
theorem get?_single_eq_some_iff {k k' : String} {v w : α} :
    (single k v).get? k' = some w ↔ k' = k ∧ v = w := by
  rw [single, get?_insert, get?_empty]
  split <;> simp_all

/-- What a map of a list holds is in the list. -/
theorem mem_of_get?_ofList {l : List (String × α)} {k : String} {v : α}
    (h : (ofList l).get? k = some v) : (k, v) ∈ l := by
  rw [ofList, get?_insertAll, get?_empty, Option.or_none] at h
  exact List.mem_reverse.mp (Entries.mem_of_find? h)

/-- The entries of a map, written in turn, are the map. -/
@[simp] theorem ofList_entries (m : KeyMap α) : ofList m.entries = m :=
  ext (entries_ofList m.sorted)

/-- Of two maps, the second counts under its keys, and the first under all others. -/
theorem get?_union (m n : KeyMap α) (k : String) :
    (m.union n).get? k = (n.get? k).or (m.get? k) := by
  have hn : (ofList n.entries).get? k = Entries.find? k n.entries.reverse := by
    rw [ofList, get?_insertAll, get?_empty, Option.or_none]
  rw [union, get?_insertAll, ← hn, ofList_entries]

/-- The union with what a list writes is the map after the list was written to it. -/
theorem union_ofList (m : KeyMap α) (l : List (String × α)) :
    m.union (ofList l) = m.insertAll l := by
  refine ext_get? fun k => ?_
  rw [get?_union, get?_insertAll, ofList, get?_insertAll, get?_empty, Option.or_none]

/-- A map without entries is the empty one. -/
theorem eq_empty_of_isEmpty {m : KeyMap α} (h : m.isEmpty = true) : m = .empty :=
  ext (List.isEmpty_iff.mp h)

/-- Of three maps, the last counts first, however they are put together. -/
theorem union_assoc (m n o : KeyMap α) : (m.union n).union o = m.union (n.union o) := by
  refine ext_get? fun k => ?_
  simp only [get?_union, Option.or_assoc]

/-- Maps that are put together from the left can be put together before. -/
theorem foldl_union (m : KeyMap α) (maps : List (KeyMap α)) :
    maps.foldl union m = m.union (maps.foldl union .empty) := by
  induction maps generalizing m with
  | nil => rfl
  | cons n maps ih =>
    have hempty : KeyMap.empty.union n = n := by
      refine ext_get? fun k => ?_
      rw [get?_union, get?_empty, Option.or_none]
    rw [List.foldl_cons, List.foldl_cons, ih (m.union n), hempty, ih n, union_assoc]

/-- The map of a list that is put together. -/
theorem ofList_append (l l' : List (String × α)) :
    ofList (l ++ l') = (ofList l).union (ofList l') := by
  rw [union_ofList, ofList, insertAll_append]
  rfl

/-- The entries of a map and another whose keys come behind. -/
theorem entries_union {m n : KeyMap α} (h : ∀ k ∈ m.keys, ∀ k' ∈ n.keys, k < k') :
    (m.union n).entries = m.entries ++ n.entries := by
  refine entries_insertAll (List.pairwise_append.mpr ⟨m.sorted, n.sorted, fun e he e' he' => ?_⟩)
  exact h e.1 (List.mem_map_of_mem he) e'.1 (List.mem_map_of_mem he')

/-- The keys of a map are those with an entry. -/
theorem mem_keys_iff {m : KeyMap α} {k : String} : k ∈ m.keys ↔ ∃ v, m.get? k = some v := by
  rw [keys, List.mem_map]
  constructor
  · rintro ⟨⟨k', v⟩, hmem, rfl⟩
    exact ⟨v, mem_entries_iff.mp hmem⟩
  · rintro ⟨v, hv⟩
    exact ⟨(k, v), mem_entries_iff.mpr hv, rfl⟩

/-- A map grows by a key that has no entry. -/
theorem size_insert (m : KeyMap α) (k : String) (v : α) :
    (m.insert k v).size = if m.contains k then m.size else m.size + 1 :=
  m.sorted.length_insert k v

/-- Each key that is written has an entry in the end, and no other key has. -/
theorem exists_get?_ofList_iff {l : List (String × α)} {k : String} :
    (∃ v, (ofList l).get? k = some v) ↔ k ∈ l.map (·.1) := by
  constructor
  · rintro ⟨v, hv⟩
    exact List.mem_map.mpr ⟨(k, v), mem_of_get?_ofList hv, rfl⟩
  · intro hk
    obtain ⟨⟨k', v⟩, hmem, rfl⟩ := List.mem_map.mp hk
    have hfound : Entries.find? k' l.reverse ≠ none :=
      Entries.find?_ne_none (List.mem_reverse.mpr hmem)
    obtain ⟨w, hw⟩ := Option.ne_none_iff_exists'.mp hfound
    exact ⟨w, by rw [ofList, get?_insertAll, hw]; rfl⟩

/-- **The size of a map of a list**: each key counts once, however often it is written. -/
theorem size_ofList (l : List (String × α)) :
    (ofList l).size = (l.map (·.1)).dedup.length := by
  have hkeys : (ofList l).keys.Nodup := (ofList l).sorted.nodup_keys
  have hperm : (ofList l).keys.Perm (l.map (·.1)).dedup := by
    rw [List.perm_ext_iff_of_nodup hkeys (List.nodup_dedup _)]
    intro k
    rw [mem_keys_iff, exists_get?_ofList_iff, List.mem_dedup]
  rw [← hperm.length_eq, keys, List.length_map, size]

/-- All values of a map have a property. -/
def All (P : α → Prop) (m : KeyMap α) : Prop := ∀ k v, m.get? k = some v → P v

/-- There is none in the empty map. -/
theorem all_empty (P : α → Prop) : (empty : KeyMap α).All P := fun _ _ h => by cases h

/-- A new value has to have the property too. -/
theorem All.insert {P : α → Prop} {m : KeyMap α} (h : m.All P) {v : α} (hv : P v) (k : String) :
    (m.insert k v).All P := by
  intro k' v' hget
  rw [get?_insert] at hget
  split at hget
  · cases hget
    exact hv
  · exact h k' v' hget

/-- What holds of the values of two maps holds of those of their union. -/
theorem All.union {P : α → Prop} {m n : KeyMap α} (hm : m.All P) (hn : n.All P) :
    (m.union n).All P := by
  intro k v h
  rw [KeyMap.union, get?_insertAll] at h
  rcases Option.or_eq_some_iff.mp h with h | ⟨-, h⟩
  · exact hn k v (mem_entries_iff.mp (List.mem_reverse.mp (Entries.mem_of_find? h)))
  · exact hm k v h

/-- The same for the union of many. -/
theorem all_foldl_union {P : α → Prop} {maps : List (KeyMap α)} (h : ∀ m ∈ maps, m.All P) :
    (maps.foldl union empty).All P := by
  have writes : ∀ init : KeyMap α, init.All P → (maps.foldl union init).All P := by
    induction maps with
    | nil => exact fun _ hinit => hinit
    | cons m maps ih =>
      intro init hinit
      refine ih (fun n hn => h n (List.mem_cons_of_mem m hn)) (init.union m) ?_
      exact hinit.union (h m List.mem_cons_self)
  exact writes empty (all_empty P)

/-- Entries under the keys of a map are the entries of their map. -/
theorem entries_ofList_of_forall₂ {m : KeyMap α} {l : List (String × β)}
    (h : List.Forall₂ (fun e e' => e'.1 = e.1) m.entries l) : (ofList l).entries = l := by
  have hkeys : l.map (·.1) = m.entries.map (·.1) := by
    rw [← List.forall₂_eq_eq_eq, List.forall₂_map_left_iff, List.forall₂_map_right_iff]
    exact h.flip
  refine entries_ofList (Entries.sorted_iff_keys.mpr ?_)
  rw [hkeys]
  exact Entries.sorted_iff_keys.mp m.sorted

/-! ## Changes -/

/-- Changed values stand under the same keys. -/
@[simp] theorem mapWithKey_entries (f : String → α → β) (m : KeyMap α) :
    (m.mapWithKey f).entries = m.entries.map fun e => (e.1, f e.1 e.2) := rfl

/-- The same for changes that do not look at the key. -/
@[simp] theorem mapValues_entries (f : α → β) (m : KeyMap α) :
    (m.mapValues f).entries = m.entries.map fun e => (e.1, f e.2) := rfl

/-- A map without entries is the empty map, and so is what becomes of it. -/
theorem mapValues_of_isEmpty {m : KeyMap α} (h : m.isEmpty = true)
    (f : α → β) : m.mapValues f = .empty := by
  refine ext ?_
  rw [mapValues_entries, List.isEmpty_iff.mp h]
  rfl

/-- Two changes of all values are one. -/
theorem mapWithKey_mapWithKey (m : KeyMap α) (f : String → α → β) (g : String → β → γ) :
    (m.mapWithKey f).mapWithKey g = m.mapWithKey fun k v => g k (f k v) :=
  ext (by simp)

/-- Nothing changes in a map of which no value changes. -/
@[simp] theorem mapWithKey_id (m : KeyMap α) : m.mapWithKey (fun _ v => v) = m :=
  ext (by simp)

/-- A map is changed only where its values are. -/
theorem mapWithKey_congr {m : KeyMap α} {f g : String → α → β}
    (h : ∀ k v, m.get? k = some v → f k v = g k v) : m.mapWithKey f = m.mapWithKey g := by
  refine ext_get? fun k => ?_
  rw [get?_mapWithKey, get?_mapWithKey]
  cases hk : m.get? k with
  | none => rfl
  | some v => simp [h k v hk]

/-- A written entry is changed by what is written. -/
theorem mapWithKey_insert (m : KeyMap α) (k : String) (v : α) (f : String → α → β) :
    (m.insert k v).mapWithKey f = (m.mapWithKey f).insert k (f k v) := by
  refine ext_get? fun k' => ?_
  rw [get?_mapWithKey, get?_insert, get?_insert, get?_mapWithKey]
  by_cases hk : k' = k
  · rw [if_pos hk, if_pos hk, hk]
    rfl
  · rw [if_neg hk, if_neg hk]

/-- The map of changed entries is the map of the entries, changed. -/
theorem mapWithKey_ofList (l : List (String × α)) (f : String → α → β) :
    (ofList l).mapWithKey f = ofList (l.map fun e => (e.1, f e.1 e.2)) := by
  have writes : ∀ m : KeyMap α, (m.insertAll l).mapWithKey f =
      (m.mapWithKey f).insertAll (l.map fun e => (e.1, f e.1 e.2)) := by
    induction l with
    | nil => exact fun m => rfl
    | cons e l ih =>
      intro m
      rw [insertAll_cons, ih, mapWithKey_insert]
      rfl
  exact writes empty

/-- Changes of values keep the keys. -/
theorem contains_mapWithKey (m : KeyMap α) (f : String → α → β) (k : String) :
    (m.mapWithKey f).contains k = m.contains k := by
  rw [contains, contains, get?_mapWithKey, Option.isSome_map]

/-- The same for a change of one value. -/
theorem contains_modify (m : KeyMap α) (k k' : String) (f : α → α) :
    (m.modify k' f).contains k = m.contains k :=
  contains_mapWithKey m _ k

/-- Nothing changes under a key without an entry. -/
theorem modify_of_get?_eq_none {m : KeyMap α} {k : String} (h : m.get? k = none) (f : α → α) :
    m.modify k f = m := by
  refine ext_get? fun k' => ?_
  rw [get?_modify]
  by_cases hk : k' = k
  · subst hk; simp [h]
  · simp [hk]

/-- A write under a key that has an entry changes it. -/
theorem insert_eq_modify {m : KeyMap α} {k : String} {v : α} (h : m.get? k = some v)
    (f : α → α) : m.insert k (f v) = m.modify k f := by
  refine ext_get? fun k' => ?_
  rw [get?_insert, get?_modify]
  by_cases hk : k' = k
  · subst hk; simp [h]
  · simp [hk]

/-- A list of changes to single keys is one change of each value: the changes of its key, in
turn. -/
theorem foldl_modify (l : List (String × β)) (f : β → α → α) (m : KeyMap α) :
    l.foldl (fun m e => m.modify e.1 (f e.2)) m =
      m.mapWithKey fun k v => (l.filter fun e => e.1 == k).foldl (fun v e => f e.2 v) v := by
  induction l generalizing m with
  | nil => exact ext (by simp)
  | cons hd tl ih =>
    obtain ⟨k', x⟩ := hd
    rw [List.foldl_cons, ih, modify, mapWithKey_mapWithKey]
    refine mapWithKey_congr fun k v _ => ?_
    by_cases hk : k = k'
    · subst hk; simp
    · have hk' : (k' == k) = false := by simpa using Ne.symm hk
      simp [hk, hk']

/-- The same for changes that are listed by key: each value gets the one under its key. -/
theorem foldl_modify_of_sorted {l : List (String × β)} (h : Entries.Sorted l)
    (f : β → α → α) (m : KeyMap α) :
    l.foldl (fun m e => m.modify e.1 (f e.2)) m =
      m.mapWithKey fun k v => ((Entries.find? k l).map fun x => f x v).getD v := by
  rw [foldl_modify]
  refine mapWithKey_congr fun k v _ => ?_
  rw [h.filter_key]
  cases Entries.find? k l <;> rfl

/-! ## Related maps -/

/-- Two maps have the same keys, and under each of them related values. -/
def Rel (R : α → β → Prop) (m : KeyMap α) (n : KeyMap β) : Prop :=
  ∀ k, Option.Rel R (m.get? k) (n.get? k)

/-- Under a key of the first of two related maps, the second has a related value. -/
theorem Rel.get? {R : α → β → Prop} {m : KeyMap α} {n : KeyMap β} (h : Rel R m n) {k : String}
    {v : α} (hv : m.get? k = some v) : ∃ w, n.get? k = some w ∧ R v w := by
  have hk := h k
  rw [hv] at hk
  cases hn : n.get? k with
  | none => rw [hn] at hk; cases hk
  | some w => rw [hn] at hk; cases hk with | some hr => exact ⟨w, rfl, hr⟩

/-- The same from the second map to the first. -/
theorem Rel.get?_right {R : α → β → Prop} {m : KeyMap α} {n : KeyMap β} (h : Rel R m n)
    {k : String} {w : β} (hw : n.get? k = some w) : ∃ v, m.get? k = some v ∧ R v w := by
  have hk := h k
  rw [hw] at hk
  cases hm : m.get? k with
  | none => rw [hm] at hk; cases hk
  | some v => rw [hm] at hk; cases hk with | some hr => exact ⟨v, rfl, hr⟩

/-- Related maps have the same keys. -/
theorem Rel.contains {R : α → β → Prop} {m : KeyMap α} {n : KeyMap β} (h : Rel R m n)
    (k : String) : n.contains k = m.contains k := by
  rw [Bool.eq_iff_iff, contains_iff, contains_iff]
  constructor
  · rintro ⟨w, hw⟩
    obtain ⟨v, hv, -⟩ := h.get?_right hw
    exact ⟨v, hv⟩
  · rintro ⟨v, hv⟩
    obtain ⟨w, hw, -⟩ := h.get? hv
    exact ⟨w, hw⟩

/-- A map is related to itself if its values are. -/
theorem Rel.refl {R : α → α → Prop} (hR : ∀ v, R v v) (m : KeyMap α) : Rel R m m := by
  intro k
  cases m.get? k with
  | none => exact .none
  | some v => exact .some (hR v)

/-- A symmetric relation of values makes one of maps. -/
theorem Rel.symm {R : α → α → Prop} (hR : ∀ v w, R v w → R w v) {m n : KeyMap α}
    (h : Rel R m n) : Rel R n m := by
  intro k
  cases hn : n.get? k with
  | none =>
    cases hm : m.get? k with
    | none => exact .none
    | some v =>
      obtain ⟨w, hw, -⟩ := h.get? hm
      rw [hn] at hw
      cases hw
  | some w =>
    obtain ⟨v, hv, hvw⟩ := h.get?_right hn
    rw [hv]
    exact .some (hR v w hvw)

/-- Maps that are related by way of another are related. -/
theorem Rel.trans {R : α → β → Prop} {S : β → γ → Prop} {T : α → γ → Prop}
    (hT : ∀ u v w, R u v → S v w → T u w) {m : KeyMap α} {n : KeyMap β} {o : KeyMap γ}
    (h : Rel R m n) (h' : Rel S n o) : Rel T m o := by
  intro k
  cases hm : m.get? k with
  | none =>
    cases ho : o.get? k with
    | none => exact .none
    | some w =>
      obtain ⟨v, hv, -⟩ := h'.get?_right ho
      obtain ⟨u, hu, -⟩ := h.get?_right hv
      rw [hm] at hu
      cases hu
  | some u =>
    obtain ⟨v, hv, huv⟩ := h.get? hm
    obtain ⟨w, hw, hvw⟩ := h'.get? hv
    rw [hw]
    exact .some (hT u v w huv hvw)

/-- Changes of values relate a map to what becomes of it. -/
theorem rel_mapWithKey {R : α → β → Prop} {m : KeyMap α} {f : String → α → β}
    (h : ∀ k v, R v (f k v)) : Rel R m (m.mapWithKey f) := by
  intro k
  rw [get?_mapWithKey]
  cases m.get? k with
  | none => exact .none
  | some v => exact .some (h k v)

/-- A write under a key that has an entry relates the maps as it relates the values. -/
theorem rel_insert {R : α → α → Prop} (hR : ∀ v, R v v) {m : KeyMap α} {k : String} {v v' : α}
    (h : m.get? k = some v) (hv : R v v') : Rel R m (m.insert k v') := by
  intro k'
  rw [get?_insert]
  by_cases hk : k' = k
  · subst hk
    rw [h, if_pos rfl]
    exact .some hv
  · rw [if_neg hk]
    exact Rel.refl hR m k'

/-! ## Maps that are related under each key -/

/-- Two maps have the same keys, and under each of them values with the relation of the key. -/
def RelAt (R : String → α → β → Prop) (m : KeyMap α) (n : KeyMap β) : Prop :=
  ∀ k, Option.Rel (R k) (m.get? k) (n.get? k)

/-- The relations of the keys can be weakened to one for all. -/
theorem RelAt.rel {R : String → α → β → Prop} {S : α → β → Prop} {m : KeyMap α} {n : KeyMap β}
    (h : RelAt R m n) (hRS : ∀ k v w, R k v w → S v w) : Rel S m n := by
  intro k
  have hk := h k
  generalize m.get? k = v, n.get? k = w at hk
  cases hk with
  | none => exact .none
  | some hvw => exact .some (hRS k _ _ hvw)

/-- The relations of the keys can be weakened. -/
theorem RelAt.imp {R S : String → α → β → Prop} {m : KeyMap α} {n : KeyMap β} (h : RelAt R m n)
    (hRS : ∀ k v w, R k v w → S k v w) : RelAt S m n := by
  intro k
  have hk := h k
  generalize m.get? k = v, n.get? k = w at hk
  cases hk with
  | none => exact .none
  | some hvw => exact .some (hRS k _ _ hvw)

/-- Under a key of the second map, the first has a value with the relation of the key. -/
theorem RelAt.get?_right {R : String → α → β → Prop} {m : KeyMap α} {n : KeyMap β}
    (h : RelAt R m n) {k : String} {w : β} (hw : n.get? k = some w) :
    ∃ v, m.get? k = some v ∧ R k v w := by
  have hk := h k
  rw [hw] at hk
  cases hm : m.get? k with
  | none => rw [hm] at hk; cases hk
  | some v => rw [hm] at hk; cases hk with | some hr => exact ⟨v, rfl, hr⟩

/-- Maps of which the second is related further have the relations that follow under each key. -/
theorem RelAt.trans {R : String → α → β → Prop} {S : β → γ → Prop} {T : String → α → γ → Prop}
    (hT : ∀ k u v w, R k u v → S v w → T k u w) {m : KeyMap α} {n : KeyMap β} {o : KeyMap γ}
    (h : RelAt R m n) (h' : Rel S n o) : RelAt T m o := by
  intro k
  have hk := h k
  have hk' := h' k
  generalize m.get? k = u, n.get? k = v, o.get? k = w at hk hk'
  cases hk with
  | none => cases hk' with | none => exact .none
  | some huv => cases hk' with | some hvw => exact .some (hT k _ _ _ huv hvw)

/-- Two maps that are related to a third are related to each other by way of its values. -/
theorem RelAt.both {R : String → α → β → Prop} {S : String → α → γ → Prop} {m : KeyMap α}
    {n : KeyMap β} {o : KeyMap γ} (h : RelAt R m n) (h' : RelAt S m o) :
    RelAt (fun k w w' => ∃ v, m.get? k = some v ∧ R k v w ∧ S k v w') n o := by
  intro k
  have hk := h k
  have hk' := h' k
  generalize hv : m.get? k = v, n.get? k = w, o.get? k = w' at hk hk'
  cases hk with
  | none => cases hk' with | none => exact .none
  | some hvw => cases hk' with | some hvw' => exact .some ⟨_, hv, hvw, hvw'⟩

/-- Relations to the values of a map that survive their changes. -/
theorem RelAt.mapWithKey_right {R : String → α → β → Prop} {m : KeyMap α} {n : KeyMap β}
    {f : String → β → β} (h : RelAt R m n) (hf : ∀ k v w, R k v w → R k v (f k w)) :
    RelAt R m (n.mapWithKey f) := by
  intro k
  rw [get?_mapWithKey]
  have hk := h k
  generalize m.get? k = v, n.get? k = w at hk
  cases hk with
  | none => exact .none
  | some hvw => exact .some (hf k _ _ hvw)

/-- Related lists of entries make related maps.

**Proof sketch.** Induction on the lists, for all pairs of related maps to write to: a write under
one key of related values keeps maps related. -/
theorem relAt_ofList {R : String → α → β → Prop} {l : List (String × α)}
    {l' : List (String × β)}
    (h : List.Forall₂ (fun e e' => e.1 = e'.1 ∧ R e'.1 e.2 e'.2) l l') :
    RelAt R (ofList l) (ofList l') := by
  have writes : ∀ (m : KeyMap α) (n : KeyMap β), RelAt R m n →
      RelAt R (m.insertAll l) (n.insertAll l') := by
    induction h with
    | nil => exact fun _ _ hmn => hmn
    | @cons e e' l l' he _ ih =>
      obtain ⟨k, v⟩ := e
      obtain ⟨k', v'⟩ := e'
      obtain ⟨rfl, hv⟩ := he
      refine fun m n hmn => ih (m.insert k v) (n.insert k v') fun i => ?_
      rw [get?_insert, get?_insert]
      by_cases hi : i = k
      · rw [if_pos hi, if_pos hi, hi]
        exact .some hv
      · rw [if_neg hi, if_neg hi]
        exact hmn i
  exact writes empty empty fun _ => .none

/-- Entries under the keys of a map and related to its values make a related map. -/
theorem relAt_of_forall₂ {R : String → α → β → Prop} {m : KeyMap α} {l : List (String × β)}
    (h : List.Forall₂ (fun e e' => e'.1 = e.1 ∧ R e'.1 e.2 e'.2) m.entries l) :
    RelAt R m (ofList l) := by
  rw [← ofList_entries m]
  exact relAt_ofList (h.imp fun _ _ he => ⟨he.1.symm, he.2⟩)

end KeyMap

end DeployPlan
