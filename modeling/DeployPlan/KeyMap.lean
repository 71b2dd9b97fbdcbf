/-!
# Maps with text keys

Manifests and plans are maps from names to things.  A map lists its entries in the order of
their keys, each key once, so that two maps with the same look-ups are the same map.  Keys are
compared by code point, which is also the order of their UTF-8 bytes.

## Main definitions

* `DeployPlan.KeyMap` — entries in strictly increasing order of keys.
* `KeyMap.get?`, `insert`, `ofList`, `union`, `mapValues`, `modify` — look-up, the last write
  wins, a right-biased union, and changes that keep the keys.

## Main results

* `KeyMap.ext_get?` — a map is determined by its look-ups.
* `KeyMap.get?_insert`, `get?_union`, `get?_mapValues`, `get?_modify` — one equation per
  operation.
-/

set_option autoImplicit false

namespace DeployPlan

variable {α β : Type}

/-! ## Entry lists -/

namespace Entries

/-- The entries are in strictly increasing order of keys. -/
def Sorted (l : List (String × α)) : Prop := l.Pairwise fun a b => a.1 < b.1

/-- Writes `v` under `k`, in key order, in place of an entry that is there. -/
def insert (k : String) (v : α) : List (String × α) → List (String × α)
  | [] => [(k, v)]
  | (k', v') :: l =>
    if k < k' then (k, v) :: (k', v') :: l
    else if k = k' then (k, v) :: l
    else (k', v') :: insert k v l

/-- What the first entry under `k` holds. -/
def find? (k : String) : List (String × α) → Option α
  | [] => none
  | (k', v) :: l => if k = k' then some v else find? k l

/-- Of two different keys, one is less. -/
theorem lt_of_not_lt_of_ne {a b : String} (h : ¬ a < b) (h' : a ≠ b) : b < a :=
  Decidable.byContradiction fun hn =>
    h' (String.le_antisymm (String.not_lt.mp hn) (String.not_lt.mp h))

/-- An entry of a list with one more is that one, or was there before. -/
theorem mem_insert {k : String} {v : α} {e : String × α} {l : List (String × α)}
    (h : e ∈ insert k v l) : e = (k, v) ∨ e ∈ l := by
  induction l with
  | nil => simpa [insert] using h
  | cons hd tl ih =>
    obtain ⟨k', v'⟩ := hd
    rw [insert] at h
    split at h
    · simpa using h
    · split at h
      · rcases List.mem_cons.mp h with h | h
        · exact .inl h
        · exact .inr (List.mem_cons_of_mem _ h)
      · rcases List.mem_cons.mp h with h | h
        · exact .inr (h ▸ List.mem_cons_self)
        · exact (ih h).imp id (List.mem_cons_of_mem _)

/-- Sorted entries stay sorted with one more. -/
theorem Sorted.insert {l : List (String × α)} (h : Sorted l) (k : String) (v : α) :
    Sorted (insert k v l) := by
  induction l with
  | nil => simp [Entries.insert, Sorted]
  | cons hd tl ih =>
    obtain ⟨k', v'⟩ := hd
    rw [Sorted, List.pairwise_cons] at h
    rw [Entries.insert]
    split
    · rename_i hlt
      refine List.pairwise_cons.mpr ⟨?_, List.pairwise_cons.mpr h⟩
      intro e he
      rcases List.mem_cons.mp he with rfl | he
      · exact hlt
      · exact String.lt_trans hlt (h.1 e he)
    · split
      · rename_i heq
        subst heq
        exact List.pairwise_cons.mpr h
      · rename_i hnlt hne
        refine List.pairwise_cons.mpr ⟨?_, ih h.2⟩
        intro e he
        rcases mem_insert he with rfl | he
        · exact lt_of_not_lt_of_ne hnlt hne
        · exact h.1 e he

/-- Sorted entries stay sorted with other values. -/
theorem Sorted.map {l : List (String × α)} (h : Sorted l) (f : String → α → β) :
    Sorted (l.map fun e => (e.1, f e.1 e.2)) := by
  rw [Sorted, List.pairwise_map]
  exact h

/-- Nothing is found under a key that no entry has. -/
theorem find?_eq_none_of_forall_ne {k : String} {l : List (String × α)}
    (h : ∀ e ∈ l, k ≠ e.1) : find? k l = none := by
  induction l with
  | nil => rfl
  | cons hd tl ih =>
    obtain ⟨k', v'⟩ := hd
    rw [find?, if_neg (h (k', v') List.mem_cons_self)]
    exact ih fun e he => h e (List.mem_cons_of_mem _ he)

/-- After an entry is written, its value is found under its key, and under others what was
there before. -/
theorem find?_insert (k k' : String) (v : α) (l : List (String × α)) :
    find? k (insert k' v l) = if k = k' then some v else find? k l := by
  induction l with
  | nil => simp [insert, find?]
  | cons hd tl ih =>
    obtain ⟨k'', v''⟩ := hd
    rw [insert]
    split
    · simp [find?]
    · split
      · rename_i heq
        subst heq
        simp only [find?]
        split <;> rfl
      · rename_i hne
        simp only [find?, ih]
        by_cases h1 : k = k''
        · subst h1
          simp [Ne.symm hne]
        · simp [h1]

/-- With changed values, the changed value is found. -/
theorem find?_map (f : String → α → β) (k : String) (l : List (String × α)) :
    find? k (l.map fun e => (e.1, f e.1 e.2)) = (find? k l).map (f k) := by
  induction l with
  | nil => rfl
  | cons hd tl ih =>
    obtain ⟨k', v'⟩ := hd
    simp only [List.map_cons, find?]
    by_cases h : k = k'
    · subst h; simp
    · simp [h, ih]

/-- **What is found in sorted entries** is what an entry holds. -/
theorem find?_eq_some_iff {l : List (String × α)} (h : Sorted l) {k : String} {v : α} :
    find? k l = some v ↔ (k, v) ∈ l := by
  induction l with
  | nil => simp [find?]
  | cons hd tl ih =>
    obtain ⟨k', v'⟩ := hd
    rw [Sorted, List.pairwise_cons] at h
    rw [find?]
    by_cases hk : k = k'
    · subst hk
      simp only [if_true, Option.some.injEq, List.mem_cons, Prod.mk.injEq, true_and]
      constructor
      · intro hv; exact .inl hv.symm
      · rintro (hv | hm)
        · exact hv.symm
        · exact absurd (h.1 _ hm) (String.lt_irrefl _)
    · simp [hk, ih h.2]

/-- **Sorted entries are determined by what is found in them.**

**Proof sketch.** They have the same members, so that the first of either list, which is less than
all others, is the same, and the rest has the same members again. -/
theorem Sorted.ext {l m : List (String × α)} (hl : Sorted l) (hm : Sorted m)
    (h : ∀ k, find? k l = find? k m) : l = m := by
  have mem : ∀ e, e ∈ l ↔ e ∈ m := fun e => by
    rw [← find?_eq_some_iff hl (k := e.1) (v := e.2), h, find?_eq_some_iff hm]
  clear h
  induction l generalizing m with
  | nil =>
    cases m with
    | nil => rfl
    | cons b bs => exact absurd ((mem b).mpr List.mem_cons_self) List.not_mem_nil
  | cons a as ih =>
    cases m with
    | nil => exact absurd ((mem a).mp List.mem_cons_self) List.not_mem_nil
    | cons b bs =>
      rw [Sorted, List.pairwise_cons] at hl hm
      have hab : a = b := by
        rcases List.mem_cons.mp ((mem a).mp List.mem_cons_self) with h1 | h1
        · exact h1
        · rcases List.mem_cons.mp ((mem b).mpr List.mem_cons_self) with h2 | h2
          · exact h2.symm
          · exact absurd (String.lt_trans (hm.1 a h1) (hl.1 b h2)) (String.lt_irrefl _)
      subst hab
      refine congrArg (a :: ·) (ih hl.2 hm.2 fun e => ⟨fun he => ?_, fun he => ?_⟩)
      · rcases List.mem_cons.mp ((mem e).mp (List.mem_cons_of_mem _ he)) with h1 | h1
        · exact absurd (h1 ▸ hl.1 e he) (String.lt_irrefl _)
        · exact h1
      · rcases List.mem_cons.mp ((mem e).mpr (List.mem_cons_of_mem _ he)) with h1 | h1
        · exact absurd (h1 ▸ hm.1 e he) (String.lt_irrefl _)
        · exact h1

end Entries

/-! ## Maps -/

/-- Entries in strictly increasing order of keys. -/
structure KeyMap (α : Type) where
  /-- The entries, in key order. -/
  entries : List (String × α)
  /-- Each key is less than those after it. -/
  sorted : Entries.Sorted entries

namespace KeyMap

/-- Maps are equal if their entries are. -/
theorem ext {m n : KeyMap α} (h : m.entries = n.entries) : m = n := by
  cases m; cases n; cases h; rfl

instance [DecidableEq α] : DecidableEq (KeyMap α) := fun m n =>
  decidable_of_iff (m.entries = n.entries) ⟨ext, fun h => h ▸ rfl⟩

/-- The map without entries. -/
def empty : KeyMap α := ⟨[], List.Pairwise.nil⟩

instance : EmptyCollection (KeyMap α) := ⟨empty⟩

instance : Inhabited (KeyMap α) := ⟨empty⟩

/-- Whether there are no entries. -/
def isEmpty (m : KeyMap α) : Bool := m.entries.isEmpty

/-- The number of entries. -/
def size (m : KeyMap α) : Nat := m.entries.length

/-- The keys, in order. -/
def keys (m : KeyMap α) : List String := m.entries.map (·.1)

/-- The values, in the order of their keys. -/
def values (m : KeyMap α) : List α := m.entries.map (·.2)

/-- What is kept under a key. -/
def get? (m : KeyMap α) (k : String) : Option α := Entries.find? k m.entries

/-- Whether a key has an entry. -/
def contains (m : KeyMap α) (k : String) : Bool := (m.get? k).isSome

/-- Writes a value under a key, in place of the one that is there. -/
def insert (m : KeyMap α) (k : String) (v : α) : KeyMap α :=
  ⟨Entries.insert k v m.entries, m.sorted.insert k v⟩

/-- Writes entries in turn: of two with one key, the later stays. -/
def insertAll (m : KeyMap α) (l : List (String × α)) : KeyMap α :=
  l.foldl (fun m e => m.insert e.1 e.2) m

/-- The map of a list of entries: of two with one key, the later stays. -/
def ofList (l : List (String × α)) : KeyMap α := insertAll empty l

/-- The map with one entry. -/
def single (k : String) (v : α) : KeyMap α := insert empty k v

/-- Both maps; a key of both keeps the value of the second. -/
def union (m n : KeyMap α) : KeyMap α := m.insertAll n.entries

/-- The same keys, each with a new value. -/
def mapWithKey (f : String → α → β) (m : KeyMap α) : KeyMap β :=
  ⟨m.entries.map fun e => (e.1, f e.1 e.2), m.sorted.map f⟩

/-- The same keys, each with a new value. -/
def mapValues (f : α → β) (m : KeyMap α) : KeyMap β := m.mapWithKey fun _ => f

/-- Changes the value under one key. -/
def modify (m : KeyMap α) (k : String) (f : α → α) : KeyMap α :=
  m.mapWithKey fun k' v => if k' = k then f v else v

/-! ## Look-ups -/

/-- Nothing is kept in the empty map. -/
@[simp] theorem get?_empty (k : String) : (empty : KeyMap α).get? k = none := rfl

/-- A value that was written is kept under its key, and under other keys what was there before. -/
theorem get?_insert (m : KeyMap α) (k k' : String) (v : α) :
    (m.insert k' v).get? k = if k = k' then some v else m.get? k :=
  Entries.find?_insert k k' v m.entries

/-- A map with changed values keeps the changed value of a key. -/
theorem get?_mapWithKey (m : KeyMap α) (f : String → α → β) (k : String) :
    (m.mapWithKey f).get? k = (m.get? k).map (f k) :=
  Entries.find?_map f k m.entries

/-- The same for changes that do not look at the key. -/
theorem get?_mapValues (m : KeyMap α) (f : α → β) (k : String) :
    (m.mapValues f).get? k = (m.get? k).map f :=
  get?_mapWithKey m (fun _ => f) k

/-- A change under one key leaves what is kept under others. -/
theorem get?_modify (m : KeyMap α) (k k' : String) (f : α → α) :
    (m.modify k' f).get? k = if k = k' then (m.get? k).map f else m.get? k := by
  rw [modify, get?_mapWithKey]
  by_cases h : k = k'
  · subst h; simp
  · simp [h]

/-- **An entry is what is kept under its key.** -/
theorem mem_entries_iff {m : KeyMap α} {k : String} {v : α} :
    (k, v) ∈ m.entries ↔ m.get? k = some v :=
  (Entries.find?_eq_some_iff m.sorted).symm

/-- **Maps are equal** if they keep the same under each key. -/
theorem ext_get? {m n : KeyMap α} (h : ∀ k, m.get? k = n.get? k) : m = n :=
  ext (m.sorted.ext n.sorted h)

end KeyMap

end DeployPlan
