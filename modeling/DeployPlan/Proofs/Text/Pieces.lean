import DeployPlan.Text.Blank
import Mathlib.Data.List.DropRight
import Mathlib.Data.String.Basic

/-!
# Pieces of texts

Nothing more is trimmed off a trimmed text, a text is split at a separator in one way only, and a
text that starts with another one is that one with a rest behind it.

## Main definitions

* `Text.Trimmed` — a text without blanks at its ends.
* `Text.Lists` — a text that lists pieces with separators between them.

## Main results

* `Text.trim_eq_self_iff` — nothing is trimmed off such texts, and off no others.
* `Text.trim_eq_empty_iff` — all is trimmed off blank texts.
* `Text.lists_iff` — a text lists the pieces that it is split into, and no others.
* `Text.split_append` — two texts with a separator between them are split one after the other.
* `Text.after?_eq_some_iff` — what follows a start.
* `Text.endsWith_iff` — texts that end with another one.
-/

set_option autoImplicit false

namespace DeployPlan

namespace Text

/-! ## Ends -/

/-- A text without blanks at its ends. -/
structure Trimmed (s : String) : Prop where
  head : ∀ c ∈ s.toList.head?, isBlank c = false
  last : ∀ c ∈ s.toList.getLast?, isBlank c = false

/-- Two such texts one after the other are such a text. -/
theorem Trimmed.append {a b : String} (ha : Trimmed a) (hb : Trimmed b) : Trimmed (a ++ b) := by
  constructor
  · intro c hc
    rw [String.toList_append, List.head?_append, Option.mem_def, Option.or_eq_some_iff] at hc
    rcases hc with hc | ⟨-, hc⟩
    · exact ha.head c hc
    · exact hb.head c hc
  · intro c hc
    rw [String.toList_append, List.getLast?_append, Option.mem_def, Option.or_eq_some_iff] at hc
    rcases hc with hc | ⟨-, hc⟩
    · exact hb.last c hc
    · exact ha.last c hc

/-- The first character that is left at the start of a list does not satisfy the predicate. -/
theorem not_of_mem_head?_dropWhile {p : Char → Bool} (cs : List Char) {c : Char}
    (h : c ∈ (cs.dropWhile p).head?) : p c = false := by
  have hnot := List.head?_dropWhile_not p cs
  rwa [Option.mem_def.mp h] at hnot

/-- No blanks are left at the ends of a text that is trimmed.

**Proof sketch.** The second half of trimming leaves a start of what the first half leaves, so that
both have the same first character unless nothing is left. -/
theorem trimmed_trim (s : String) : Trimmed (trim s) := by
  constructor
  · intro c hc
    rw [trim, String.toList_ofList] at hc
    have hprefix : trimBoth isBlank s.toList <+: s.toList.dropWhile isBlank :=
      List.rdropWhile_prefix isBlank (s.toList.dropWhile isBlank)
    obtain ⟨rest, hrest⟩ := hprefix
    refine not_of_mem_head?_dropWhile s.toList ?_
    rw [← hrest, List.head?_append, Option.mem_def.mp hc]
    rfl
  · intro c hc
    rw [trim, String.toList_ofList, trimBoth, List.getLast?_reverse] at hc
    exact not_of_mem_head?_dropWhile _ hc

/-- **Nothing is trimmed off a text** exactly if it has no blanks at its ends. -/
theorem trim_eq_self_iff {s : String} : trim s = s ↔ Trimmed s := by
  have hkeep : ∀ cs : List Char, (∀ c ∈ cs.head?, isBlank c = false) →
      cs.dropWhile isBlank = cs := by
    intro cs hcs
    cases cs with
    | nil => rfl
    | cons c cs => exact List.dropWhile_cons_of_neg (by simp [hcs c rfl])
  constructor
  · intro h
    rw [← h]
    exact trimmed_trim s
  · intro h
    have hlast : ∀ c ∈ s.toList.reverse.head?, isBlank c = false := by
      rw [List.head?_reverse]
      exact h.last
    rw [trim, trimBoth, hkeep _ h.head, hkeep _ hlast, List.reverse_reverse, String.ofList_toList]

/-- A text is trimmed once. -/
theorem trim_trim (s : String) : trim (trim s) = trim s := trim_eq_self_iff.mpr (trimmed_trim s)

/-- **All is trimmed off a text** exactly if all of it is blank. -/
theorem trim_eq_empty_iff {s : String} : trim s = "" ↔ ∀ c ∈ s.toList, isBlank c = true := by
  have htrim : trim s = "" ↔ (s.toList.dropWhile isBlank).rdropWhile isBlank = [] := by
    rw [trim, String.ofList_eq_empty_iff]
    rfl
  rw [htrim, List.rdropWhile_eq_nil_iff, ← List.dropWhile_eq_nil_iff (l := s.toList)]
  constructor
  · intro h
    cases hdrop : s.toList.dropWhile isBlank with
    | nil => rfl
    | cons c cs =>
      have hc : isBlank c = false := not_of_mem_head?_dropWhile s.toList (by simp [hdrop])
      simp [h c (by simp [hdrop])] at hc
  · intro h
    simp [h]

/-! ## Separators -/

/-- The pieces of a list between separators are those of the standard library. -/
theorem splitAt_eq_splitOn (sep : Char) (cs : List Char) : splitAt sep cs = cs.splitOn sep := by
  induction cs with
  | nil => rfl
  | cons c cs ih =>
    rw [splitAt, List.splitOn_cons_eq_if_modifyHead, ih]
    by_cases hc : c = sep
    · simp [hc]
    · rw [if_neg hc, if_neg (by simpa using hc)]
      cases hpieces : cs.splitOn sep with
      | nil => exact absurd hpieces (List.splitOn_ne_nil sep cs)
      | cons piece pieces => rfl

/-- The pieces of a text are those of its characters. -/
theorem split_eq (sep : Char) (s : String) :
    split sep s = (s.toList.splitOn sep).map String.ofList := by
  rw [split, splitAt_eq_splitOn]

/-- Two texts with a separator between them are split one after the other. -/
theorem split_append (sep : Char) (a b : String) :
    split sep (a ++ String.singleton sep ++ b) = split sep a ++ split sep b := by
  simp only [split_eq, String.toList_append, String.toList_singleton, List.append_assoc,
    List.singleton_append, List.splitOn_append_cons_self, List.map_append]

/-- A text that lists pieces: it has them one after another with separators between them, and there
are none in the pieces. -/
structure Lists (sep : Char) (s : String) (pieces : List String) : Prop where
  ne_nil : pieces ≠ []
  not_mem : ∀ piece ∈ pieces, sep ∉ piece.toList
  joined : s = join (String.singleton sep) pieces

/-- A piece of a list between separators has none. -/
theorem not_mem_of_mem_splitOn {sep : Char} {cs piece : List Char} (h : piece ∈ cs.splitOn sep) :
    sep ∉ piece := by
  induction cs generalizing piece with
  | nil =>
    rw [List.splitOn_nil, List.mem_singleton] at h
    simp [h]
  | cons c cs ih =>
    rw [List.splitOn_cons_eq_if_modifyHead] at h
    by_cases hc : c = sep
    · rw [if_pos (by simpa using hc)] at h
      rcases List.mem_cons.mp h with rfl | h
      · exact List.not_mem_nil
      · exact ih h
    · rw [if_neg (by simpa using hc)] at h
      cases hpieces : cs.splitOn sep with
      | nil => exact absurd hpieces (List.splitOn_ne_nil sep cs)
      | cons first pieces =>
        rw [hpieces, List.modifyHead_cons] at h
        have hfirst : sep ∉ first := ih (by simp [hpieces])
        rcases List.mem_cons.mp h with rfl | h
        · simp [hfirst, Ne.symm hc]
        · exact ih (by simp [hpieces, h])

/-- **A text lists the pieces that it is split into**, and no others. -/
theorem lists_iff {sep : Char} {s : String} {pieces : List String} :
    Lists sep s pieces ↔ split sep s = pieces := by
  constructor
  · rintro ⟨hne, hnot, rfl⟩
    have hpieces : ∀ cs ∈ pieces.map String.toList, sep ∉ cs := by simpa using hnot
    rw [split_eq, join, String.toList_intercalate, String.toList_singleton,
      List.splitOn_intercalate sep hpieces (by simpa using hne), List.map_map]
    simp [Function.comp_def]
  · rintro rfl
    refine ⟨?_, ?_, ?_⟩
    · simp [split_eq, List.splitOn_ne_nil]
    · intro piece hpiece
      rw [split_eq] at hpiece
      obtain ⟨cs, hcs, rfl⟩ := List.mem_map.mp hpiece
      rw [String.toList_ofList]
      exact not_mem_of_mem_splitOn hcs
    · apply String.toList_injective
      rw [join, String.toList_intercalate, String.toList_singleton, split_eq, List.map_map,
        String.toList_comp_ofList, List.map_id, List.intercalate_splitOn]

/-- A text without the separator is its only piece. -/
theorem lists_single {sep : Char} {s : String} (h : sep ∉ s.toList) : Lists sep s [s] where
  ne_nil := List.cons_ne_nil _ _
  not_mem := by simpa using h
  joined := rfl

/-! ## Starts -/

/-- **What follows a start** is the rest of the text. -/
theorem after?_eq_some_iff {start s rest : String} :
    after? start s = some rest ↔ s = start ++ rest := by
  have hlength : start.length = start.toList.length := String.length_toList.symm
  rw [after?, ← String.toList_inj, String.toList_append]
  constructor
  · intro h
    split at h
    · next hprefix =>
      obtain ⟨cs, hcs⟩ := List.isPrefixOf_iff_prefix.mp hprefix
      cases h
      rw [String.toList_ofList, ← hcs, hlength, List.drop_left]
    · cases h
  · intro h
    rw [if_pos (List.isPrefixOf_iff_prefix.mpr ⟨rest.toList, h.symm⟩), h, hlength,
      List.drop_left, String.ofList_toList]

/-- Behind a start comes what was put behind it. -/
@[simp]
theorem after?_append (start rest : String) : after? start (start ++ rest) = some rest :=
  after?_eq_some_iff.mpr rfl

/-- A text starts with another one if something follows that. -/
theorem startsWith_eq_isSome (start s : String) : startsWith start s = (after? start s).isSome := by
  rw [startsWith, after?]
  split <;> simp [*]

/-- A text starts with another one if it is that one with a rest behind it. -/
theorem startsWith_iff {start s : String} :
    startsWith start s = true ↔ ∃ rest, s = start ++ rest := by
  simp only [startsWith_eq_isSome, Option.isSome_iff_exists, after?_eq_some_iff]

/-- A text with something behind it is a start. -/
@[simp]
theorem startsWith_append (start rest : String) : startsWith start (start ++ rest) = true :=
  startsWith_iff.mpr ⟨rest, rfl⟩

/-- A text does not start with what differs from its own start before either ends. -/
theorem after?_eq_none_of_apart {start front : String} (h : ¬ start.toList <+: front.toList)
    (h' : ¬ front.toList <+: start.toList) (rest : String) :
    after? start (front ++ rest) = none := by
  rw [Option.eq_none_iff_forall_ne_some]
  intro cs hcs
  rw [after?_eq_some_iff] at hcs
  have hlist := congrArg String.toList hcs
  rw [String.toList_append, String.toList_append] at hlist
  rcases List.prefix_or_prefix_of_prefix (List.prefix_append start.toList cs.toList)
    (hlist ▸ List.prefix_append front.toList rest.toList) with hprefix | hprefix
  · exact h hprefix
  · exact h' hprefix

/-- So it does not count as a start of such a text. -/
theorem startsWith_eq_false_of_apart {start front : String} (h : ¬ start.toList <+: front.toList)
    (h' : ¬ front.toList <+: start.toList) (rest : String) :
    startsWith start (front ++ rest) = false := by
  rw [startsWith_eq_isSome, after?_eq_none_of_apart h h' rest]
  rfl

/-- A text ends with another one if its last characters are those. -/
theorem endsWith_iff {back s : String} : s.endsWith back = true ↔ back.toList <:+ s.toList := by
  rw [String.endsWith_eq_endsWith_toSlice, String.Slice.endsWith_string_iff, String.copy_toSlice]

end Text

end DeployPlan
