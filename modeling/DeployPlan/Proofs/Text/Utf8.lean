import Mathlib.Data.List.Lex
import Mathlib.Data.String.Basic
import Mathlib.Tactic.SplitIfs

/-!
# Texts and their bytes

A text is read back from its bytes, and texts are in the order of their bytes: they are compared
character by character, the first byte of the code of a character tells how many bytes follow, and
longer codes begin with greater bytes.

## Main results

* `Text.fromUTF8?_toByteArray`, `Text.toUTF8_of_fromUTF8?` — a text is read back from its bytes, and
  the bytes are had again from the text.
* `Text.utf8EncodeChar_append_lt` — the code of a character comes before those of later ones.
* `Text.lt_iff_bytes` — a text comes before another if and only if its bytes do.
-/

set_option autoImplicit false

namespace DeployPlan

namespace Text

/-- A text is read back from its bytes. -/
theorem fromUTF8?_toByteArray (text : String) :
    String.fromUTF8? text.toByteArray = some text := by
  rw [String.fromUTF8?, dif_pos text.isValidUTF8]
  rfl

/-- Bytes that are read as a text are those of the text. -/
theorem toUTF8_of_fromUTF8? {bytes : ByteArray} {text : String}
    (h : String.fromUTF8? bytes = some text) : text.toUTF8 = bytes := by
  rw [String.fromUTF8?] at h
  split at h
  · cases h
    rfl
  · cases h

/-- Bytes are read as a text exactly if they are valid. -/
theorem isSome_fromUTF8?_iff {bytes : ByteArray} :
    (String.fromUTF8? bytes).isSome = true ↔ bytes.IsValidUTF8 := by
  rw [String.fromUTF8?]
  split <;> simp [*]

/-! ## The order of texts -/

/-- Bytes are compared like the numbers that they are made of. -/
theorem byte_cons_lt_cons_iff {m n : Nat} (hm : m < 256) (hn : n < 256) {l l' : List UInt8} :
    UInt8.ofNat m :: l < UInt8.ofNat n :: l' ↔ m < n ∨ m = n ∧ l < l' := by
  rw [List.cons_lt_cons_iff, UInt8.lt_iff_toNat_lt, ← UInt8.toNat_inj, UInt8.toNat_ofNat',
    UInt8.toNat_ofNat', Nat.mod_eq_of_lt hm, Nat.mod_eq_of_lt hn]

/-- **The code of a character comes before those of later ones**, whatever follows.

**Proof sketch.** Both codes have one of four lengths.  If the lengths differ, so do the first
bytes.  Otherwise the bytes are the digits of the numbers of the characters to the base 64, and the
first digit that differs decides. -/
theorem utf8EncodeChar_append_lt {c d : Char} (h : c < d) (l l' : List UInt8) :
    String.utf8EncodeChar c ++ l < String.utf8EncodeChar d ++ l' := by
  have hval : c.val.toNat < d.val.toNat := h
  have hvalid : d.val.toNat < 0x110000 := by
    rcases d.valid with h | ⟨-, h⟩
    · exact Nat.lt_trans h (by decide)
    · exact h
  unfold String.utf8EncodeChar
  generalize c.val.toNat = m at *
  generalize d.val.toNat = n at *
  have hlead : ∀ k ≤ n, k / 262144 % 8 = k / 262144 := by omega
  have hfirst : m / 262144 < n / 262144 ∨ m / 262144 = n / 262144 ∧ m / 4096 ≤ n / 4096 := by omega
  have hsecond : m / 4096 < n / 4096 ∨ m / 4096 = n / 4096 ∧ m / 64 ≤ n / 64 := by omega
  have hthird : m / 64 < n / 64 ∨ m / 64 = n / 64 ∧ m % 64 < n % 64 := by omega
  dsimp only
  split_ifs
  all_goals simp (disch := omega) only [List.cons_append, byte_cons_lt_cons_iff, hlead]
  all_goals omega

/-- The bytes of a text are the codes of its characters in turn. -/
theorem toUTF8_toList (s : String) :
    s.toUTF8.data.toList = s.toList.flatMap String.utf8EncodeChar := by
  conv_lhs => rw [← String.ofList_toList (s := s)]
  exact List.toList_data_toByteArray

/-- Characters that come before others have codes that do. -/
theorem flatMap_utf8EncodeChar_lt {cs ds : List Char} (h : cs < ds) :
    cs.flatMap String.utf8EncodeChar < ds.flatMap String.utf8EncodeChar := by
  induction h with
  | @nil d ds =>
    obtain ⟨b, bs, hcode⟩ := List.exists_cons_of_ne_nil (String.utf8EncodeChar_ne_nil (c := d))
    rw [List.flatMap_nil, List.flatMap_cons, hcode]
    exact List.nil_lt_cons _ _
  | rel hlt => exact utf8EncodeChar_append_lt hlt _ _
  | cons _ ih => exact List.append_left_lt ih

/-- **A text comes before another if and only if its bytes do.** -/
theorem lt_iff_bytes (a b : String) :
    a < b ↔ a.toUTF8.data.toList < b.toUTF8.data.toList := by
  have hbytes : ∀ {a b : String}, a < b → a.toUTF8.data.toList < b.toUTF8.data.toList := by
    intro a b hlt
    rw [toUTF8_toList, toUTF8_toList]
    exact flatMap_utf8EncodeChar_lt hlt
  refine ⟨hbytes, fun h => ?_⟩
  rcases lt_trichotomy a b with hlt | rfl | hgt
  · exact hlt
  · exact absurd h (List.lt_irrefl _)
  · exact absurd (hbytes hgt) (List.lt_asymm h)

end Text

end DeployPlan
