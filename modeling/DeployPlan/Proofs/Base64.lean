import DeployPlan.Bytes.Base64
import Mathlib.Algebra.Group.Nat.Defs

/-!
# Bytes are read back from Base64

The letters of an encoding write the bits of the bytes, six in each letter, and the padding tells
how many of the last bits do not count.  Reading accepts exactly what encoding gives.

## Main definitions

* `Base64.alphabet` — the letters in the order of their numbers.
* `Base64.bits` — the bits of a number in a given width.
* `Base64.Writes` — letters and padding that write the bits of bytes.

## Main results

* `Base64.exists_writes` — an encoding writes the bits of the bytes.
* `Base64.decode?_eq_some_iff` — reading accepts the encoding of the bytes that it gives, and
  nothing else.
-/

set_option autoImplicit false

namespace DeployPlan

namespace Base64

/-! ## Letters -/

/-- The letters in the order of their numbers. -/
def alphabet : List Char :=
  "ABCDEFGHIJKLMNOPQRSTUVWXYZabcdefghijklmnopqrstuvwxyz0123456789+/".toList

/-- A number is written with its letter. -/
theorem getElem?_alphabet {n : Nat} (h : n < 64) : alphabet[n]? = some (letter n) := by
  have hall : ∀ n < 64, alphabet[n]? = some (letter n) := by decide +kernel
  exact hall n h

/-- A number is read back from its letter. -/
theorem value?_letter {n : Nat} (h : n < 64) : value? (letter n) = some n := by
  have hall : ∀ n < 64, value? (letter n) = some n := by decide +kernel
  exact hall n h

/-- A letter is none of the padding. -/
theorem letter_ne_pad {n : Nat} (h : n < 64) : letter n ≠ '=' := by
  intro hpad
  have hvalue := value?_letter h
  rw [hpad] at hvalue
  cases hvalue

/-- Characters beyond ASCII are no letters. -/
theorem value?_eq_none_of_le {c : Char} (h : 128 ≤ c.toNat) : value? c = none := by
  have hupper : ¬ ('A' ≤ c ∧ c ≤ 'Z') := fun hc => by
    have : c.toNat ≤ 90 := hc.2
    omega
  have hlower : ¬ ('a' ≤ c ∧ c ≤ 'z') := fun hc => by
    have : c.toNat ≤ 122 := hc.2
    omega
  have hdigit : ¬ ('0' ≤ c ∧ c ≤ '9') := fun hc => by
    have : c.toNat ≤ 57 := hc.2
    omega
  have hplus : c ≠ '+' := by
    rintro rfl
    exact absurd h (by decide)
  have hslash : c ≠ '/' := by
    rintro rfl
    exact absurd h (by decide)
  rw [value?, if_neg hupper, if_neg hlower, if_neg hdigit, if_neg hplus, if_neg hslash]

/-- **A letter is read as the number that it is the letter of**, and nothing else is read. -/
theorem value?_eq_some_iff {c : Char} {n : Nat} :
    value? c = some n ↔ n < 64 ∧ c = letter n := by
  constructor
  · intro h
    have hascii : ∀ k < 128, ∀ n ∈ value? (Char.ofNat k), n < 64 ∧ Char.ofNat k = letter n := by
      decide +kernel
    rcases Nat.lt_or_ge c.toNat 128 with hc | hc
    · have hletter := hascii c.toNat hc n
      rw [Char.ofNat_toNat] at hletter
      exact hletter h
    · rw [value?_eq_none_of_le hc] at h
      cases h
  · rintro ⟨h, rfl⟩
    exact value?_letter h

/-! ## Bits -/

/-- The bits of a number in a given width, the most significant first. -/
def bits : Nat → Nat → List Bool
  | 0, _ => []
  | width + 1, n => bits width (n / 2) ++ [n % 2 == 1]

/-- The bits of a number in two parts. -/
theorem bits_add (width low n : Nat) :
    bits (width + low) n = bits width (n / 2 ^ low) ++ bits low n := by
  induction low generalizing n with
  | zero => simp [bits]
  | succ low ih =>
    have hdiv : n / 2 / 2 ^ low = n / 2 ^ (low + 1) := by
      rw [Nat.div_div_eq_div_mul, Nat.pow_succ']
    rw [← Nat.add_assoc, bits, ih, hdiv, bits, List.append_assoc]

/-- Only what fits in the width has bits there. -/
theorem bits_mod (width n : Nat) : bits width (n % 2 ^ width) = bits width n := by
  induction width generalizing n with
  | zero => rfl
  | succ width ih =>
    have hhalf : n % 2 ^ (width + 1) / 2 = n / 2 % 2 ^ width := by
      rw [Nat.pow_succ', Nat.mod_mul_right_div_self]
    have hlow : n % 2 ^ (width + 1) % 2 = n % 2 :=
      Nat.mod_mod_of_dvd n ⟨2 ^ width, Nat.pow_succ'⟩
    rw [bits, bits, hhalf, hlow, ih]

/-- Two numbers in one have their bits one after the other. -/
theorem bits_mul_add (width low n : Nat) {m : Nat} (h : m < 2 ^ low) :
    bits (width + low) (n * 2 ^ low + m) = bits width n ++ bits low m := by
  have hdiv : (n * 2 ^ low + m) / 2 ^ low = n := by
    rw [Nat.mul_comm, Nat.mul_add_div (Nat.two_pow_pos low), Nat.div_eq_of_lt h, Nat.add_zero]
  have hmod : (n * 2 ^ low + m) % 2 ^ low = m := by
    rw [Nat.mul_comm, Nat.mul_add_mod, Nat.mod_eq_of_lt h]
  rw [bits_add, hdiv, ← bits_mod low, hmod]

/-- The bits of zero are zeros. -/
theorem bits_zero (width : Nat) : bits width 0 = List.replicate width false := by
  induction width with
  | zero => rfl
  | succ width ih =>
    rw [bits, Nat.zero_div, ih, List.replicate_succ']
    rfl

/-- Zeros behind a number double it. -/
theorem bits_mul (width low n : Nat) :
    bits (width + low) (n * 2 ^ low) = bits width n ++ List.replicate low false := by
  rw [← bits_zero, ← bits_mul_add width low n (Nat.two_pow_pos low), Nat.add_zero]

/-- The last six bits of a number. -/
theorem bits_sextet (width n : Nat) :
    bits (width + 6) n = bits width (n / 64) ++ bits 6 (n % 64) := by
  have hlow : bits 6 (n % 64) = bits 6 n := bits_mod 6 n
  rw [hlow]
  exact bits_add width 6 n

/-- A byte behind a number. -/
theorem bits_byte (width n : Nat) (b : UInt8) :
    bits (width + 8) (n * 256 + b.toNat) = bits width n ++ bits 8 b.toNat :=
  bits_mul_add width 8 n b.toNat_lt

/-! ## What an encoding writes -/

/-- The bits of bytes. -/
def bytesBits (bytes : List UInt8) : List Bool := bytes.flatMap fun b => bits 8 b.toNat

/-- Letters and padding that write the bits of bytes: six bits in each letter, padding up to a
multiple of four characters, and two more zeros for each character of it. -/
structure Writes (cs : List Char) (bytes : List UInt8) (ns : List Nat) (pads : Nat) : Prop where
  letters : cs = ns.map (fun n => alphabet.getD n '=') ++ List.replicate pads '='
  inAlphabet : ∀ n ∈ ns, n < alphabet.length
  pads_le : pads ≤ 2
  full : 4 ∣ cs.length
  bits_eq : ns.flatMap (bits 6) = bytesBits bytes ++ List.replicate (2 * pads) false

/-- Numbers are written with their letters. -/
theorem map_getD_alphabet {ns : List Nat} (h : ∀ n ∈ ns, n < 64) :
    ns.map (fun n => alphabet.getD n '=') = ns.map letter := by
  apply List.map_congr_left
  intro n hn
  rw [List.getD_eq_getElem?_getD, getElem?_alphabet (h n hn), Option.getD_some]

/-- Three bytes have the bits of four letters. -/
theorem bits_group {a b c : UInt8} {n : Nat}
    (hn : n = (a.toNat * 256 + b.toNat) * 256 + c.toNat) :
    bits 6 (n / 262144) ++ (bits 6 (n / 4096 % 64) ++ (bits 6 (n / 64 % 64) ++ bits 6 (n % 64))) =
      bits 8 a.toNat ++ (bits 8 b.toNat ++ bits 8 c.toNat) := by
  have hdiv : n / 4096 = n / 64 / 64 := (Nat.div_div_eq_div_mul n 64 64).symm
  have hdiv' : n / 262144 = n / 64 / 64 / 64 := by
    rw [Nat.div_div_eq_div_mul, Nat.div_div_eq_div_mul]
  calc
    _ = bits 24 n := by
      rw [hdiv, hdiv', ← List.append_assoc, ← List.append_assoc, ← bits_sextet 6,
        ← bits_sextet 12, ← bits_sextet 18]
    _ = bits 16 (a.toNat * 256 + b.toNat) ++ bits 8 c.toNat := by
      rw [hn]
      exact bits_byte 16 _ c
    _ = bits 8 a.toNat ++ (bits 8 b.toNat ++ bits 8 c.toNat) := by
      rw [bits_byte 8 a.toNat b, List.append_assoc]

/-- **An encoding writes the bits of the bytes.**

**Proof sketch.** Induction on the groups of three bytes.  Three bytes make a number of twenty-four
bits, which has four groups of six; so do one or two bytes with zeros behind them, up to the next
multiple of six. -/
theorem exists_writes (bytes : List UInt8) :
    ∃ ns pads, Writes (encodeChars bytes) bytes ns pads := by
  fun_induction encodeChars bytes with
  | case1 => exact ⟨[], 0, rfl, by simp, by decide, by decide, rfl⟩
  | case2 a n =>
    have ha : a.toNat < 256 := a.toNat_lt
    have hlt : ∀ m ∈ [n / 64, n % 64], m < 64 := by
      intro m hm
      simp only [List.mem_cons, List.not_mem_nil, or_false] at hm
      omega
    have hbits : bits 6 (n / 64) ++ bits 6 (n % 64) =
        bits 8 a.toNat ++ List.replicate 4 false := calc
      _ = bits 12 n := (bits_sextet 6 n).symm
      _ = bits 8 a.toNat ++ List.replicate 4 false := bits_mul 8 4 a.toNat
    refine ⟨_, 2, ?_, hlt, by decide, ⟨1, rfl⟩, ?_⟩
    · rw [map_getD_alphabet hlt]
      rfl
    · simpa [bytesBits] using hbits
  | case3 a b n =>
    have ha : a.toNat < 256 := a.toNat_lt
    have hb : b.toNat < 256 := b.toNat_lt
    have hlt : ∀ m ∈ [n / 4096, n / 64 % 64, n % 64], m < 64 := by
      intro m hm
      simp only [List.mem_cons, List.not_mem_nil, or_false] at hm
      omega
    have hbits : bits 6 (n / 4096) ++ (bits 6 (n / 64 % 64) ++ bits 6 (n % 64)) =
        bits 8 a.toNat ++ (bits 8 b.toNat ++ List.replicate 2 false) := calc
      _ = bits 18 n := by
        have hdiv : n / 4096 = n / 64 / 64 := (Nat.div_div_eq_div_mul n 64 64).symm
        rw [hdiv, ← List.append_assoc, ← bits_sextet 6, ← bits_sextet 12]
      _ = bits 16 (a.toNat * 256 + b.toNat) ++ List.replicate 2 false := bits_mul 16 2 _
      _ = bits 8 a.toNat ++ (bits 8 b.toNat ++ List.replicate 2 false) := by
        rw [bits_byte 8 a.toNat b, List.append_assoc]
    refine ⟨_, 1, ?_, hlt, by decide, ⟨1, rfl⟩, ?_⟩
    · rw [map_getD_alphabet hlt]
      rfl
    · simpa [bytesBits] using hbits
  | case4 a b c rest n ih =>
    obtain ⟨ns, pads, hletters, hns, hpads, hfull, hbits⟩ := ih
    have ha : a.toNat < 256 := a.toNat_lt
    have hb : b.toNat < 256 := b.toNat_lt
    have hc : c.toNat < 256 := c.toNat_lt
    have hlt : ∀ m ∈ [n / 262144, n / 4096 % 64, n / 64 % 64, n % 64], m < 64 := by
      intro m hm
      simp only [List.mem_cons, List.not_mem_nil, or_false] at hm
      omega
    refine ⟨[n / 262144, n / 4096 % 64, n / 64 % 64, n % 64] ++ ns, pads, ?_, ?_, hpads, ?_, ?_⟩
    · rw [hletters, List.map_append, map_getD_alphabet hlt]
      rfl
    · intro m hm
      rcases List.mem_append.mp hm with hm | hm
      · exact hlt m hm
      · exact hns m hm
    · simp only [List.length_cons]
      omega
    · have hgroup := bits_group (a := a) (b := b) (c := c) (n := n) rfl
      rw [List.flatMap_append, hbits]
      simpa [bytesBits] using
        congrArg (· ++ (bytesBits rest ++ List.replicate (2 * pads) false)) hgroup

/-! ## What is read -/

/-- A group of four letters is read as three bytes. -/
theorem decodeChars?_group {n : Nat} (h : n < 16777216) (rest : List Char) :
    decodeChars? (letter (n / 262144) :: letter (n / 4096 % 64) :: letter (n / 64 % 64) ::
        letter (n % 64) :: rest) =
      (decodeChars? rest).map fun bytes =>
        UInt8.ofNat (n / 65536) :: UInt8.ofNat (n / 256 % 256) :: UInt8.ofNat (n % 256) ::
          bytes := by
  have hpad : letter (n % 64) ≠ '=' := letter_ne_pad (by omega)
  have hn : ((n / 262144 * 64 + n / 4096 % 64) * 64 + n / 64 % 64) * 64 + n % 64 = n := by omega
  rw [decodeChars?.eq_4 _ _ _ _ _ (by simp [hpad]) (by simp [hpad]), value?_letter (by omega),
    value?_letter (by omega), value?_letter (by omega), value?_letter (by omega)]
  simp only [Option.bind_eq_bind, Option.bind_some, hn]
  cases decodeChars? rest <;> rfl

/-- Three letters at the end are read as two bytes. -/
theorem decodeChars?_three {n : Nat} (h : n < 262144) :
    decodeChars? [letter (n / 4096), letter (n / 64 % 64), letter (n % 64), '='] =
      if n % 4 = 0 then some [UInt8.ofNat (n / 1024), UInt8.ofNat (n / 4 % 256)] else none := by
  have hpad : letter (n % 64) ≠ '=' := letter_ne_pad (by omega)
  have hn : (n / 4096 * 64 + n / 64 % 64) * 64 + n % 64 = n := by omega
  rw [decodeChars?.eq_3 _ _ _ hpad, value?_letter (by omega), value?_letter (by omega),
    value?_letter (by omega)]
  simp only [Option.bind_eq_bind, Option.bind_some, hn]
  rfl

/-- Two letters at the end are read as one byte. -/
theorem decodeChars?_two {n : Nat} (h : n < 4096) :
    decodeChars? [letter (n / 64), letter (n % 64), '=', '='] =
      if n % 16 = 0 then some [UInt8.ofNat (n / 16)] else none := by
  have hn : n / 64 * 64 + n % 64 = n := by omega
  rw [decodeChars?, value?_letter (by omega), value?_letter (by omega)]
  simp only [Option.bind_eq_bind, Option.bind_some, hn]
  rfl

/-- **Bytes are read back from their encoding.** -/
theorem decodeChars?_encodeChars (bytes : List UInt8) :
    decodeChars? (encodeChars bytes) = some bytes := by
  fun_induction encodeChars bytes with
  | case1 => rfl
  | case2 a n =>
    have ha : a.toNat < 256 := a.toNat_lt
    have hbyte : n / 16 = a.toNat := by omega
    rw [decodeChars?_two (by omega), if_pos (by omega), hbyte, UInt8.ofNat_toNat]
  | case3 a b n =>
    have ha : a.toNat < 256 := a.toNat_lt
    have hb : b.toNat < 256 := b.toNat_lt
    have hfirst : n / 1024 = a.toNat := by omega
    have hsecond : n / 4 % 256 = b.toNat := by omega
    rw [decodeChars?_three (by omega), if_pos (by omega), hfirst, hsecond, UInt8.ofNat_toNat,
      UInt8.ofNat_toNat]
  | case4 a b c rest n ih =>
    have ha : a.toNat < 256 := a.toNat_lt
    have hb : b.toNat < 256 := b.toNat_lt
    have hc : c.toNat < 256 := c.toNat_lt
    have hfirst : n / 65536 = a.toNat := by omega
    have hsecond : n / 256 % 256 = b.toNat := by omega
    have hthird : n % 256 = c.toNat := by omega
    rw [decodeChars?_group (by omega), ih, hfirst, hsecond, hthird, UInt8.ofNat_toNat,
      UInt8.ofNat_toNat, UInt8.ofNat_toNat, Option.map_some]

/-- The encoding of three bytes of a number. -/
theorem encodeChars_group {n : Nat} (h : n < 16777216) (bytes : List UInt8) :
    encodeChars (UInt8.ofNat (n / 65536) :: UInt8.ofNat (n / 256 % 256) :: UInt8.ofNat (n % 256) ::
        bytes) =
      letter (n / 262144) :: letter (n / 4096 % 64) :: letter (n / 64 % 64) :: letter (n % 64) ::
        encodeChars bytes := by
  have hn : ((UInt8.ofNat (n / 65536)).toNat * 256 + (UInt8.ofNat (n / 256 % 256)).toNat) * 256 +
      (UInt8.ofNat (n % 256)).toNat = n := by
    simp only [UInt8.toNat_ofNat']
    omega
  rw [encodeChars, hn]

/-- The encoding of two bytes of a number with two zeros behind it. -/
theorem encodeChars_three {n : Nat} (h : n < 262144) (hzeros : n % 4 = 0) :
    encodeChars [UInt8.ofNat (n / 1024), UInt8.ofNat (n / 4 % 256)] =
      [letter (n / 4096), letter (n / 64 % 64), letter (n % 64), '='] := by
  have hn : ((UInt8.ofNat (n / 1024)).toNat * 256 + (UInt8.ofNat (n / 4 % 256)).toNat) * 4 = n := by
    simp only [UInt8.toNat_ofNat']
    omega
  rw [encodeChars, hn]

/-- The encoding of one byte of a number with four zeros behind it. -/
theorem encodeChars_two {n : Nat} (h : n < 4096) (hzeros : n % 16 = 0) :
    encodeChars [UInt8.ofNat (n / 16)] = [letter (n / 64), letter (n % 64), '=', '='] := by
  have hn : (UInt8.ofNat (n / 16)).toNat * 16 = n := by
    simp only [UInt8.toNat_ofNat']
    omega
  rw [encodeChars, hn]

/-- **What is read is an encoding.**

**Proof sketch.** Induction on the groups of four characters.  A group is read if its letters are,
which are then those of the number that the group writes, and if the bits beyond the last byte are
zeros. -/
theorem eq_encodeChars_of_decodeChars? {cs : List Char} {bytes : List UInt8}
    (h : decodeChars? cs = some bytes) : cs = encodeChars bytes := by
  fun_induction decodeChars? cs generalizing bytes with
  | case1 =>
    cases h
    rfl
  | case2 a b =>
    simp only [Option.bind_eq_bind, Option.bind_eq_some_iff, value?_eq_some_iff] at h
    obtain ⟨x, ⟨hx, rfl⟩, y, ⟨hy, rfl⟩, h⟩ := h
    split at h
    · next hzeros =>
      cases h
      have hfirst : (x * 64 + y) / 64 = x := by omega
      have hsecond : (x * 64 + y) % 64 = y := by omega
      rw [encodeChars_two (by omega) hzeros, hfirst, hsecond]
    · cases h
  | case3 a b c =>
    simp only [Option.bind_eq_bind, Option.bind_eq_some_iff, value?_eq_some_iff] at h
    obtain ⟨x, ⟨hx, rfl⟩, y, ⟨hy, rfl⟩, z, ⟨hz, rfl⟩, h⟩ := h
    split at h
    · next hzeros =>
      cases h
      have hfirst : ((x * 64 + y) * 64 + z) / 4096 = x := by omega
      have hsecond : ((x * 64 + y) * 64 + z) / 64 % 64 = y := by omega
      have hthird : ((x * 64 + y) * 64 + z) % 64 = z := by omega
      rw [encodeChars_three (by omega) hzeros, hfirst, hsecond, hthird]
    · cases h
  | case4 a b c d rest _ _ ih =>
    simp only [Option.bind_eq_bind, Option.bind_eq_some_iff, value?_eq_some_iff] at h
    obtain ⟨x, ⟨hx, rfl⟩, y, ⟨hy, rfl⟩, z, ⟨hz, rfl⟩, w, ⟨hw, rfl⟩, more, hmore, h⟩ := h
    cases h
    have hfirst : (((x * 64 + y) * 64 + z) * 64 + w) / 262144 = x := by omega
    have hsecond : (((x * 64 + y) * 64 + z) * 64 + w) / 4096 % 64 = y := by omega
    have hthird : (((x * 64 + y) * 64 + z) * 64 + w) / 64 % 64 = z := by omega
    have hfourth : (((x * 64 + y) * 64 + z) * 64 + w) % 64 = w := by omega
    rw [encodeChars_group (by omega), hfirst, hsecond, hthird, hfourth, ih hmore]
  | case5 => cases h

/-- **Reading accepts the encoding of the bytes that it gives**, and nothing else. -/
theorem decode?_eq_some_iff {s : String} {bytes : List UInt8} :
    decode? s = some bytes ↔ s = encode bytes := by
  rw [decode?, encode]
  constructor
  · intro h
    rw [← eq_encodeChars_of_decodeChars? h, String.ofList_toList]
  · rintro rfl
    rw [String.toList_ofList, decodeChars?_encodeChars]

end Base64

end DeployPlan
