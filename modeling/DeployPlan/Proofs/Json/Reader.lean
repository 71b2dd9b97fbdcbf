import DeployPlan.Json.Reader
import Mathlib.Data.List.TakeWhile

/-!
# What is read from JSON texts

A text in a JSON text stands between quotes, and an escape is longer than the character that it
stands for.  So what is read is shorter than what it is read from, and no text is read as itself.

## Main results

* `Json.text?_lt`, `Json.value?_lt` — a text is shorter than its written form.
* `Json.parse?_ne_self` — no text is read as itself.
-/

set_option autoImplicit false

namespace DeployPlan

namespace Json

/-! ## Texts -/

/-- Four digits are taken from a text. -/
theorem hex4?_lt {cs rest : List Char} {n : Nat} (h : hex4? cs = some (n, rest)) :
    rest.length < cs.length := by
  rw [hex4?.eq_def] at h
  split at h
  · obtain ⟨m, -, heq⟩ := Option.map_eq_some_iff.mp h
    cases heq
    simp only [List.length_cons]
    omega
  · cases h

/-- A `u` escape, of one half or of two, is taken from a text. -/
theorem unicodeEscape?_lt {cs rest : List Char} {c : Char}
    (h : unicodeEscape? cs = some (c, rest)) : rest.length < cs.length := by
  rw [unicodeEscape?] at h
  obtain ⟨⟨n, behind⟩, hfirst, h⟩ := Option.bind_eq_some_iff.mp h
  have hlt := hex4?_lt hfirst
  dsimp only at h
  split at h
  · split at h
    · obtain ⟨⟨m, behind'⟩, hsecond, h⟩ := Option.bind_eq_some_iff.mp h
      have hlt' := hex4?_lt hsecond
      dsimp only at h
      split at h
      · obtain ⟨-, rfl⟩ := Prod.mk.inj (Option.some.inj h)
        simp only [List.length_cons] at hlt
        omega
      · cases h
    · cases h
  · split at h
    · cases h
    · cases h
      exact hlt

/-- So is any other escape. -/
theorem escape?_lt {cs rest : List Char} {c : Char} (h : escape? cs = some (c, rest)) :
    rest.length < cs.length := by
  unfold escape? at h
  split at h
  · have hlt := unicodeEscape?_lt h
    rw [List.length_cons]
    omega
  · rename_i behind _
    have hrest : rest = behind := by
      split at h <;> cases h <;> rfl
    rw [hrest, List.length_cons]
    omega
  · cases h

/-- **A text is shorter than its written form**, of which the closing quote is taken too.

**Proof sketch.** Induction on the steps: each takes a character and adds one to what was read, and
an escape takes more. -/
theorem text?_lt {fuel : Nat} {acc cs rest : List Char} {s : String}
    (h : text? fuel acc cs = some (s, rest)) :
    s.length + rest.length < acc.length + cs.length := by
  induction fuel generalizing acc cs with
  | zero => cases h
  | succ fuel ih =>
    rw [text?.eq_def] at h
    dsimp only at h
    split at h
    case h_1 => cases h
    case h_2 =>
      cases h
      simp
    case h_3 =>
      split at h
      · rename_i c behind hescape
        have hlt := escape?_lt hescape
        have hmore := ih h
        simp only [List.length_cons] at hmore ⊢
        omega
      · cases h
    case h_4 =>
      split at h
      · cases h
      · have hmore := ih h
        simp only [List.length_cons] at hmore ⊢
        omega

/-! ## Values -/

/-- What holds of all that a next step may give holds of what two steps give. -/
theorem forall_mem_bind {α β : Type} {o : Option α} {next : α → Option β} {P : β → Prop}
    (h : ∀ a, ∀ b ∈ next a, P b) : ∀ b ∈ o >>= next, P b := by
  intro b hb
  obtain ⟨a, -, hb⟩ := Option.bind_eq_some_iff.mp hb
  exact h a b hb

/-- What holds of a value holds of all that giving it gives. -/
theorem forall_mem_pure {β : Type} {b : β} {P : β → Prop} (h : P b) :
    ∀ b' ∈ (pure b : Option β), P b' := by
  intro b' hb
  cases hb
  exact h

/-- What is read as a number is no text. -/
theorem Number.parse?_gives_number (cs : List Char) :
    ∀ r ∈ Number.parse? cs, ∀ s, r.1 ≠ .str s := by
  unfold Number.parse?
  split
  extract_lets whole rest withFraction checked
  have hfraction : ∀ x, ∀ r ∈ withFraction x, ∀ s, r.1 ≠ .str s := by
    rintro ⟨fraction, rest⟩
    unfold withFraction
    dsimp -zeta only
    extract_lets withExponent
    have hexponent : ∀ x, ∀ r ∈ withExponent x, ∀ s, r.1 ≠ .str s := by
      rintro ⟨exponent, rest⟩
      refine forall_mem_bind fun n => ?_
      extract_lets exact
      split
      · exact forall_mem_pure nofun
      · split
        · exact forall_mem_pure nofun
        · exact forall_mem_bind fun y => forall_mem_pure nofun
    split
    · split <;> exact forall_mem_bind hexponent
    · exact forall_mem_bind hexponent
  have hchecked : ∀ u, ∀ r ∈ checked u, ∀ s, r.1 ≠ .str s := by
    intro u
    unfold checked
    clear_value rest
    split
    · extract_lets digits
      split <;> exact forall_mem_bind hfraction
    · exact forall_mem_bind hfraction
  split
  · exact forall_mem_bind hchecked
  · exact hchecked ()

/-- A value that is a text is shorter than what it is read from. -/
theorem value?_lt {fuel depth : Nat} {cs rest : List Char} {s : String}
    (h : value? fuel depth cs = some (.str s, rest)) : s.length < cs.length := by
  have hskip : (skipSpace cs).length ≤ cs.length := List.length_dropWhile_le _ _
  cases fuel with
  | zero =>
    rw [value?] at h
    cases h
  | succ fuel =>
    rw [value?] at h
    split at h
    case h_1 | h_2 | h_3 => cases h
    case h_4 behind heq =>
      obtain ⟨⟨t, behind'⟩, htext, hpair⟩ := Option.map_eq_some_iff.mp h
      cases hpair
      have hlt := text?_lt htext
      rw [heq] at hskip
      simp only [List.length_cons, List.length_nil] at hlt hskip
      omega
    case h_5 | h_6 =>
      -- an array or an object
      split at h
      · cases h
      · split at h
        · cases h
        · obtain ⟨_, -, hpair⟩ := Option.map_eq_some_iff.mp h
          cases hpair
    case h_7 => exact absurd rfl (Number.parse?_gives_number _ _ h s)

/-- **No text is read as itself.** -/
theorem parse?_ne_self (s : String) : parse? s ≠ some (.str s) := by
  intro h
  rw [parse?] at h
  split at h
  case h_1 v rest hvalue =>
    split at h
    · cases h
      have hlt := value?_lt hvalue
      rw [String.length_toList] at hlt
      exact Nat.lt_irrefl _ hlt
    · cases h
  case h_2 => cases h

end Json

end DeployPlan
