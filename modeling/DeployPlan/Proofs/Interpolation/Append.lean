import DeployPlan.Proofs.Interpolation

/-!
# References in two texts together

A reference may look far ahead for its closing brace, so what is put behind a text could change
what the text becomes.  It does not if it is empty or starts with a character that no reference
holds: a reference that is open at the end of a text is not completed by such a continuation, and
one that ends there does not go on.

## Main definitions

* `Interpolation.Apart` — texts that no reference in front of them reaches into.

## Main results

* `Interpolation.Apart.begins_append_iff` — the references at a place are the same with and without
  such a text behind.
* `Interpolation.Rewrites.append` — two texts are rewritten one by one.
* `Interpolation.expand_append` — what two texts become together.
-/

set_option autoImplicit false

namespace DeployPlan

namespace Interpolation

/-- A text that no reference in front of it reaches into: it is empty, or its first character is
neither one of a name nor a brace. -/
def Apart (cs : List Char) : Prop := ∀ c ∈ cs.head?, ¬ NamePart c ∧ c ≠ '{' ∧ c ≠ '}'

/-- The first character of such a text. -/
theorem Apart.of_cons {c : Char} {cs : List Char} (h : Apart (c :: cs)) :
    ¬ NamePart c ∧ c ≠ '{' ∧ c ≠ '}' := h c rfl

/-- A dollar sign and what follows is such a text. -/
theorem apart_dollar (cs : List Char) : Apart ('$' :: cs) := by
  intro c hc
  cases hc
  refine ⟨fun hpart => ?_, by decide, by decide⟩
  exact absurd (isNamePart_iff.mpr hpart) (by decide)

namespace Apart

variable {after behind name : List Char}

/-- A reference goes on as it did with such a text behind what follows it. -/
theorem begins_append (hbehind : Apart behind) {rest : List Char} (h : Begins after name rest) :
    Begins (after ++ behind) name (rest ++ behind) := by
  cases h with
  | braced h =>
    rw [List.cons_append, List.append_assoc, List.cons_append]
    exact .braced h
  | bare h hrest =>
    rw [List.append_assoc]
    refine .bare h fun c hc => ?_
    cases rest with
    | nil => exact (hbehind c hc).1
    | cons d rest => exact hrest c hc

/-- A name that starts in front of such a text ends there. -/
theorem of_name_append (hbehind : Apart behind) {rest : List Char} (hname : Name name)
    (h : after ++ behind = name ++ rest) :
    ∃ rest', after = name ++ rest' ∧ rest = rest' ++ behind := by
  obtain ⟨held, rfl, hheld⟩ | ⟨held, rfl, hheld⟩ := List.append_eq_append_iff.mp h
  · cases held with
    | nil => exact ⟨[], by rw [List.append_nil, List.append_nil], hheld.symm⟩
    | cons d held =>
      -- the text behind would start within the name
      rw [List.cons_append] at hheld
      subst hheld
      refine absurd (hname.forall_part d ?_) hbehind.of_cons.1
      exact List.mem_append_right after List.mem_cons_self
  · exact ⟨held, rfl, hheld⟩

/-- So do braces around it. -/
theorem of_braces_append (hbehind : Apart behind) {rest : List Char} (hname : Name name)
    (h : after ++ behind = '{' :: (name ++ '}' :: rest)) :
    ∃ rest', after = '{' :: (name ++ '}' :: rest') ∧ rest = rest' ++ behind := by
  cases after with
  | nil =>
    rw [List.nil_append] at h
    subst h
    exact absurd rfl hbehind.of_cons.2.1
  | cons c after =>
    obtain ⟨hc, hafter⟩ := List.cons.inj h
    subst hc
    obtain ⟨closed, rfl, hclosed⟩ := hbehind.of_name_append hname hafter
    cases closed with
    | nil =>
      rw [List.nil_append] at hclosed
      subst hclosed
      exact absurd rfl hbehind.of_cons.2.2
    | cons d rest' =>
      obtain ⟨rfl, hrest⟩ := List.cons.inj hclosed
      exact ⟨rest', rfl, hrest⟩

/-- **The references at a place** are the same with and without such a text behind.

**Proof sketch.** The text behind starts neither within the name of a reference, whose characters
are all characters of names, nor with its closing brace. -/
theorem begins_append_iff (hbehind : Apart behind) {rest : List Char} :
    Begins (after ++ behind) name rest ↔
      ∃ rest', Begins after name rest' ∧ rest = rest' ++ behind := by
  constructor
  · generalize hwhole : after ++ behind = whole
    rintro (⟨h⟩ | ⟨h, hrest⟩)
    · obtain ⟨rest', rfl, rfl⟩ := hbehind.of_braces_append h hwhole
      exact ⟨rest', .braced h, rfl⟩
    · obtain ⟨rest', rfl, rfl⟩ := hbehind.of_name_append h hwhole
      refine ⟨rest', .bare h fun c hc => ?_, rfl⟩
      exact hrest c (by rw [List.head?_append, Option.mem_def.mp hc]; rfl)
  · rintro ⟨rest', h, rfl⟩
    exact hbehind.begins_append h

end Apart

/-- **Two texts are rewritten one by one**, if no reference reaches from the first into the second.

**Proof sketch.** Induction on how the first is rewritten: a reference there is one in both texts
together, with the second text behind what follows it, and a dollar sign that starts no reference
does not start one by what is behind. -/
theorem Rewrites.append {get? : String → Option String} {l l' r r' : List Char}
    (hl : Rewrites get? l l') (hr : Rewrites get? r r') (h : Apart r) :
    Rewrites get? (l ++ r) (l' ++ r') := by
  induction hl with
  | nil => exact hr
  | reference hbegins _ ih =>
    rw [List.cons_append, List.append_assoc]
    exact .reference (h.begins_append hbegins) ih
  | dollar hnone _ ih =>
    refine .dollar (fun name rest hbegins => ?_) ih
    obtain ⟨rest', hbegins, -⟩ := h.begins_append_iff.mp hbegins
    exact hnone name rest' hbegins
  | other hc _ ih => exact .other hc ih

/-- **What two texts become together** is what they become one by one, if the second is empty or
starts with a character that is neither one of a name nor a brace; so a text can be cut before any
of its dollar signs, even within braces that are not closed.

**Proof sketch.** What both become one by one is what the grammar of references makes of them
together (`Rewrites.append`), and there is only one such text (`rewrites_iff`). -/
theorem expand_append (vars : Variables) (a b : String) :
    (Apart b.toList → expand vars (a ++ b) = expand vars a ++ expand vars b) ∧
      expand vars (a ++ ("$" ++ b)) = expand vars a ++ expand vars ("$" ++ b) := by
  have happend : ∀ b : String, Apart b.toList →
      expand vars (a ++ b) = expand vars a ++ expand vars b := by
    intro b hb
    have hboth := ((rewrites_iff vars a.toList _).mpr rfl).append
      ((rewrites_iff vars b.toList _).mpr rfl) hb
    rw [← String.toList_append, rewrites_iff] at hboth
    have hexpand : ∀ s, expand vars s = String.ofList (expandChars vars s.toList) := fun _ => rfl
    rw [hexpand, ← hboth, String.ofList_append]
    rfl
  refine ⟨happend b, happend ("$" ++ b) ?_⟩
  rw [String.toList_append]
  exact apart_dollar b.toList

/-- The braces that are open at the end of the first text are closed in the second, behind a
reference of its own. -/
theorem expand_append_openBraces :
    Apart "$ZONE\x7d-$".toList ∧
    let vars : Variables := { own := KeyMap.ofList [("REGION", "eu"), ("ZONE", "1")] }
    expand vars ("$REGION/$\x7bREGION" ++ "$ZONE\x7d-$") = "eu/$\x7bREGION" ++ "1\x7d-$" := by
  have hapart : Apart "$ZONE\x7d-$".toList := apart_dollar _
  refine ⟨hapart, ?_⟩
  intro vars
  rw [(expand_append vars "$REGION/$\x7bREGION" "$ZONE\x7d-$").1 hapart]
  decide +kernel

end Interpolation

end DeployPlan
