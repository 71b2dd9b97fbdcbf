import DeployPlan.Interpolation
import Mathlib.Algebra.GroupWithZero.Nat
import Mathlib.Data.List.TakeWhile

/-!
# References in texts

Texts are rewritten from left to right.  This module says what that means twice: by the grammar of
references, and by a scan that knows of a text only offsets in bytes, at which it cuts what is left
of the text.  Such a cut fails within a character.

## Main definitions

* `Interpolation.cut?` — a text cut at an offset in bytes, unless that is within a character.
* `Interpolation.Scan`, `Scan.step?`, `Scan.run?` — the scan of a text from one dollar sign to the
  next.
* `Interpolation.Name`, `Interpolation.Begins` — names, and references behind a dollar sign.
* `Interpolation.Rewrites` — what a text becomes, by its references from left to right.

## Main results

* `Interpolation.isSome_cut?_iff` — a text is cut where it has a boundary of characters.
* `Interpolation.Scan.step?_eq` — no step cuts within a character; each leaves less of the text, and
  what the text becomes is the same after it.
* `Interpolation.begins_iff` — the references are those of the grammar.
* `Interpolation.run?_eq_and_rewrites_iff` — the scan ends, and gives what the grammar says.
-/

set_option autoImplicit false

namespace DeployPlan

namespace Interpolation

/-! ## Cuts at offsets in bytes -/

/-- The number of bytes of characters. -/
def byteLength (cs : List Char) : Nat := (cs.map Char.utf8Size).sum

/-- No characters have no bytes. -/
@[simp]
theorem byteLength_nil : byteLength [] = 0 := rfl

/-- A character has its bytes, and the others theirs. -/
@[simp]
theorem byteLength_cons (c : Char) (cs : List Char) :
    byteLength (c :: cs) = c.utf8Size + byteLength cs := List.sum_cons

/-- That is the length of the text in bytes. -/
theorem byteLength_eq_utf8ByteSize (cs : List Char) :
    byteLength cs = (String.ofList cs).utf8ByteSize := by
  induction cs with
  | nil => rfl
  | cons c cs ih =>
    rw [byteLength_cons, ih, String.ofList_cons, String.utf8ByteSize_append,
      String.utf8ByteSize_singleton]

/-- The bytes of characters one after the other are added up. -/
@[simp]
theorem byteLength_append (l r : List Char) :
    byteLength (l ++ r) = byteLength l + byteLength r := by
  rw [byteLength, List.map_append, List.sum_append]
  rfl

/-- Only the empty text has no bytes. -/
theorem byteLength_eq_zero_iff {cs : List Char} : byteLength cs = 0 ↔ cs = [] := by
  cases cs with
  | nil => simp
  | cons c cs => simp [Nat.ne_of_gt c.utf8Size_pos]

/-- The two parts of a text that is cut at an offset in bytes, unless that is within a character or
behind the end. -/
def cut? : Nat → List Char → Option (List Char × List Char)
  | 0, cs => some ([], cs)
  | _ + 1, [] => none
  | n + 1, c :: cs =>
    if c.utf8Size ≤ n + 1 then (cut? (n + 1 - c.utf8Size) cs).map fun (l, r) => (c :: l, r)
    else none

/-- A text is cut between two parts of it. -/
@[simp]
theorem cut?_byteLength (l r : List Char) : cut? (byteLength l) (l ++ r) = some (l, r) := by
  induction l with
  | nil => rw [byteLength_nil, List.nil_append, cut?.eq_def]
  | cons c l ih =>
    obtain ⟨n, hn⟩ := Nat.exists_eq_succ_of_ne_zero (Nat.ne_of_gt c.utf8Size_pos)
    have hsize : byteLength (c :: l) = n + byteLength l + 1 := by rw [byteLength_cons]; omega
    have hrest : n + byteLength l + 1 - c.utf8Size = byteLength l := by omega
    rw [hsize, List.cons_append, cut?, if_pos (by omega), hrest, ih]
    rfl

/-- The parts make up the text, and the first one ends at the offset. -/
theorem eq_append_of_cut? {n : Nat} {cs l r : List Char} (h : cut? n cs = some (l, r)) :
    cs = l ++ r ∧ byteLength l = n := by
  induction n, cs using cut?.induct generalizing l with
  | case1 cs =>
    rw [cut?] at h
    cases h
    exact ⟨rfl, rfl⟩
  | case2 => cases h
  | case3 n c cs hle ih =>
    rw [cut?, if_pos hle] at h
    obtain ⟨⟨l', r'⟩, hcut, heq⟩ := Option.map_eq_some_iff.mp h
    cases heq
    obtain ⟨hcs, hlen⟩ := ih hcut
    exact ⟨congrArg (c :: ·) hcs, by rw [byteLength_cons, hlen]; omega⟩
  | case4 n c cs hle =>
    rw [cut?, if_neg hle] at h
    cases h

/-- **A text is cut where it has a boundary of characters**, and nowhere else. -/
theorem isSome_cut?_iff (n : Nat) (cs : List Char) :
    (cut? n cs).isSome ↔ String.Pos.Raw.IsValid (String.ofList cs) ⟨n⟩ := by
  rw [String.Pos.Raw.isValid_ofList, Option.isSome_iff_exists]
  constructor
  · rintro ⟨⟨l, r⟩, hcut⟩
    obtain ⟨rfl, rfl⟩ := eq_append_of_cut? hcut
    exact ⟨l.length, by rw [List.take_left, byteLength_eq_utf8ByteSize]⟩
  · rintro ⟨i, hi⟩
    have hcut := cut?_byteLength (cs.take i) (cs.drop i)
    rw [List.take_append_drop, byteLength_eq_utf8ByteSize, ← hi] at hcut
    exact ⟨_, hcut⟩

/-- The offset in bytes at which a character stands first. -/
def offset? (c : Char) : List Char → Option Nat
  | [] => none
  | d :: cs => if d = c then some 0 else (offset? c cs).map (d.utf8Size + ·)

/-- A character that is in a text stands at the offset at which what is before it ends. -/
theorem offset?_append_cons {c : Char} {l : List Char} (h : c ∉ l) (r : List Char) :
    offset? c (l ++ c :: r) = some (byteLength l) := by
  induction l with
  | nil => exact if_pos rfl
  | cons d l ih =>
    obtain ⟨hd, hl⟩ := not_or.mp (List.mem_cons.not.mp h)
    rw [List.cons_append, offset?, if_neg (Ne.symm hd), ih hl, byteLength_cons]
    rfl

/-- A character that is not in a text stands nowhere in it. -/
theorem offset?_eq_none {c : Char} {cs : List Char} (h : c ∉ cs) : offset? c cs = none := by
  induction cs with
  | nil => rfl
  | cons d cs ih =>
    obtain ⟨hd, hcs⟩ := not_or.mp (List.mem_cons.not.mp h)
    rw [offset?, if_neg (Ne.symm hd), ih hcs]
    rfl

/-! ## The scan -/

/-- The name of the reference at the start of a text, and the offset at which it ends.  The outer
option is for cuts within a character, the inner one for texts that start with no reference. -/
def referenceAt? : List Char → Option (Option (String × Nat))
  | '$' :: '{' :: braced =>
    match offset? '}' braced with
    | none => some none
    | some stop => (cut? stop braced).map fun (name, _) =>
      if isName name then some (String.ofList name, stop + 3) else none
  | '$' :: body =>
    let size := byteLength (body.takeWhile isNamePart)
    if size = 0 then some none
    else (cut? size body).map fun (name, _) =>
      if isName name then some (String.ofList name, size + 1) else none
  | _ => some none

/-- What a scan has written, and what it has not read. -/
structure Scan where
  /-- What it has written. -/
  written : List Char
  /-- What it has not read. -/
  rest : List Char

namespace Scan

/-- One step of a scan, up to and with what the next dollar sign starts; without a dollar sign the
scan is done, and the result is what it has written.  A step fails if it cuts within a
character. -/
def step? (vars : Variables) (s : Scan) : Option (List Char ⊕ Scan) :=
  match offset? '$' s.rest with
  | none => some (.inl (s.written ++ s.rest))
  | some pos => do
    let (before, candidate) ← cut? pos s.rest
    match ← referenceAt? candidate with
    | some (name, consumed) =>
      let (_, rest) ← cut? consumed candidate
      return .inr ⟨s.written ++ before ++ ((vars.get? name).getD "").toList, rest⟩
    | none =>
      let (_, rest) ← cut? 1 candidate
      return .inr ⟨s.written ++ before ++ ['$'], rest⟩

end Scan

/-! ## The grammar of references -/

/-- A character that a name starts with: a letter or an underscore. -/
def NameStart (c : Char) : Prop := ('A' ≤ c ∧ c ≤ 'Z') ∨ ('a' ≤ c ∧ c ≤ 'z') ∨ c = '_'

/-- A character of a name: a letter, a digit or an underscore. -/
def NamePart (c : Char) : Prop := NameStart c ∨ ('0' ≤ c ∧ c ≤ '9')

/-- A name: a character that a name starts with, and any number of characters of a name. -/
def Name : List Char → Prop
  | [] => False
  | c :: cs => NameStart c ∧ ∀ d ∈ cs, NamePart d

/-- `Begins after name rest` says that a dollar sign before `after` starts a reference to a name,
and that `rest` stands behind the reference.  A reference has its name in braces, or as many
characters of a name as there are. -/
inductive Begins : List Char → List Char → List Char → Prop
  | braced {name rest : List Char} (h : Name name) :
      Begins ('{' :: (name ++ '}' :: rest)) name rest
  | bare {name rest : List Char} (h : Name name) (hrest : ∀ c ∈ rest.head?, ¬ NamePart c) :
      Begins (name ++ rest) name rest

/-- **What a text becomes**, by its references from left to right.  What a variable stands for is
put in as it is, and the rest of the text is rewritten; a dollar sign that starts no reference
stays, and so do all other characters. -/
inductive Rewrites (get? : String → Option String) : List Char → List Char → Prop
  | nil : Rewrites get? [] []
  | reference {after name rest out : List Char} (h : Begins after name rest)
      (hrest : Rewrites get? rest out) :
      Rewrites get? ('$' :: after) (((get? (String.ofList name)).getD "").toList ++ out)
  | dollar {after out : List Char} (h : ∀ name rest, ¬ Begins after name rest)
      (hafter : Rewrites get? after out) : Rewrites get? ('$' :: after) ('$' :: out)
  | other {c : Char} {rest out : List Char} (h : c ≠ '$') (hrest : Rewrites get? rest out) :
      Rewrites get? (c :: rest) (c :: out)

/-- The check for the start of a name is right. -/
theorem isNameStart_iff {c : Char} : isNameStart c = true ↔ NameStart c := by
  have hletter : c.isAlpha =
      (decide ('A' ≤ c ∧ c ≤ 'Z') || (decide ('a' ≤ c) && decide (c ≤ 'z'))) := rfl
  simp [isNameStart, NameStart, hletter, or_assoc]

/-- So is that for the characters of a name. -/
theorem isNamePart_iff {c : Char} : isNamePart c = true ↔ NamePart c := by
  simp only [NamePart, ← isNameStart_iff]
  simp [isNamePart, isNameStart, Char.isAlphanum, Char.isDigit, Char.le_def, or_right_comm]

/-- So is that for names. -/
theorem isName_iff {cs : List Char} : isName cs = true ↔ Name cs := by
  cases cs with
  | nil => simp [isName, Name]
  | cons c cs => simp [isName, Name, isNameStart_iff, isNamePart_iff]

/-- A character that a name starts with is one of a name. -/
theorem NameStart.part {c : Char} (h : NameStart c) : NamePart c := .inl h

/-- All characters of a name are characters of names. -/
theorem Name.forall_part {name : List Char} (h : Name name) : ∀ c ∈ name, NamePart c := by
  cases name with
  | nil => nofun
  | cons c cs => exact List.forall_mem_cons.mpr ⟨h.1.part, h.2⟩

/-- There are no braces in names. -/
theorem NamePart.ne_brace {c : Char} (h : NamePart c) : c ≠ '{' ∧ c ≠ '}' := by
  constructor <;>
  · rintro rfl
    exact absurd (isNamePart_iff.mpr h) (by decide)

/-- What stands before the first place of a character. -/
theorem takeWhile_ne_append {c : Char} {l : List Char} (h : c ∉ l) (r : List Char) :
    (l ++ c :: r).takeWhile (· != c) = l := by
  rw [List.takeWhile_append_of_pos fun d hd => by simpa using ne_of_mem_of_not_mem hd h]
  simp

/-- What stands behind the characters that are taken. -/
theorem drop_length_takeWhile (p : Char → Bool) (cs : List Char) :
    cs.drop (cs.takeWhile p).length = cs.dropWhile p := by
  have h : (cs.takeWhile p ++ cs.dropWhile p).drop (cs.takeWhile p).length = cs.dropWhile p :=
    List.drop_left ..
  rwa [List.takeWhile_append_dropWhile] at h

/-- A name in braces is a reference. -/
theorem reference?_braced {name : List Char} (h : '}' ∉ name) (rest : List Char) :
    reference? ('{' :: (name ++ '}' :: rest)) =
      if isName name then some (String.ofList name, name.length + 2) else none := by
  simp [reference?, takeWhile_ne_append h]

/-- Braces that are not closed are none. -/
theorem reference?_open {body : List Char} (h : '}' ∉ body) : reference? ('{' :: body) = none := by
  have htake : body.takeWhile (· != '}') = body :=
    List.takeWhile_eq_self_iff.mpr fun d hd => by simpa using ne_of_mem_of_not_mem hd h
  simp [reference?, htake]

/-- Without braces, all characters of a name are taken. -/
theorem reference?_bare {after : List Char} (h : after.head? ≠ some '{') :
    reference? after =
      if isName (after.takeWhile isNamePart) then
        some (String.ofList (after.takeWhile isNamePart), (after.takeWhile isNamePart).length)
      else none := by
  rw [reference?.eq_2]
  rintro body rfl
  exact h rfl

/-- A text starts with a brace that is closed, with one that is not, or with none. -/
theorem braced_or_open_or_bare (after : List Char) :
    (∃ name rest, '}' ∉ name ∧ after = '{' :: (name ++ '}' :: rest)) ∨
      (∃ body, '}' ∉ body ∧ after = '{' :: body) ∨ after.head? ≠ some '{' := by
  by_cases hhead : after.head? = some '{'
  · obtain ⟨body, rfl⟩ := List.head?_eq_some_iff.mp hhead
    by_cases hmem : '}' ∈ body
    · obtain ⟨name, rest, rfl, hname⟩ := List.eq_append_cons_of_mem hmem
      exact .inl ⟨name, rest, hname, rfl⟩
    · exact .inr (.inl ⟨body, hmem, rfl⟩)
  · exact .inr (.inr hhead)

/-- **The references are those of the grammar.** -/
theorem begins_iff {after name rest : List Char} :
    Begins after name rest ↔
      ∃ n, reference? after = some (String.ofList name, n) ∧ rest = after.drop n := by
  constructor
  · rintro (⟨h⟩ | ⟨h, hrest⟩)
    · refine ⟨name.length + 2, ?_, by simp⟩
      rw [reference?_braced fun hmem => (h.forall_part _ hmem).ne_brace.2 rfl,
        if_pos (isName_iff.mpr h)]
    · have hhead : (name ++ rest).head? ≠ some '{' := by
        cases name with
        | nil => exact h.elim
        | cons c cs => exact fun hc => h.1.part.ne_brace.1 (Option.some.inj hc)
      have htake : (name ++ rest).takeWhile isNamePart = name := by
        rw [List.takeWhile_append_of_pos fun c hc => isNamePart_iff.mpr (h.forall_part c hc)]
        cases rest with
        | nil => simp
        | cons c cs =>
          rw [List.takeWhile_cons_of_neg fun hc => hrest c rfl (isNamePart_iff.mp hc),
            List.append_nil]
      exact ⟨name.length, by rw [reference?_bare hhead, htake, if_pos (isName_iff.mpr h)], by simp⟩
  · rintro ⟨n, href, rfl⟩
    obtain ⟨name', rest, hname, rfl⟩ | ⟨body, hbody, rfl⟩ | hhead := braced_or_open_or_bare after
    · rw [reference?_braced hname] at href
      split at href
      next h =>
        obtain ⟨hofList, rfl⟩ := Prod.mk.inj (Option.some.inj href)
        obtain rfl := String.ofList_inj.mp hofList
        have hbegins : Begins ('{' :: (name' ++ '}' :: rest)) name' rest :=
          .braced (isName_iff.mp h)
        simpa using hbegins
      next => cases href
    · rw [reference?_open hbody] at href
      cases href
    · rw [reference?_bare hhead] at href
      split at href
      next h =>
        obtain ⟨hofList, rfl⟩ := Prod.mk.inj (Option.some.inj href)
        obtain rfl := String.ofList_inj.mp hofList
        have hrest : ∀ c ∈ (after.dropWhile isNamePart).head?, ¬ NamePart c := by
          intro c hc hpart
          have := List.head?_dropWhile_not isNamePart after
          rw [Option.mem_def.mp hc] at this
          exact absurd (isNamePart_iff.mpr hpart) (by simpa using this)
        have hbare := Begins.bare (isName_iff.mp h) hrest
        rwa [List.takeWhile_append_dropWhile, ← drop_length_takeWhile] at hbare
      next => cases href

/-- Where no reference is found, none starts. -/
theorem reference?_eq_none_iff {after : List Char} :
    reference? after = none ↔ ∀ name rest, ¬ Begins after name rest := by
  constructor
  · intro hnone name rest h
    obtain ⟨n, href, -⟩ := begins_iff.mp h
    cases hnone.symm.trans href
  · intro h
    refine Option.eq_none_iff_forall_ne_some.mpr fun (name, n) href => ?_
    exact h name.toList _ (begins_iff.mpr ⟨n, by rw [String.ofList_toList, href], rfl⟩)

/-! ## Steps of the scan -/

/-- **The scan finds the references of the grammar**, and cuts no text within a character on the
way: the reference ends behind the bytes of its characters. -/
theorem referenceAt?_eq (after : List Char) :
    referenceAt? ('$' :: after) =
      some ((reference? after).map fun (name, n) => (name, byteLength ('$' :: after.take n))) := by
  obtain ⟨name, rest, hname, rfl⟩ | ⟨body, hbody, rfl⟩ | hhead := braced_or_open_or_bare after
  · have htake : ('{' :: (name ++ '}' :: rest)).take (name.length + 2) =
        '{' :: (name ++ ['}']) := by
      rw [List.take_succ_cons, List.take_length_add_append]
      rfl
    have hsize : byteLength ('$' :: '{' :: (name ++ ['}'])) = byteLength name + 3 := by
      simp only [byteLength_cons, byteLength_append, byteLength_nil]
      rw [show '$'.utf8Size = 1 from rfl, show '{'.utf8Size = 1 from rfl,
        show '}'.utf8Size = 1 from rfl]
      omega
    rw [referenceAt?, offset?_append_cons hname, reference?_braced hname]
    dsimp only
    rw [cut?_byteLength, Option.map_some]
    dsimp only
    split
    · rw [Option.map_some, htake, hsize]
    · rfl
  · rw [referenceAt?, offset?_eq_none hbody, reference?_open hbody]
    rfl
  · have hbare : ∀ braced, after ≠ '{' :: braced := fun braced h => hhead (h ▸ rfl)
    rw [referenceAt?.eq_2 _ hbare, reference?_bare hhead]
    dsimp only
    split
    next hzero =>
      rw [byteLength_eq_zero_iff.mp hzero]
      rfl
    next =>
      have hcut := cut?_byteLength (after.takeWhile isNamePart) (after.dropWhile isNamePart)
      rw [List.takeWhile_append_dropWhile] at hcut
      have htake : after.take (after.takeWhile isNamePart).length = after.takeWhile isNamePart :=
        (List.prefix_iff_eq_take.mp (List.takeWhile_prefix _)).symm
      rw [hcut, Option.map_some]
      dsimp only
      split
      · rw [Option.map_some, htake, byteLength_cons, Nat.add_comm]
        rfl
      · rfl

/-- The characters that a text becomes. -/
def expandChars (vars : Variables) (cs : List Char) : List Char :=
  (segments cs).flatMap (Segment.expand vars)

/-- Other characters than dollar signs stay. -/
theorem expandChars_cons (vars : Variables) {c : Char} (h : c ≠ '$') (cs : List Char) :
    expandChars vars (c :: cs) = c :: expandChars vars cs := by
  rw [expandChars, segments, if_neg h]
  rfl

/-- So does all that stands before the first dollar sign. -/
theorem expandChars_append (vars : Variables) {l : List Char} (h : '$' ∉ l) (r : List Char) :
    expandChars vars (l ++ r) = l ++ expandChars vars r := by
  induction l with
  | nil => rfl
  | cons c l ih =>
    obtain ⟨hc, hl⟩ := not_or.mp (List.mem_cons.not.mp h)
    rw [List.cons_append, expandChars_cons vars (Ne.symm hc), ih hl, List.cons_append]

/-- A dollar sign that starts a reference becomes what the variable stands for. -/
theorem expandChars_reference (vars : Variables) {after : List Char} {name : String} {n : Nat}
    (h : reference? after = some (name, n)) :
    expandChars vars ('$' :: after) =
      ((vars.get? name).getD "").toList ++ expandChars vars (after.drop n) := by
  rw [expandChars, segments, if_pos rfl, h]
  rfl

/-- A dollar sign that starts none stays. -/
theorem expandChars_dollar (vars : Variables) {after : List Char} (h : reference? after = none) :
    expandChars vars ('$' :: after) = '$' :: expandChars vars after := by
  rw [expandChars, segments, if_pos rfl, h]
  rfl

namespace Scan

/-- What a scan will have written in the end. -/
def result (vars : Variables) (s : Scan) : List Char := s.written ++ expandChars vars s.rest

/-- **A step of the scan.**  It does not fail.  If the scan is done, it has written its result;
else less of the text is left, and the result is as before.

**Proof sketch.** The text is cut before its first dollar sign (`cut?_byteLength`), and behind what
starts there: the reference, which ends behind whole characters (`referenceAt?_eq`), or the dollar
sign, which is one byte. -/
theorem step?_eq (vars : Variables) (s : Scan) :
    s.step? vars = some (.inl (s.result vars)) ∨
      ∃ s', s.step? vars = some (.inr s') ∧ s'.rest.length < s.rest.length ∧
        s'.result vars = s.result vars := by
  obtain ⟨written, rest⟩ := s
  by_cases hmem : '$' ∈ rest
  · obtain ⟨before, after, rfl, hbefore⟩ := List.eq_append_cons_of_mem hmem
    have hlt : after.length < (before ++ '$' :: after).length := by
      rw [List.length_append, List.length_cons]
      omega
    refine .inr ?_
    simp only [step?, offset?_append_cons hbefore, cut?_byteLength, Option.bind_eq_bind,
      Option.bind_some, referenceAt?_eq]
    cases href : reference? after with
    | none =>
      have hcut : cut? 1 ('$' :: after) = some (['$'], after) := cut?_byteLength ['$'] after
      refine ⟨⟨written ++ before ++ ['$'], after⟩, ?_, hlt, ?_⟩
      · rw [Option.map_none, hcut]
        rfl
      · simp [result, expandChars_append vars hbefore, expandChars_dollar vars href]
    | some found =>
      obtain ⟨name, n⟩ := found
      have hcut := cut?_byteLength ('$' :: after.take n) (after.drop n)
      rw [List.cons_append, List.take_append_drop] at hcut
      refine ⟨⟨written ++ before ++ ((vars.get? name).getD "").toList, after.drop n⟩, ?_,
        Nat.lt_of_le_of_lt (List.length_drop ▸ Nat.sub_le ..) hlt, ?_⟩
      · rw [Option.map_some]
        dsimp only
        rw [hcut]
        rfl
      · simp [result, expandChars_append vars hbefore, expandChars_reference vars href]
  · refine .inl ?_
    have hrest : expandChars vars rest = rest := by
      simpa [expandChars, segments] using expandChars_append vars hmem []
    rw [step?, offset?_eq_none hmem, result, hrest]

/-- Each step leaves less of the text. -/
theorem length_rest_lt_of_step? {vars : Variables} {s s' : Scan}
    (h : s.step? vars = some (.inr s')) :
    s'.rest.length < s.rest.length := by
  obtain hdone | ⟨s'', hnext, hlt, -⟩ := step?_eq vars s
  · cases h.symm.trans hdone
  · cases h.symm.trans hnext
    exact hlt

/-- A scan from its start to its end. -/
def run? (vars : Variables) (s : Scan) : Option (List Char) :=
  match _h : s.step? vars with
  | none => none
  | some (.inl written) => some written
  | some (.inr s') => s'.run? vars
termination_by s.rest.length
decreasing_by exact length_rest_lt_of_step? _h

/-- A scan does not fail, and writes its result. -/
theorem run?_eq (vars : Variables) (s : Scan) : s.run? vars = some (s.result vars) := by
  induction s using run?.induct vars with
  | case1 s hstep =>
    obtain hdone | ⟨s', hnext, -⟩ := step?_eq vars s
    · cases hstep.symm.trans hdone
    · cases hstep.symm.trans hnext
  | case2 s written hstep =>
    obtain hdone | ⟨s', hnext, -⟩ := step?_eq vars s
    · cases hstep.symm.trans hdone
      rw [run?, hstep]
    · cases hstep.symm.trans hnext
  | case3 s s' hstep ih =>
    obtain hdone | ⟨s'', hnext, -, hresult⟩ := step?_eq vars s
    · cases hstep.symm.trans hdone
    · cases hstep.symm.trans hnext
      rw [run?, hstep, ← hresult]
      exact ih

end Scan

/-! ## Rewriting -/

/-- A text becomes what its references say, and nothing else. -/
theorem rewrites_iff (vars : Variables) (cs out : List Char) :
    Rewrites vars.get? cs out ↔ out = expandChars vars cs := by
  constructor
  · intro h
    induction h with
    | nil => rw [expandChars, segments, List.flatMap_nil]
    | reference h _ ih =>
      obtain ⟨n, href, rfl⟩ := begins_iff.mp h
      rw [expandChars_reference vars href, ih]
    | dollar h _ ih => rw [expandChars_dollar vars (reference?_eq_none_iff.mpr h), ih]
    | other h _ ih => rw [expandChars_cons vars h, ih]
  · rintro rfl
    induction cs using segments.induct with
    | case1 =>
      rw [expandChars, segments]
      exact .nil
    | case2 rest name n href ih =>
      have hbegins : Begins rest name.toList (rest.drop n) :=
        begins_iff.mpr ⟨n, by rw [String.ofList_toList, href], rfl⟩
      have hrewrites := Rewrites.reference hbegins ih
      rwa [String.ofList_toList, ← expandChars_reference vars href] at hrewrites
    | case3 rest href ih =>
      rw [expandChars_dollar vars href]
      exact .dollar (reference?_eq_none_iff.mp href) ih
    | case4 c rest hc ih =>
      rw [expandChars_cons vars hc]
      exact .other hc ih

/-- **What a text becomes.**  The scan of a text ends and cuts it within no character, and it writes
what the references of the text say, from left to right; there is only one such text.  All this is
so for whatever variables stand for.

**Proof sketch.** No step of the scan fails, and each keeps its result (`Scan.step?_eq`); the pieces
of a text are what the grammar makes of it (`rewrites_iff`). -/
theorem run?_eq_and_rewrites_iff (vars : Variables) (s : String) :
    Scan.run? vars ⟨[], s.toList⟩ = some (expand vars s).toList ∧
      ∀ out, Rewrites vars.get? s.toList out ↔ out = (expand vars s).toList := by
  have hexpand : (expand vars s).toList = expandChars vars s.toList := String.toList_ofList
  rw [hexpand]
  exact ⟨Scan.run?_eq vars ⟨[], s.toList⟩, rewrites_iff vars s.toList⟩

end Interpolation

end DeployPlan
