import DeployPlan.Proofs.KeyValues
import DeployPlan.Proofs.Text.LetterCase
import DeployPlan.WebMode

/-!
# Web modes, one after the other

Setting a web mode takes the annotations of whatever mode was set before out of a list, and puts its
own behind the others.  So the last mode counts, and setting it once more changes nothing.

## Main definitions

* `WebMode.Names` — a word for a mode, in letters of any case.
* `WebMode.isOther` — an annotation that is none of those of the modes.
* `WebMode.Sets` — what setting a mode makes of annotations.

## Main results

* `WebMode.ofWord?_eq_some_iff` — which words are understood.
* `WebMode.annotate_annotate` — the last mode counts.
* `WebMode.annotate?_lastMode` — so it does for words of modes; no other words are understood.
-/

set_option autoImplicit false

namespace DeployPlan

namespace WebMode

/-! ## Words -/

/-- The words for a mode, in small letters. -/
def words : WebMode → List String
  | .exported => ["yes", "true"]
  | .hidden => ["no", "false"]
  | .raw => ["raw"]

/-- A word for a mode, in letters of any case. -/
def Names (word : String) (mode : WebMode) : Prop :=
  ∃ w ∈ mode.words, Text.sameIgnoringAsciiCase word w = true

instance (word : String) (mode : WebMode) : Decidable (Names word mode) :=
  inferInstanceAs (Decidable (∃ w ∈ mode.words, _))

/-- A word is the lower case of the words for a mode, and of no others. -/
theorem names_iff {word : String} {mode : WebMode} :
    Names word mode ↔ Text.toLower word ∈ mode.words := by
  have hall : (mode.words.all fun w => w.toList.all fun c => decide (Text.OwnLetter c)) = true := by
    cases mode <;> decide
  have hletters : ∀ w ∈ mode.words, ∀ c ∈ w.toList, Text.OwnLetter c := fun w hw c hc =>
    of_decide_eq_true (List.all_eq_true.mp (List.all_eq_true.mp hall w hw) c hc)
  constructor
  · rintro ⟨w, hw, hsame⟩
    rwa [(Text.toLower_eq_iff (hletters w hw)).mpr hsame]
  · intro h
    exact ⟨_, h, (Text.toLower_eq_iff (hletters _ h)).mp rfl⟩

/-- **Which words are understood**: those for a mode. -/
theorem ofWord?_eq_some_iff {word : String} {mode : WebMode} :
    ofWord? word = some mode ↔ Names word mode := by
  rw [names_iff, ofWord?]
  generalize Text.toLower word = w
  split_ifs with hexported hhidden hraw
  · rcases hexported with rfl | rfl <;> cases mode <;> simp [words]
  · rcases hhidden with rfl | rfl <;> cases mode <;> simp [words]
  · subst hraw
    cases mode <;> simp [words]
  · cases mode <;> simp_all [words]

/-- A word that is for no mode is not understood. -/
theorem ofWord?_eq_none_iff {word : String} :
    ofWord? word = none ↔ ∀ mode, ¬ Names word mode := by
  simp only [Option.eq_none_iff_forall_ne_some, ne_eq, ofWord?_eq_some_iff]

/-! ## Annotations -/

/-- The annotations of each mode. -/
def triple : WebMode → List KeyValue
  | .exported => [⟨"web-export", .bool true⟩, ⟨"raw-http", .bool false⟩, ⟨"final", .bool true⟩]
  | .hidden => [⟨"web-export", .bool false⟩, ⟨"raw-http", .bool false⟩, ⟨"final", .bool false⟩]
  | .raw => [⟨"web-export", .bool true⟩, ⟨"raw-http", .bool true⟩, ⟨"final", .bool true⟩]

/-- An annotation that is none of those of the modes. -/
def isOther (kv : KeyValue) : Bool := !keys.contains kv.key

/-- What setting a mode makes of annotations. -/
structure Sets (mode : WebMode) (list result : List KeyValue) : Prop where
  /-- The other annotations stay, in their order. -/
  others_eq : result.filter isOther = list.filter isOther
  /-- Those of the mode come last. -/
  suffix : mode.triple <:+ result
  /-- Each of these is the only one with its key. -/
  single : ∀ kv ∈ mode.triple, result.filter (fun other => other.key == kv.key) = [kv]
  /-- Keys are distinct if those of the other annotations are. -/
  distinct_iff : KeyValues.Distinct result ↔ KeyValues.Distinct (list.filter isOther)

/-- The other annotations and then those of the mode. -/
theorem annotate_eq (mode : WebMode) (list : List KeyValue) :
    mode.annotate list = list.filter isOther ++ mode.triple := by
  cases mode <;> rfl

/-- None of the annotations of a mode is an other. -/
theorem filter_isOther_triple (mode : WebMode) : mode.triple.filter isOther = [] := by
  cases mode <;> rfl

/-- The annotations of a mode have the keys of all modes. -/
theorem keys_triple (mode : WebMode) : KeyValues.keys mode.triple = keys := by
  cases mode <;> rfl

/-- Setting a mode leaves the other annotations alone. -/
theorem filter_isOther_annotate (mode : WebMode) (list : List KeyValue) :
    (mode.annotate list).filter isOther = list.filter isOther := by
  rw [annotate_eq, List.filter_append, filter_isOther_triple, List.append_nil, List.filter_filter]
  simp only [Bool.and_self]

/-- **The last mode counts.** -/
theorem annotate_annotate (mode mode' : WebMode) (list : List KeyValue) :
    mode'.annotate (mode.annotate list) = mode'.annotate list := by
  rw [annotate_eq mode', filter_isOther_annotate, annotate_eq]

/-- Each annotation of a mode is the only one of them with its key. -/
theorem filter_key_triple {mode : WebMode} {kv : KeyValue} (h : kv ∈ mode.triple) :
    mode.triple.filter (fun other => other.key == kv.key) = [kv] := by
  cases mode <;> simp only [triple, List.mem_cons, List.not_mem_nil, or_false] at h <;>
    rcases h with rfl | rfl | rfl <;> rfl

/-- The keys of the other annotations are none of those of the modes. -/
theorem key_not_mem_of_isOther {list : List KeyValue} {kv : KeyValue}
    (h : kv ∈ list.filter isOther) : kv.key ∉ keys := by
  have hother := (List.mem_filter.mp h).2
  simpa [isOther] using hother

/-- What setting a mode makes of annotations. -/
theorem sets_annotate (mode : WebMode) (list : List KeyValue) :
    mode.Sets list (mode.annotate list) where
  others_eq := filter_isOther_annotate mode list
  suffix := ⟨_, (annotate_eq mode list).symm⟩
  single kv hkv := by
    have hkey : kv.key ∈ keys := keys_triple mode ▸ List.mem_map_of_mem hkv
    have hothers : (list.filter isOther).filter (fun other => other.key == kv.key) = [] := by
      rw [List.filter_eq_nil_iff]
      intro other hother heq
      exact key_not_mem_of_isOther hother (beq_iff_eq.mp heq ▸ hkey)
    rw [annotate_eq, List.filter_append, hothers, List.nil_append, filter_key_triple hkv]
  distinct_iff := by
    have hkeys : keys.Nodup := by decide
    rw [annotate_eq, KeyValues.Distinct, KeyValues.keys_append, keys_triple, List.nodup_append,
      KeyValues.Distinct]
    refine ⟨fun h => h.1, fun h => ⟨h, hkeys, fun key hkey other hother heq => ?_⟩⟩
    obtain ⟨kv, hkv, rfl⟩ := List.mem_map.mp hkey
    exact key_not_mem_of_isOther hkv (heq ▸ hother)

/-! ## Words and annotations -/

/-- What a word for a mode makes of annotations, and of none. -/
theorem annotate?_of_names {word : String} {mode : WebMode} (h : Names word mode)
    (list : Option (List KeyValue)) (fetch : Bool) :
    annotate? word list fetch =
      if list.isNone && fetch then .ok none else .ok (some (mode.annotate (list.getD []))) := by
  rw [annotate?, ofWord?_eq_some_iff.mpr h]

/-- **Words for modes, one after the other.**  A word for a mode, in letters of any case, sets that
mode: the other annotations stay as they are, and those of the mode come last, each of them once.
A list that is missing is made, unless it is only fetched.  If another word for a mode came before,
nothing is left of that.  A word for no mode is refused, whatever the annotations.

**Proof sketch.** All modes have annotations with the same keys, so that those of one mode are what
the next one takes out.  Words are compared by their lower case, and no character of another script
has one of their letters for its own. -/
theorem annotate?_lastMode (word : String) :
    (∀ mode, Names word mode →
      (∀ list fetch, ∃ result, annotate? word (some list) fetch = .ok (some result) ∧
        mode.Sets list result) ∧
      annotate? word none false = annotate? word (some []) false ∧
      annotate? word none true = .ok none ∧
      ∀ before mode', Names before mode' → ∀ list fetch fetch', (list = none → fetch' = fetch) →
        (annotate? before list fetch' >>= fun annotations => annotate? word annotations fetch) =
          annotate? word list fetch) ∧
    ((∀ mode, ¬ Names word mode) →
      ∀ list fetch, annotate? word list fetch = .error (.unknownWebMode word)) := by
  constructor
  · intro mode hword
    refine ⟨fun list fetch => ⟨_, annotate?_of_names hword _ _, sets_annotate mode list⟩,
      ?_, ?_, ?_⟩
    · rw [annotate?_of_names hword, annotate?_of_names hword]
      rfl
    · rw [annotate?_of_names hword]
      rfl
    · intro before mode' hbefore list fetch fetch' hfetch
      cases list with
      | none =>
        rw [hfetch rfl, annotate?_of_names hbefore]
        cases fetch with
        | true => rfl
        | false =>
          change annotate? word (some (mode'.annotate [])) false = _
          rw [annotate?_of_names hword, annotate?_of_names hword]
          exact congrArg (fun list => Except.ok (some list)) (annotate_annotate mode' mode [])
      | some list =>
        rw [annotate?_of_names hbefore]
        change annotate? word (some (mode'.annotate list)) fetch = _
        rw [annotate?_of_names hword, annotate?_of_names hword]
        exact congrArg (fun list => Except.ok (some list)) (annotate_annotate mode' mode list)
  · intro hword list fetch
    rw [annotate?, ofWord?_eq_none_iff.mpr hword]

/-- A mode is set over another one and a stale annotation, with both words in mixed case; a word for
no mode is refused. -/
theorem annotate?_lastMode_stale :
    let list : List KeyValue := [⟨"final", .str "stale"⟩, ⟨"owner", .str "me"⟩]
    (∃ result, annotate? "RAW" (some list) true = .ok (some result) ∧
      WebMode.raw.Sets list result) ∧
    (annotate? "Yes" (some list) false >>= fun annotations => annotate? "RAW" annotations true) =
      annotate? "RAW" (some list) true ∧
    annotate? "sometimes" none true = .error (.unknownWebMode "sometimes") := by
  intro list
  have hraw : Names "RAW" .raw := by decide
  have hyes : Names "Yes" .exported := by decide
  have hnone : ∀ mode, ¬ Names "sometimes" mode := by
    intro mode
    cases mode <;> decide
  obtain ⟨hmodes, -⟩ := annotate?_lastMode "RAW"
  obtain ⟨hsets, -, -, hlast⟩ := hmodes .raw hraw
  obtain ⟨-, hrefused⟩ := annotate?_lastMode "sometimes"
  exact ⟨hsets list true, hlast "Yes" .exported hyes (some list) true false nofun,
    hrefused hnone none true⟩

end WebMode

end DeployPlan
