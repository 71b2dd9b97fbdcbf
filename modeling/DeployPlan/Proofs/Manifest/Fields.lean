import DeployPlan.Manifest.Encode
import DeployPlan.Proofs.KeyMap
import DeployPlan.Proofs.Yaml.Tree

/-!
# Reading and writing records

A reader of records and maps is made of readers of their parts, and so is what is to be known of
it.  There are two kinds of rules: what is read from sound trees has a property, because its parts
have theirs; and what is written is read again, entry by entry.

## Main definitions

* `DeployPlan.Yaml.Decoder.Gives` — whatever is read from trees of a kind has a property.
* `Yaml.Field.Keeps` — a field that is read keeps a property of what was read before.
* `Yaml.Field.Puts` — written entries, and what they put into a record when they are read.

## Main results

* `Yaml.Decoder.Gives.record`, `Gives.mapOf` — properties of records and maps that were read.
* `Yaml.Field.Puts.cons`, `optional`, `nonEmpty`, `append` — reading written entries in turn.
* `Yaml.Decoder.record_of_puts`, `mapOf_encodeMap` — reading records and maps that were written.
-/

set_option autoImplicit false

namespace DeployPlan

/-! ## What is written -/

section Writing

variable {α β : Type} {name : String} {encode : β → Yaml.Value} {encode' : α → Yaml.Value}
  {f : α → β}

/-- A map is written the same if its items are. -/
theorem encodeMap_mapValues (h : ∀ a, encode (f a) = encode' a) (m : KeyMap α) :
    encodeMap encode (m.mapValues f) = encodeMap encode' m := by
  simp [encodeMap, h]

/-- The same for a map that is left out when it is empty. -/
theorem encodeNonEmpty_mapValues (h : ∀ a, encode (f a) = encode' a) (m : KeyMap α) :
    encodeNonEmpty name encode (m.mapValues f) = encodeNonEmpty name encode' m := by
  have hempty : (m.mapValues f).isEmpty = m.isEmpty := by simp [KeyMap.isEmpty]
  rw [encodeNonEmpty, encodeNonEmpty, hempty, encodeMap_mapValues h]

/-- The same for something that may be left out. -/
theorem encodeOptional_map (h : ∀ a, encode (f a) = encode' a) (o : Option α) :
    encodeOptional name encode (o.map f) = encodeOptional name encode' o := by
  cases o with
  | none => rfl
  | some a => simp [encodeOptional, h]

end Writing

namespace Yaml

variable {α β σ : Type}

/-! ## What is read -/

/-- A kind of trees that extends to the values of their entries. -/
def Tree.Hereditary (T : Tree → Prop) : Prop :=
  ∀ t, T t → ∀ entries, t.entries? = some entries → ∀ e ∈ entries, T e.2

/-- Soundness does. -/
theorem Tree.sound_hereditary : Tree.Hereditary Tree.Sound := by
  intro t ht
  induction ht with
  | scalar hs =>
    intro entries hentries
    rw [entries?] at hentries
    split at hentries
    · cases hentries
      exact fun e he => absurd he List.not_mem_nil
    · cases hentries
  | sequence _ =>
    intro entries hentries
    cases hentries
  | mapping _ hvalues =>
    intro entries hentries
    cases hentries
    exact hvalues
  | tagged _ ih => exact ih
  | «alias» _ ih => exact ih

/-- The tree of a value with distinct keys. -/
def Tree.OfDistinct (t : Tree) : Prop := ∃ v : Value, v.Distinct ∧ Tree.ofValue v = t

/-- The entries of a mapping with distinct keys are such trees. -/
theorem Tree.ofDistinct_of_mem_ofEntries {es : List (Value × Value)}
    (h : Value.DistinctEntries es) : ∀ e ∈ ofEntries es, OfDistinct e.2 := by
  induction es with
  | nil => exact fun e he => absurd he List.not_mem_nil
  | cons e es ih =>
    rw [Value.DistinctEntries] at h
    rw [ofEntries]
    exact List.forall_mem_cons.mpr ⟨⟨e.2, h.2.1, rfl⟩, ih h.2.2⟩

/-- So are the entries of a value behind tags. -/
theorem Tree.ofDistinct_of_mem_entries? : ∀ v : Value, v.Distinct → ∀ entries,
    (ofValue v).entries? = some entries → ∀ e ∈ entries, OfDistinct e.2
  | .tagged _ v, h, entries, hes => by
    rw [Value.Distinct] at h
    exact ofDistinct_of_mem_entries? v h entries hes
  | .map es, h, entries, hes => by
    rw [Value.Distinct] at h
    cases hes
    exact ofDistinct_of_mem_ofEntries h.2
  | .null, _, entries, hes => by
    cases hes
    exact fun e he => absurd he List.not_mem_nil
  | .bool _, _, _, hes | .int _, _, _, hes | .float _, _, _, hes | .str _, _, _, hes
  | .seq _, _, _, hes => by cases hes

/-- What is in a value with distinct keys has distinct keys. -/
theorem Tree.ofDistinct_hereditary : Tree.Hereditary Tree.OfDistinct := by
  rintro _ ⟨v, hv, rfl⟩
  exact ofDistinct_of_mem_entries? v hv

namespace Decoder

/-- Whatever is read from trees of a kind has a property. -/
def Gives (T : Tree → Prop) (d : Decoder α) (P : α → Prop) : Prop :=
  ∀ t, T t → ∀ a, d t = .ok a → P a

/-- Free values that are read have distinct keys. -/
theorem value_gives_distinct : Gives Tree.Sound value Value.Distinct := by
  intro t ht v hv
  rw [value] at hv
  split at hv
  · rename_i hvalue
    cases hv
    exact ht.distinct hvalue
  · cases hv

/-- An integer that an integer field can read. -/
def Fits (n : Int) : Prop := -(Int.pow 2 63) ≤ n ∧ n < Int.pow 2 63

/-- Integers that are read fit. -/
theorem integer_gives_fits : Gives Tree.Sound integer Fits := by
  have hinteger : ∀ t : Tree, t.Sound → ∀ n, t.integer? = some n → Fits n := by
    intro t ht
    induction ht with
    | scalar hs => exact hs.integer
    | sequence _ | mapping _ _ => exact fun _ hn => by cases hn
    | tagged _ ih => exact ih
    | «alias» _ ih => exact ih
  intro t ht n hn
  rw [integer] at hn
  split at hn
  · rename_i hread
    cases hn
    exact hinteger t ht _ hread
  · cases hn

/-- What may be left out has the property if it is there. -/
theorem Gives.optional {T : Tree → Prop} {d : Decoder α} {P : α → Prop} (h : Gives T d P) :
    Gives T (Decoder.optional d) fun o => ∀ a, o = some a → P a := by
  intro t ht o ho a ha
  subst ha
  rw [Decoder.optional] at ho
  split at ho
  · cases ho
  · cases hd : d t with
    | ok b =>
      rw [hd] at ho
      cases ho
      exact h t ht _ hd
    | error e => rw [hd] at ho; cases ho
  · cases ho

/-- A free value that may be left out is not null, if it is read from the tree of a value. -/
theorem optional_value_gives : Gives Tree.OfDistinct (optional value) fun o =>
    ∀ v, o = some v → v.isNull = false ∧ v.Distinct := by
  rintro _ ⟨w, hw, rfl⟩ o ho v rfl
  rw [optional, Tree.absent?_ofValue] at ho
  cases hnull : w.isNull with
  | true => rw [hnull] at ho; cases ho
  | false =>
    rw [hnull, value, Tree.value?_ofValue w hw] at ho
    cases ho
    exact ⟨hnull, hw⟩

/-- Items that are read have their property, and leave it to those that were read before. -/
theorem Gives.readEntries {T : Tree → Prop} {item : Decoder α} {P : α → Prop} (h : Gives T item P)
    {entries : List (Tree × Tree)} (hentries : ∀ e ∈ entries, T e.2) {acc m : KeyMap α}
    (hacc : acc.All P) (hm : readEntries item acc entries = .ok m) : m.All P := by
  induction entries generalizing acc with
  | nil =>
    cases hm
    exact hacc
  | cons e entries ih =>
    rw [Decoder.readEntries] at hm
    split at hm
    · cases hm
    split at hm
    · rename_i v hv
      have hPv := h _ (hentries e List.mem_cons_self) v hv
      exact ih (fun e he => hentries e (List.mem_cons_of_mem _ he)) (hacc.insert hPv _) hm
    · cases hm

/-- All values of a map that was read have the property of its items. -/
theorem Gives.mapOf {T : Tree → Prop} (hT : Tree.Hereditary T) {item : Decoder α} {P : α → Prop}
    (h : Gives T item P) : Gives T (mapOf item) (KeyMap.All P) := by
  intro t ht m hm
  rw [Decoder.mapOf] at hm
  split at hm
  · cases hm
  · rename_i entries hes
    cases hread : Decoder.readEntries item .empty entries with
    | ok m' =>
      rw [hread] at hm
      cases hm
      exact h.readEntries (hT t ht entries hes) (KeyMap.all_empty P) hread
    | error e => rw [hread] at hm; cases hm

end Decoder

namespace Field

/-- A field that is read keeps a property of what was read before. -/
def Keeps (T : Tree → Prop) (P : σ → Prop) (f : Field σ) : Prop :=
  ∀ t, T t → ∀ s s', P s → f.read t s = .ok s' → P s'

/-- The rule for a field whose value has a property of its own. -/
theorem Keeps.of {T : Tree → Prop} {P : σ → Prop} {d : Decoder α} {D : α → Prop}
    (hd : d.Gives T D) {name : String} {put : α → σ → σ} {others : List String}
    (hput : ∀ v s, D v → P s → P (put v s)) : (Field.of name d put others).Keeps T P := by
  intro t ht s s' hs hread
  cases hv : d t with
  | ok v =>
    simp only [Field.of, hv, Except.map] at hread
    cases hread
    exact hput v s (hd t ht v hv) hs
  | error e =>
    simp only [Field.of, hv, Except.map] at hread
    cases hread

/-- The rule for a field whose value does not matter. -/
theorem Keeps.free {T : Tree → Prop} {P : σ → Prop} {d : Decoder α} {name : String}
    {put : α → σ → σ} {others : List String} (hput : ∀ v s, P s → P (put v s)) :
    (Field.of name d put others).Keeps T P :=
  .of (D := fun _ => True) (fun _ _ _ _ => trivial) fun v s _ hs => hput v s hs

/-- Fields that are read in turn keep what each of them keeps. -/
theorem Keeps.readAll {T : Tree → Prop} {P : σ → Prop} {fields : List (Field σ)}
    (hfields : ∀ f ∈ fields, f.Keeps T P) {entries : List (Tree × Tree)}
    (hentries : ∀ e ∈ entries, T e.2) {seen : List String} {s s' : σ} (hs : P s)
    (hread : readAll fields seen s entries = .ok s') : P s' := by
  induction entries generalizing seen s with
  | nil =>
    cases hread
    exact hs
  | cons e entries ih =>
    have hrest : ∀ e ∈ entries, T e.2 := fun e he => hentries e (List.mem_cons_of_mem _ he)
    rw [Field.readAll] at hread
    split at hread
    · cases hread
    split at hread
    · cases hread
    · rename_i f hf
      split at hread
      · cases hread
      split at hread
      · rename_i s₁ hs₁
        have hkeeps := hfields f (List.mem_of_find?_eq_some hf)
        exact ih hrest (hkeeps _ (hentries e List.mem_cons_self) s s₁ hs hs₁) hread
      · cases hread

end Field

/-- **A record that was read** has what its fields keep. -/
theorem Decoder.Gives.record {T : Tree → Prop} (hT : Tree.Hereditary T)
    {fields : List (Field σ)} {P : σ → Prop} {kind : String} {init : σ} (hinit : P init)
    (hfields : ∀ f ∈ fields, f.Keeps T P) : Gives T (Decoder.record kind fields init .ok) P := by
  intro t ht s hs
  rw [Decoder.record] at hs
  split at hs
  · cases hs
  · rename_i entries hes
    cases hread : Field.readAll fields [] init entries with
    | error e => rw [hread] at hs; cases hs
    | ok s' =>
      rw [hread] at hs
      cases hs
      exact Field.Keeps.readAll hfields (hT t ht entries hes) hinit hread

/-! ## Reading what was written -/

namespace Decoder

/-- An optional field reads what is written and not null. -/
theorem optional_of_ok {d : Decoder α} {v : Value} {a : α} (hv : v.isNull = false)
    (h : d (Tree.ofValue v) = .ok a) : optional d (Tree.ofValue v) = .ok (some a) := by
  rw [optional, Tree.absent?_ofValue, hv]
  simp only [h, Except.map]

/-- An integer that may be missing, and fits if it is there, is read as it was written. -/
theorem optional_integer_encodeLimit {n : Option Int} (h : ∀ k, n = some k → Fits k) :
    optional integer (Tree.ofValue (encodeLimit n)) = .ok n := by
  cases n with
  | none => rfl
  | some k =>
    refine optional_of_ok rfl ?_
    have hread : (Tree.ofValue (.int k)).integer? = some k := if_pos (h k rfl)
    rw [encodeLimit, integer, hread]

/-- A free value with distinct keys is read as it was written. -/
theorem value_ofValue {v : Value} (h : v.Distinct) : value (Tree.ofValue v) = .ok v := by
  rw [value, Tree.value?_ofValue v h]

/-- Entries that were written are read again one by one. -/
theorem readEntries_ofEntries {item : Decoder β} {encode : α → Value} {made : α → β}
    {l : List (String × α)} (h : ∀ e ∈ l, item (Tree.ofValue (encode e.2)) = .ok (made e.2))
    (acc : KeyMap β) :
    readEntries item acc (Tree.ofEntries (l.map fun e => (.str e.1, encode e.2))) =
      .ok (acc.insertAll (l.map fun e => (e.1, made e.2))) := by
  induction l generalizing acc with
  | nil => rfl
  | cons e l ih =>
    rw [List.map_cons, List.map_cons, Tree.ofEntries, readEntries, KeyMap.insertAll_cons,
      ← ih fun e he => h e (List.mem_cons_of_mem _ he)]
    have hkey : (Tree.ofValue (.str e.1)).text? = some e.1 := rfl
    simp only [hkey, h e List.mem_cons_self]

/-- **A map that was written** is read again, with what becomes of its items. -/
theorem mapOf_encodeMap {item : Decoder β} {encode : α → Value} {made : α → β} {m : KeyMap α}
    (h : m.All fun v => item (Tree.ofValue (encode v)) = .ok (made v)) :
    mapOf item (Tree.ofValue (encodeMap encode m)) = .ok (m.mapValues made) := by
  have hread := readEntries_ofEntries
    (fun e he => h e.1 e.2 (KeyMap.mem_entries_iff.mp he)) .empty
  have hmap : KeyMap.insertAll .empty (m.entries.map fun e => (e.1, made e.2)) =
      m.mapValues made :=
    KeyMap.ext (KeyMap.entries_ofList (m.sorted.map fun _ => made))
  rw [hmap] at hread
  rw [encodeMap, Tree.ofValue, mapOf, Tree.entries?]
  simp only [hread, Except.mapError]

/-- A map whose items are read as they were written is read so. -/
theorem mapOf_encodeMap_self {item : Decoder α} {encode : α → Value} {m : KeyMap α}
    (h : m.All fun v => item (Tree.ofValue (encode v)) = .ok v) :
    mapOf item (Tree.ofValue (encodeMap encode m)) = .ok m :=
  (mapOf_encodeMap h).trans (congrArg Except.ok (KeyMap.mapWithKey_id m))

end Decoder

/-- The entries of a mapping are trees in turn. -/
theorem Tree.ofEntries_append (entries others : List (Value × Value)) :
    ofEntries (entries ++ others) = ofEntries entries ++ ofEntries others := by
  induction entries with
  | nil => rfl
  | cons e entries ih => simp only [List.cons_append, ofEntries, ih]

namespace Field

/-- **Written entries** of the fields with some names, and what they put into a record when they
are read: whatever was read before, if none of the names was. -/
def Puts (fields : List (Field σ)) (names : List String) (entries : List (Value × Value))
    (step : σ → σ) : Prop :=
  ∀ seen, (∀ name ∈ names, name ∉ seen) → ∀ acc,
    ∃ seen', (∀ name ∈ seen', name ∈ seen ∨ name ∈ names) ∧
      ∀ es, readAll fields seen acc (Tree.ofEntries entries ++ es) =
        readAll fields seen' (step acc) es

namespace Puts

variable {fields : List (Field σ)} {name : String} {names names' : List String}
  {entries entries' : List (Value × Value)} {step step' : σ → σ} {d : Decoder α}
  {put : α → σ → σ} {others : List String} {v : Value} {a : α}

/-- No entry puts nothing. -/
theorem nil (names : List String) : Puts fields names [] (fun s => s) :=
  fun seen _ _ => ⟨seen, fun _ h => .inl h, fun _ => rfl⟩

/-- One entry puts what is read from it. -/
theorem single
    (hfind : fields.find? (fun f => f.names.contains name) = some (.of name d put others))
    (h : d (Tree.ofValue v) = .ok a) : Puts fields [name] [encodeField name v] (put a) := by
  intro seen hseen acc
  refine ⟨name :: seen, fun other hother => ?_, fun es => ?_⟩
  · rcases List.mem_cons.mp hother with rfl | hother
    · exact .inr List.mem_cons_self
    · exact .inl hother
  · have hkey : (Tree.ofValue (.str name)).text? = some name := rfl
    have hnew : seen.contains name = false := by
      simpa using hseen name List.mem_cons_self
    have hread : (Field.of name d put others).read (Tree.ofValue v) acc = .ok (put a acc) := by
      simp only [Field.of, h, Except.map]
    have hname : (Field.of name d put others).name = name := rfl
    rw [encodeField, Tree.ofEntries, Tree.ofEntries, List.cons_append, List.nil_append, readAll]
    simp only [hkey, hfind, hname, hnew, hread, Bool.false_eq_true, if_false]

/-- Entries behind others put what they read after those. -/
theorem append (h : Puts fields names entries step) (h' : Puts fields names' entries' step')
    (hnames : ∀ name ∈ names, name ∉ names') :
    Puts fields (names ++ names') (entries ++ entries') (fun s => step' (step s)) := by
  intro seen hseen acc
  obtain ⟨seen₁, hseen₁, hread⟩ :=
    h seen (fun name hname => hseen name (List.mem_append_left _ hname)) acc
  have hnew : ∀ name ∈ names', name ∉ seen₁ := by
    intro name hname hmem
    rcases hseen₁ name hmem with hold | hfirst
    · exact hseen name (List.mem_append_right _ hname) hold
    · exact hnames name hfirst hname
  obtain ⟨seen₂, hseen₂, hread'⟩ := h' seen₁ hnew (step acc)
  refine ⟨seen₂, fun name hmem => ?_, fun es => ?_⟩
  · rcases hseen₂ name hmem with hmem | hmem
    · exact (hseen₁ name hmem).imp_right (List.mem_append_left _)
    · exact .inr (List.mem_append_right _ hmem)
  · rw [Tree.ofEntries_append, List.append_assoc, hread, hread']

/-- **One entry before others.** -/
theorem cons
    (hfind : fields.find? (fun f => f.names.contains name) = some (.of name d put others))
    (h : d (Tree.ofValue v) = .ok a) (hname : name ∉ names)
    (hrest : Puts fields names entries step) :
    Puts fields (name :: names) (encodeField name v :: entries) (fun s => step (put a s)) :=
  (single hfind h).append hrest fun _ hmem => List.mem_singleton.mp hmem ▸ hname

/-- **An entry that is left out** when there is nothing to write. -/
theorem optional {encode : β → Value} {made : β → α} {o : Option β}
    (hfind : fields.find? (fun f => f.names.contains name) = some (.of name d put others))
    (h : ∀ b, o = some b → d (Tree.ofValue (encode b)) = .ok (made b)) :
    Puts fields [name] (encodeOptional name encode o)
      (fun s => o.elim s fun b => put (made b) s) := by
  cases o with
  | none => exact nil [name]
  | some b => exact single hfind (h b rfl)

/-- **A map that is left out** when it is empty. -/
theorem nonEmpty {encode : β → Value} {m : KeyMap β}
    (hfind : fields.find? (fun f => f.names.contains name) = some (.of name d put others))
    (h : d (Tree.ofValue (encodeMap encode m)) = .ok a) :
    Puts fields [name] (encodeNonEmpty name encode m)
      (fun s => if m.isEmpty then s else put a s) := by
  rw [encodeNonEmpty]
  cases m.isEmpty with
  | true => exact nil [name]
  | false => exact single hfind h

end Puts

end Field

/-- **A record that was written** is read again, as what its entries put into it. -/
theorem Decoder.record_of_puts {fields : List (Field σ)} {names : List String}
    {entries : List (Value × Value)} {step : σ → σ} {kind : String} {init : σ}
    {finish : σ → Except DecodeError α} {a : α} (h : Field.Puts fields names entries step)
    (hfinish : finish (step init) = .ok a) :
    Decoder.record kind fields init finish (Tree.ofValue (.map entries)) = .ok a := by
  obtain ⟨seen, -, hread⟩ := h [] (fun _ _ => List.not_mem_nil) init
  have hall := hread []
  rw [List.append_nil, Field.readAll] at hall
  rw [Tree.ofValue, Decoder.record, Tree.entries?]
  simp only [hall, Except.bind, hfinish, Except.mapError]

end Yaml

end DeployPlan
