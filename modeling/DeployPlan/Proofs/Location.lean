import DeployPlan.Location
import DeployPlan.Proofs.Text.Pieces

/-!
# What locations name

A location names a package of the platform by the start of its address, or a repository on the host
by the segments of its path, whatever its scheme.  The address in full form names the same location
again.  It keeps the scheme that it has, so that one that is not secure is not replaced.

## Main definitions

* `Location.segments` — the segments of a path that are not empty.
* `Location.bare` — an address without its scheme.
* `Location.fullScheme` — the scheme that an address gets in full form.
* `Location.ofPath` — the location of a path on the host.
* `Location.Names` — the locations that addresses name.

## Main results

* `Location.ofText?_eq_some_iff` — a text names the location that its address does.
* `Location.ofText?_classifies` — which texts name which kind of location, what is kept of a path,
  and that the address in full form names the same location.
* `Location.ofText?_scheme` — texts that differ only in the scheme name the same folder of the same
  repository, and have the same address in full form unless just one of them is not secure.
* `Location.ofText?_insecure` — a scheme that is not secure is kept.
-/

set_option autoImplicit false

namespace DeployPlan

namespace Location

/-! ## Segments -/

/-- The segments of a path: what is between its slashes, if it is not empty. -/
def segments (path : String) : List String :=
  (Text.split '/' path).filter fun segment => !segment.isEmpty

/-- Two paths with a slash between them have the segments of one, and then those of the other. -/
theorem segments_append (a b : String) : segments (a ++ "/" ++ b) = segments a ++ segments b := by
  have hsplit : Text.split '/' (a ++ "/" ++ b) = Text.split '/' a ++ Text.split '/' b :=
    Text.split_append '/' a b
  rw [segments, hsplit, List.filter_append]
  rfl

/-- A segment of a path: it is not empty, and has no slash. -/
def IsSegment (segment : String) : Prop := segment ≠ "" ∧ '/' ∉ segment.toList

/-- A path has the segments that it is made of. -/
theorem segments_join {pieces : List String} (h : ∀ piece ∈ pieces, IsSegment piece) :
    segments (Text.join "/" pieces) = pieces := by
  cases pieces with
  | nil => rfl
  | cons first rest =>
    have hlists : Text.Lists '/' (Text.join "/" (first :: rest)) (first :: rest) :=
      ⟨List.cons_ne_nil _ _, fun piece hpiece => (h piece hpiece).2, rfl⟩
    rw [segments, Text.lists_iff.mp hlists, List.filter_eq_self]
    intro piece hpiece
    simpa using (h piece hpiece).1

/-- A segment is the only one of itself. -/
theorem segments_single {segment : String} (h : IsSegment segment) :
    segments segment = [segment] :=
  segments_join fun _ hpiece => List.mem_singleton.mp hpiece ▸ h

/-- The segments of a path are what they should be. -/
theorem isSegment_of_mem {path segment : String} (h : segment ∈ segments path) :
    IsSegment segment := by
  obtain ⟨hsplit, hempty⟩ := List.mem_filter.mp h
  have hlists : Text.Lists '/' path (Text.split '/' path) := Text.lists_iff.mpr rfl
  exact ⟨by simpa using hempty, hlists.not_mem segment hsplit⟩

/-! ## Schemes -/

/-- An address without its scheme, if it has one. -/
def bare (address : String) : String := (afterScheme? address).getD address

/-- A scheme, or none. -/
def IsScheme (scheme : String) : Prop := scheme = "" ∨ scheme ∈ schemes

/-- The scheme that an address gets in full form. -/
def fullScheme (scheme : String) : String := if scheme = "" then "https://" else scheme

/-- A scheme is taken off. -/
theorem afterScheme?_append {scheme : String} (h : scheme ∈ schemes) (rest : String) :
    afterScheme? (scheme ++ rest) = some rest := by
  have hapart : Text.after? "https://" ("http://" ++ rest) = none :=
    Text.after?_eq_none_of_apart (by decide +kernel) (by decide +kernel) rest
  simp only [schemes, List.mem_cons, List.not_mem_nil, or_false] at h
  rcases h with rfl | rfl
  · simp [afterScheme?, schemes]
  · simp [afterScheme?, schemes, hapart]

/-- An address from which a scheme is taken off has that scheme. -/
theorem exists_scheme_of_afterScheme? {address rest : String}
    (h : afterScheme? address = some rest) : ∃ scheme ∈ schemes, address = scheme ++ rest := by
  obtain ⟨scheme, hscheme, hrest⟩ := List.exists_of_findSome?_eq_some h
  exact ⟨scheme, hscheme, Text.after?_eq_some_iff.mp hrest⟩

/-- The host is no scheme. -/
theorem afterScheme?_host (rest : String) : afterScheme? (host ++ rest) = none := by
  have hsecure : Text.after? "https://" (host ++ rest) = none :=
    Text.after?_eq_none_of_apart (by decide +kernel) (by decide +kernel) rest
  have hinsecure : Text.after? "http://" (host ++ rest) = none :=
    Text.after?_eq_none_of_apart (by decide +kernel) (by decide +kernel) rest
  simp [afterScheme?, schemes, hsecure, hinsecure]

/-- What is left of an address on the host without its scheme. -/
theorem bare_append {scheme : String} (h : IsScheme scheme) (rest : String) :
    bare (scheme ++ (host ++ rest)) = host ++ rest := by
  rcases h with rfl | h
  · rw [String.empty_append, bare, afterScheme?_host, Option.getD_none]
  · rw [bare, afterScheme?_append h, Option.getD_some]

/-- An address on the host in full form. -/
theorem full_append {scheme : String} (h : IsScheme scheme) (rest : String) :
    (if (afterScheme? (scheme ++ (host ++ rest))).isSome then scheme ++ (host ++ rest)
      else "https://" ++ (scheme ++ (host ++ rest))) = fullScheme scheme ++ (host ++ rest) := by
  rcases h with rfl | h
  · rw [String.empty_append, afterScheme?_host]
    rfl
  · have hne : scheme ≠ "" := by
      rintro rfl
      simp [schemes] at h
    rw [afterScheme?_append h, fullScheme, if_neg hne]
    rfl

/-- The scheme in full form is a scheme. -/
theorem isScheme_fullScheme {scheme : String} (h : IsScheme scheme) :
    IsScheme (fullScheme scheme) := by
  rw [fullScheme]
  split
  · exact .inr (by simp [schemes])
  · exact h

/-- The scheme in full form is there in full. -/
theorem fullScheme_fullScheme (scheme : String) :
    fullScheme (fullScheme scheme) = fullScheme scheme := by
  by_cases h : scheme = ""
  · subst h
    decide +kernel
  · rw [fullScheme, fullScheme, if_neg h, if_neg h]

/-- The path of an address on the host. -/
theorem repositoryPath?_eq_some_iff {address path : String} :
    repositoryPath? address = some path ↔
      ∃ scheme, IsScheme scheme ∧ address = scheme ++ (host ++ ("/" ++ path)) := by
  have hbare : repositoryPath? address = some path ↔ bare address = host ++ ("/" ++ path) := by
    rw [repositoryPath?, ← bare, Option.bind_eq_some_iff]
    constructor
    · rintro ⟨rest, hhost, hslash⟩
      rw [Text.after?_eq_some_iff.mp hhost, Text.after?_eq_some_iff.mp hslash]
    · intro h
      rw [h]
      exact ⟨_, Text.after?_append host _, Text.after?_append "/" path⟩
  rw [hbare]
  constructor
  · intro h
    cases hscheme : afterScheme? address with
    | none =>
      rw [bare, hscheme, Option.getD_none] at h
      exact ⟨"", .inl rfl, by rw [h, String.empty_append]⟩
    | some rest =>
      rw [bare, hscheme, Option.getD_some] at h
      obtain ⟨scheme, hmem, haddress⟩ := exists_scheme_of_afterScheme? hscheme
      exact ⟨scheme, .inr hmem, by rw [haddress, h]⟩
  · rintro ⟨scheme, hscheme, rfl⟩
    exact bare_append hscheme _

/-! ## Locations by their addresses -/

/-- The location of a path on the host, in a repository of an owner and there in folders, with the
scheme that the address has. -/
def ofPath (scheme path owner repo : String) (folders : List String) : Location :=
  ⟨.remote, fullScheme scheme ++ (host ++ ("/" ++ path)),
    some ("https://" ++ host ++ "/" ++ owner ++ "/" ++ repo),
    if folders.isEmpty then none else some (Text.join "/" folders)⟩

/-- The locations that addresses name. -/
inductive Names : String → Location → Prop
  /-- An address that starts with the namespace of the platform, with a slash before it or without
  one. -/
  | system {slash : String} (hslash : slash = "" ∨ slash = "/") (rest : String) :
    Names (slash ++ (systemNamespace ++ rest))
      ⟨.binding, "/" ++ (systemNamespace ++ rest), none, none⟩
  /-- An address on the host, with a scheme or without one, whose path has at least two
  segments. -/
  | repository {scheme path owner repo : String} {folders : List String}
    (hscheme : IsScheme scheme) (hsegments : segments path = owner :: repo :: folders) :
    Names (scheme ++ (host ++ ("/" ++ path))) (ofPath scheme path owner repo folders)

/-- An address on the host does not start with the namespace of the platform. -/
theorem not_system {scheme : String} (h : IsScheme scheme) (rest : String) :
    (Text.startsWith systemNamespace (scheme ++ (host ++ rest)) ||
      Text.startsWith ("/" ++ systemNamespace) (scheme ++ (host ++ rest))) = false := by
  simp only [IsScheme, schemes, List.mem_cons, List.not_mem_nil, or_false] at h
  rw [Bool.or_eq_false_iff]
  rcases h with rfl | rfl | rfl
  · rw [String.empty_append]
    exact ⟨Text.startsWith_eq_false_of_apart (by decide +kernel) (by decide +kernel) rest,
      Text.startsWith_eq_false_of_apart (by decide +kernel) (by decide +kernel) rest⟩
  · exact ⟨Text.startsWith_eq_false_of_apart (by decide +kernel) (by decide +kernel) _,
      Text.startsWith_eq_false_of_apart (by decide +kernel) (by decide +kernel) _⟩
  · exact ⟨Text.startsWith_eq_false_of_apart (by decide +kernel) (by decide +kernel) _,
      Text.startsWith_eq_false_of_apart (by decide +kernel) (by decide +kernel) _⟩

/-- The location in a repository that an address names. -/
theorem ofRepository?_eq_some_iff {address : String} {l : Location} :
    ofRepository? address = some l ↔
      ∃ (scheme path owner repo : String) (folders : List String), IsScheme scheme ∧
        segments path = owner :: repo :: folders ∧ address = scheme ++ (host ++ ("/" ++ path)) ∧
        l = ofPath scheme path owner repo folders := by
  unfold ofRepository?
  constructor
  · intro h
    cases hpath : repositoryPath? address with
    | none => simp [hpath] at h
    | some path =>
      obtain ⟨scheme, hscheme, rfl⟩ := repositoryPath?_eq_some_iff.mp hpath
      rw [hpath, Option.map_some, ← segments] at h
      cases hsegments : segments path with
      | nil => simp [hsegments] at h
      | cons owner others =>
        cases others with
        | nil => simp [hsegments] at h
        | cons repo folders =>
          simp only [hsegments, Option.some.injEq] at h
          refine ⟨scheme, path, owner, repo, folders, hscheme, hsegments, rfl, ?_⟩
          rw [← h, ofPath, full_append hscheme]
  · rintro ⟨scheme, path, owner, repo, folders, hscheme, hsegments, rfl, rfl⟩
    have hpath : repositoryPath? (scheme ++ (host ++ ("/" ++ path))) = some path :=
      repositoryPath?_eq_some_iff.mpr ⟨scheme, hscheme, rfl⟩
    rw [hpath, Option.map_some, ← segments, hsegments]
    simp only [full_append hscheme]
    rfl

/-- **A text names the location that its address does**, which is what is left without the blanks
around it. -/
theorem ofText?_eq_some_iff {text : String} {l : Location} :
    ofText? text = some l ↔ Names (Text.trim text) l := by
  have hslash (rest : String) : Text.startsWith "/" (systemNamespace ++ rest) = false :=
    Text.startsWith_eq_false_of_apart (by decide +kernel) (by decide +kernel) rest
  rw [ofText?]
  generalize Text.trim text = address
  constructor
  · intro h
    split at h
    · next hsystem =>
      cases h
      rcases Bool.or_eq_true_iff.mp hsystem with hstart | hstart
      · obtain ⟨rest, rfl⟩ := Text.startsWith_iff.mp hstart
        rw [ofSystem, hslash, if_neg Bool.false_ne_true]
        simpa using Names.system (.inl rfl) rest
      · obtain ⟨rest, rfl⟩ := Text.startsWith_iff.mp hstart
        rw [String.append_assoc, ofSystem, Text.startsWith_append, if_pos rfl]
        exact .system (.inr rfl) rest
    · obtain ⟨scheme, path, owner, repo, folders, hscheme, hsegments, rfl, rfl⟩ :=
        ofRepository?_eq_some_iff.mp h
      exact .repository hscheme hsegments
  · intro h
    cases h with
    | system h rest =>
      rcases h with rfl | rfl
      · rw [String.empty_append, Text.startsWith_append, Bool.true_or, if_pos rfl, ofSystem, hslash,
          if_neg Bool.false_ne_true]
      · rw [← String.append_assoc, Text.startsWith_append, Bool.or_true, if_pos rfl,
          String.append_assoc, ofSystem, Text.startsWith_append, if_pos rfl]
    | repository hscheme hsegments =>
      rw [not_system hscheme, if_neg Bool.false_ne_true]
      exact ofRepository?_eq_some_iff.mpr ⟨_, _, _, _, _, hscheme, hsegments, rfl, rfl⟩

/-! ## Addresses in full form -/

/-- An address in full form has no blanks at its ends. -/
theorem Names.trimmed {address : String} {l : Location} (h : Names address l)
    (haddress : Text.Trimmed address) : Text.Trimmed l.address := by
  cases h with
  | system hslash rest =>
    rcases hslash with rfl | rfl
    · rw [String.empty_append] at haddress
      exact (Text.trim_eq_self_iff.mp (by decide +kernel)).append haddress
    · exact haddress
  | @repository scheme _ _ _ _ hscheme _ =>
    by_cases hnone : scheme = ""
    · subst hnone
      rw [String.empty_append] at haddress
      exact (Text.trim_eq_self_iff.mp (by decide +kernel)).append haddress
    · rw [ofPath, fullScheme, if_neg hnone]
      exact haddress

/-- An address in full form names the same location. -/
theorem Names.full {address : String} {l : Location} (h : Names address l) :
    Names l.address l := by
  cases h with
  | system _ rest => exact .system (.inr rfl) rest
  | @repository scheme path owner repo folders hscheme hsegments =>
    have hfull := Names.repository (isScheme_fullScheme hscheme) hsegments
    have hsame : ofPath (fullScheme scheme) path owner repo folders =
        ofPath scheme path owner repo folders := by
      rw [ofPath, ofPath, fullScheme_fullScheme]
    rwa [hsame] at hfull

/-- The segments of a location in a repository are those of the repository, and then those of the
folder. -/
theorem segments_ofPath {scheme path owner repo : String} {folders : List String}
    (hscheme : IsScheme scheme) (hsegments : segments path = owner :: repo :: folders) :
    segments (bare (ofPath scheme path owner repo folders).address) =
      segments (bare ("https://" ++ host ++ "/" ++ owner ++ "/" ++ repo)) ++
        (ofPath scheme path owner repo folders).subFolder.elim [] segments := by
  have hhost : IsSegment host := ⟨by decide +kernel, by decide +kernel⟩
  have hpath : ∀ segment ∈ owner :: repo :: folders, IsSegment segment := by
    rw [← hsegments]
    exact fun segment => isSegment_of_mem
  have howner : IsSegment owner := hpath owner List.mem_cons_self
  have hname : IsSegment repo := hpath repo (List.mem_cons_of_mem _ List.mem_cons_self)
  have hrepo : bare ("https://" ++ host ++ "/" ++ owner ++ "/" ++ repo) =
      host ++ "/" ++ owner ++ "/" ++ repo := by
    simpa only [String.append_assoc] using
      bare_append (.inr (List.mem_cons_self : "https://" ∈ schemes)) ("/" ++ owner ++ "/" ++ repo)
  have hfolder : (ofPath scheme path owner repo folders).subFolder.elim [] segments = folders := by
    cases folders with
    | nil => rfl
    | cons folder others =>
      exact segments_join fun piece hpiece =>
        hpath piece (List.mem_cons_of_mem _ (List.mem_cons_of_mem _ hpiece))
  calc
    _ = segments (host ++ "/" ++ path) := by
      rw [ofPath, bare_append (isScheme_fullScheme hscheme), String.append_assoc]
    _ = [host] ++ (owner :: repo :: folders) := by
      rw [segments_append, segments_single hhost, hsegments]
    _ = segments (host ++ "/" ++ owner ++ "/" ++ repo) ++ folders := by
      rw [segments_append, segments_append, segments_single hhost, segments_single howner,
        segments_single hname]
      rfl
    _ = _ := by rw [hrepo, hfolder]

/-- **What locations are.**  A text names a package of the platform exactly if, without the blanks
around it, it starts with the namespace of the platform, with a slash before it or without one; and
a repository exactly if it is then the host and a path with at least two segments that are not
empty, behind one scheme or none.  The segments of the address of such a location are those of its
repository, and then those of its folder.  The address of a location names the same location.

**Proof sketch.** No text starts both with the namespace and with a scheme or the host.  Segments
are not empty and have no slashes, so that they are found again where they are joined.  An address
in full form has no blanks at its ends, as neither what is put before it nor the text has any
there. -/
theorem ofText?_classifies (text : String) :
    ((∃ l, ofText? text = some l ∧ l.kind = .binding) ↔
      ∃ rest, Text.trim text = systemNamespace ++ rest ∨
        Text.trim text = "/" ++ (systemNamespace ++ rest)) ∧
    ((∃ l, ofText? text = some l ∧ l.kind = .remote) ↔
      ∃ scheme path, IsScheme scheme ∧ Text.trim text = scheme ++ (host ++ ("/" ++ path)) ∧
        2 ≤ (segments path).length) ∧
    ∀ l, ofText? text = some l →
      (l.kind = .remote → ∃ repo, l.baseRepo = some repo ∧
        segments (bare l.address) = segments (bare repo) ++ l.subFolder.elim [] segments) ∧
      ofText? l.address = some l := by
  simp only [ofText?_eq_some_iff]
  have htrimmed := Text.trimmed_trim text
  generalize Text.trim text = address at htrimmed
  refine ⟨⟨?_, ?_⟩, ⟨?_, ?_⟩, ?_⟩
  · rintro ⟨l, h, hkind⟩
    cases h with
    | system hslash rest =>
      refine ⟨rest, ?_⟩
      rcases hslash with rfl | rfl
      · exact .inl (String.empty_append)
      · exact .inr rfl
    | repository => cases hkind
  · rintro ⟨rest, rfl | rfl⟩
    · exact ⟨_, by simpa using Names.system (.inl rfl) rest, rfl⟩
    · exact ⟨_, .system (.inr rfl) rest, rfl⟩
  · rintro ⟨l, h, hkind⟩
    cases h with
    | system => cases hkind
    | @repository scheme path owner repo folders hscheme hsegments =>
      exact ⟨scheme, path, hscheme, rfl, by simp [hsegments]⟩
  · rintro ⟨scheme, path, hscheme, rfl, hlength⟩
    obtain ⟨owner, repo, folders, hsegments⟩ : ∃ owner repo folders,
        segments path = owner :: repo :: folders := by
      match hpath : segments path, hlength with
      | owner :: repo :: folders, _ => exact ⟨owner, repo, folders, rfl⟩
    exact ⟨_, .repository hscheme hsegments, rfl⟩
  · intro l h
    refine ⟨?_, ?_⟩
    · intro hkind
      cases h with
      | system => cases hkind
      | repository hscheme hsegments => exact ⟨_, rfl, segments_ofPath hscheme hsegments⟩
    · rw [Text.trim_eq_self_iff.mpr (h.trimmed htrimmed)]
      exact h.full

/-! ## The scheme that is kept -/

/-- Two schemes are the same in full form if both of them are secure, or none. -/
theorem fullScheme_eq_iff {a b : String} (ha : IsScheme a) (hb : IsScheme b) :
    fullScheme a = fullScheme b ↔ (a = "http://" ↔ b = "http://") := by
  simp only [IsScheme, schemes, List.mem_cons, List.not_mem_nil, or_false] at ha hb
  rcases ha with rfl | rfl | rfl <;> rcases hb with rfl | rfl | rfl <;> decide +kernel

/-- Locations of the same path have the same address if their schemes are the same in full form. -/
theorem ofPath_address_eq_iff {a b path owner repo : String} {folders : List String}
    (ha : IsScheme a) (hb : IsScheme b) :
    (ofPath a path owner repo folders).address = (ofPath b path owner repo folders).address ↔
      (a = "http://" ↔ b = "http://") := by
  rw [← fullScheme_eq_iff ha hb, ofPath, ofPath]
  exact String.append_left_inj _

/-- An address with a secure scheme starts with that scheme and the host. -/
theorem startsWith_secure (path : String) :
    Text.startsWith "https://github.com/" ("https://" ++ (host ++ ("/" ++ path))) = true :=
  Text.startsWith_iff.mpr ⟨path, by simp only [← String.append_assoc]; rfl⟩

/-- An address in full form has a secure scheme unless it was given one that is not. -/
theorem startsWith_secure_iff {scheme : String} (h : IsScheme scheme) (path : String) :
    Text.startsWith "https://github.com/" (fullScheme scheme ++ (host ++ ("/" ++ path))) = true ↔
      scheme ≠ "http://" := by
  simp only [IsScheme, schemes, List.mem_cons, List.not_mem_nil, or_false] at h
  rcases h with rfl | rfl | rfl
  · exact iff_of_true (startsWith_secure path) (by decide)
  · exact iff_of_true (startsWith_secure path) (by decide)
  · have hstart : Text.startsWith "https://github.com/"
        (fullScheme "http://" ++ (host ++ ("/" ++ path))) = false :=
      Text.startsWith_eq_false_of_apart (by decide +kernel) (by decide +kernel) _
    simp [hstart]

/-- **The scheme of a repository.**  A text that names a location in a repository is a scheme or
none and what follows it.  The repository has a secure scheme.  The address in full form has one
exactly if the text does not start with the scheme that is not secure.  A text with another scheme
and the same behind it names a location in the same folder of the same repository, and with the same
address exactly if both of them start with the scheme that is not secure, or none.

**Proof sketch.** Owner, repository and folders are those of the path behind the host, where the
scheme is no more; the address is the only part of a location that has the scheme of the text. -/
theorem ofText?_scheme {text : String} {l : Location} (h : ofText? text = some l)
    (hkind : l.kind = .remote) :
    ∃ scheme path, IsScheme scheme ∧ Text.trim text = scheme ++ (host ++ ("/" ++ path)) ∧
      l.address = fullScheme scheme ++ (host ++ ("/" ++ path)) ∧
      (Text.startsWith "https://github.com/" l.address = true ↔ scheme ≠ "http://") ∧
      (∃ repo, l.baseRepo = some repo ∧ Text.startsWith "https://github.com/" repo = true) ∧
      ∀ other text', IsScheme other → Text.trim text' = other ++ (host ++ ("/" ++ path)) →
        ∃ l', ofText? text' = some l' ∧ l'.kind = .remote ∧ l'.baseRepo = l.baseRepo ∧
          l'.subFolder = l.subFolder ∧
          (l'.address = l.address ↔ (other = "http://" ↔ scheme = "http://")) := by
  rw [ofText?_eq_some_iff] at h
  generalize Text.trim text = address at h
  cases h with
  | system => cases hkind
  | @repository scheme path owner repo folders hscheme hsegments =>
    refine ⟨scheme, path, hscheme, rfl, rfl, startsWith_secure_iff hscheme path,
      ⟨_, rfl, ?_⟩, ?_⟩
    · simpa only [String.append_assoc] using startsWith_secure (owner ++ ("/" ++ repo))
    · intro other text' hother htext
      have hnames : Names (Text.trim text') (ofPath other path owner repo folders) := by
        rw [htext]
        exact .repository hother hsegments
      exact ⟨_, ofText?_eq_some_iff.mpr hnames, rfl, rfl, rfl,
        ofPath_address_eq_iff hother hscheme⟩

/-- A text without a scheme names the same location as with the secure one. -/
theorem ofText?_scheme_functions :
    ∃ l l', ofText? "github.com/acme/functions/util" = some l ∧
      ofText? "https://github.com/acme/functions/util" = some l' ∧
      l'.address = l.address ∧ l'.baseRepo = l.baseRepo ∧ l'.subFolder = l.subFolder := by
  have hread : ofText? "github.com/acme/functions/util" =
      some (ofPath "" "acme/functions/util" "acme" "functions" ["util"]) := by decide +kernel
  obtain ⟨scheme, path, hscheme, -, haddress, hsecure, -, hother⟩ := ofText?_scheme hread rfl
  have hne : scheme ≠ "http://" := hsecure.mp (by decide +kernel)
  have hmem : IsScheme "https://" := .inr List.mem_cons_self
  have htext : Text.trim "https://github.com/acme/functions/util" =
      "https://" ++ (host ++ ("/" ++ path)) :=
    calc
      _ = (ofPath "" "acme/functions/util" "acme" "functions" ["util"]).address := by decide +kernel
      _ = fullScheme "https://" ++ (host ++ ("/" ++ path)) := by
        rw [haddress, (fullScheme_eq_iff hscheme hmem).mpr (iff_of_false hne (by decide))]
  obtain ⟨l', hl', -, hrepo, hfolder, hsame⟩ := hother "https://" _ hmem htext
  exact ⟨_, l', hread, hl', hsame.mpr (iff_of_false (by decide) hne), hrepo, hfolder⟩

/-- **A scheme that is not secure is kept**: the address in full form does not have the secure one,
and is not that of the same text with the secure one. -/
theorem ofText?_insecure :
    ∃ l l', ofText? "http://github.com/acme/functions" = some l ∧ l.kind = .remote ∧
      ofText? "https://github.com/acme/functions" = some l' ∧ l'.kind = .remote ∧
      Text.startsWith "https://github.com/" l.address = false ∧ l.address ≠ l'.address :=
  ⟨ofPath "http://" "acme/functions" "acme" "functions" [],
    ofPath "https://" "acme/functions" "acme" "functions" [], by decide +kernel, rfl,
    by decide +kernel, rfl, by decide +kernel, by decide +kernel⟩

end Location

end DeployPlan
