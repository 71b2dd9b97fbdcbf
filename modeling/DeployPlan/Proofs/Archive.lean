import DeployPlan.Proofs.FilePath
import DeployPlan.Proofs.FileTree
import DeployPlan.Proofs.Zip

/-!
# What an archive describes

The archive of a directory has one entry for each directory and each regular file below it.  But it
is written while its own file is there: if that is below the directory too, it becomes one more
entry.

## Main definitions

* `Archive.Below` — what is below a directory, by the names that lead there.
* `Archive.Shallow` — a function that does not look at what directories list.
* `Archive.Describes` — entries are those of what is below a directory, under distinct names.
* `Archive.Packs` — the entries of the archive that the directory at a path is packed into.

## Main results

* `Archive.mem_located_iff` — what is located is what is below a directory.
* `Archive.perm_map_located_of_update` — a new file is one more thing that is located.
* `Archive.entriesAt_eq_ok_iff` — when an archive has entries, and which.
* `Archive.Packs.describes_iff_not_below` — the archive describes the directory as it was if and
  only if the scratch file is not below it.
* `Archive.names_eq_of_fileName?`, `below_of_fileName?_eq_none` — where it is, by the path.
* `Archive.pack_describes` — what the archive of a directory describes.
-/

set_option autoImplicit false

namespace DeployPlan

namespace Archive

/-! ## What is below a directory -/

/-- What is below a directory, by the names that lead there. -/
inductive Below : List (String × FileEntry) → List String → FileEntry → Prop
  | here {children : List (String × FileEntry)} {name : String} {e : FileEntry}
      (h : (name, e) ∈ children) : Below children [name] e
  | inside {children inner : List (String × FileEntry)} {name : String} {mode : Nat}
      {path : List String} {e : FileEntry} (h : (name, .directory mode inner) ∈ children)
      (hinner : Below inner path e) : Below children (name :: path) e

/-- There are names that lead to what is below a directory. -/
theorem Below.ne_nil {children : List (String × FileEntry)} {path : List String} {e : FileEntry}
    (h : Below children path e) : path ≠ [] := by
  cases h <;> exact List.cons_ne_nil _ _

/-- A name is written in front of others with a slash behind it. -/
theorem pathName_cons (name : String) {path : List String} (h : path ≠ []) :
    pathName (name :: path) = slashed name ++ "/" ++ pathName path := by
  cases path with
  | nil => exact absurd rfl h
  | cons other path => rfl

/-- What is below the entries of a directory, one entry at a time. -/
theorem below_cons_iff {name : String} {child e : FileEntry}
    {children : List (String × FileEntry)} {path : List String} :
    Below ((name, child) :: children) path e ↔
      (path = [name] ∧ e = child) ∨
        (∃ mode inner rest, child = .directory mode inner ∧ path = name :: rest ∧
          Below inner rest e) ∨
        Below children path e := by
  constructor
  · rintro (hmem | ⟨hmem, hinner⟩)
    · rcases List.mem_cons.mp hmem with heq | hmem
      · cases heq
        exact .inl ⟨rfl, rfl⟩
      · exact .inr (.inr (.here hmem))
    · rcases List.mem_cons.mp hmem with heq | hmem
      · cases heq
        exact .inr (.inl ⟨_, _, _, rfl, rfl, hinner⟩)
      · exact .inr (.inr (.inside hmem hinner))
  · rintro (⟨rfl, rfl⟩ | ⟨mode, inner, rest, rfl, rfl, hinner⟩ | hrest)
    · exact .here List.mem_cons_self
    · exact .inside List.mem_cons_self hinner
    · cases hrest with
      | here hmem => exact .here (List.mem_cons_of_mem _ hmem)
      | inside hmem hinner => exact .inside (List.mem_cons_of_mem _ hmem) hinner

/-- Nothing is below an empty directory. -/
theorem not_below_nil {path : List String} {e : FileEntry} : ¬ Below [] path e := by
  rintro (hmem | ⟨hmem, -⟩) <;> cases hmem

mutual

/-- What is located at an entry is the entry itself, and what is below it if it is a directory. -/
theorem mem_locatedOf_iff (name : String) (child : FileEntry) (path : List String) (e : FileEntry) :
    (path, e) ∈ locatedOf name child ↔ (path = [name] ∧ e = child) ∨
      ∃ mode inner rest, child = .directory mode inner ∧ path = name :: rest ∧
        Below inner rest e := by
  cases child with
  | file mode content => simp [locatedOf]
  | link target => simp [locatedOf]
  | special => simp [locatedOf]
  | directory mode inner =>
    simp only [locatedOf, List.mem_cons, List.mem_map, Prod.exists, mem_located_iff inner,
      Prod.mk.injEq, FileEntry.directory.injEq]
    refine or_congr_right ⟨?_, ?_⟩
    · rintro ⟨rest, _, hrest, rfl, rfl⟩
      exact ⟨mode, inner, rest, ⟨rfl, rfl⟩, rfl, hrest⟩
    · rintro ⟨_, _, rest, ⟨rfl, rfl⟩, rfl, hrest⟩
      exact ⟨rest, e, hrest, rfl, rfl⟩

/-- What is located is what is below a directory. -/
theorem mem_located_iff (children : List (String × FileEntry)) (path : List String)
    (e : FileEntry) : (path, e) ∈ located children ↔ Below children path e := by
  match children with
  | [] => simp [located, not_below_nil]
  | (name, child) :: rest =>
    rw [located, List.mem_append, mem_locatedOf_iff, mem_located_iff rest, below_cons_iff,
      or_assoc]

end

/-! ## Entries -/

/-- **Entries describe a directory** if they are those of all directories and regular files below
it, under distinct names. -/
structure Describes (children : List (String × FileEntry)) (es : List Zip.Entry) : Prop where
  entries : ∀ entry, entry ∈ es ↔ ∃ path e, Below children path e ∧ entryOf? (path, e) = some entry
  distinct : (es.map (·.name)).Nodup

/-- In any order, the entries of what is located in a directory describe it, if they have distinct
names. -/
theorem describes_of_perm {children : List (String × FileEntry)} {es : List Zip.Entry}
    (h : es.Perm ((located children).filterMap entryOf?)) (hdistinct : (es.map (·.name)).Nodup) :
    Describes children es := by
  refine ⟨fun entry => ?_, hdistinct⟩
  simp only [h.mem_iff, List.mem_filterMap, Prod.exists, mem_located_iff]

/-- Entries that describe a directory, and one more, do not describe it. -/
theorem Describes.not_cons {children : List (String × FileEntry)} {entry : Zip.Entry}
    {es others : List Zip.Entry} (h : Describes children others)
    (hperm : es.Perm (entry :: others)) (hdistinct : (es.map (·.name)).Nodup) :
    ¬ Describes children es := by
  intro hes
  have hentry : entry ∈ others :=
    (h.entries entry).mpr ((hes.entries entry).mp (hperm.mem_iff.mpr List.mem_cons_self))
  have hnodup := (hperm.map (·.name)).nodup_iff.mp hdistinct
  exact (List.nodup_cons.mp hnodup).1 (List.mem_map_of_mem hentry)

/-! ## One more file -/

/-- A function of what is located **does not look at what directories list**. -/
def Shallow {α : Type} (f : List String × FileEntry → α) : Prop :=
  ∀ path mode listed listed',
    f (path, .directory mode listed) = f (path, .directory mode listed')

/-- The names that lead somewhere do not tell what is listed there. -/
theorem shallow_fst : Shallow (Prod.fst : List String × FileEntry → List String) :=
  fun _ _ _ _ => rfl

/-- The entry for a directory does not tell what it lists. -/
theorem shallow_entryOf? : Shallow entryOf? := fun _ _ _ _ => rfl

/-- Two such functions are one. -/
theorem Shallow.prodMk {α β : Type} {f : List String × FileEntry → α}
    {g : List String × FileEntry → β} (hf : Shallow f) (hg : Shallow g) :
    Shallow fun found => (f found, g found) :=
  fun path mode _ _ => Prod.ext (hf path mode _ _) (hg path mode _ _)

/-- Nor does such a function with a name in front of the others. -/
theorem Shallow.cons {α : Type} {f : List String × FileEntry → α} (hf : Shallow f)
    (name : String) : Shallow fun found => f (name :: found.1, found.2) :=
  fun path => hf (name :: path)

/-- What is located in more entries of a directory. -/
theorem located_append (children more : List (String × FileEntry)) :
    located (children ++ more) = located children ++ located more := by
  induction children with
  | nil => rfl
  | cons child children ih =>
    obtain ⟨name, e⟩ := child
    rw [List.cons_append, located, located, ih, List.append_assoc]

section Update

variable {α : Type} {f : List String × FileEntry → α}

/-- What is one more in a directory is one more in those above it. -/
theorem perm_map_located_of_updateChild (hf : Shallow f) {next : String}
    {change : FileEntry → FileEntry} {mode : Nat}
    {inner inner' before : List (String × FileEntry)} {a : α}
    (hchild : FileEntry.child? next before = some (.directory mode inner))
    (hchange : change (.directory mode inner) = .directory mode inner')
    (h : ((located inner').map fun found => f (next :: found.1, found.2)).Perm
      (a :: (located inner).map fun found => f (next :: found.1, found.2))) :
    ((located (FileEntry.updateChild next change before)).map f).Perm
      (a :: (located before).map f) := by
  induction before with
  | nil => cases hchild
  | cons child before ih =>
    obtain ⟨n, e⟩ := child
    rw [FileEntry.child?] at hchild
    rw [FileEntry.updateChild]
    split at hchild
    case isTrue hn =>
      subst hn
      obtain rfl := Option.some.inj hchild
      rw [if_pos rfl, hchange, located, located, locatedOf, locatedOf]
      simp only [List.cons_append, List.map_cons, List.map_append, List.map_map]
      rw [hf [n] mode inner' inner]
      exact ((h.append_right _).cons _).trans (.swap _ _ _)
    case isFalse hn =>
      rw [if_neg hn, located, located, List.map_append, List.map_append]
      exact ((ih hchild).append_left _).trans List.perm_middle

/-- **A new file is one more thing that is located** in a directory that it is below.

**Proof sketch.** Induction on the names that lead to the directory of the file.  A directory on the
way is still there, and what is below it is one more; what is beside the way stays. -/
theorem perm_map_located_of_update (hf : Shallow f) {q : List String} {name : String}
    {fileMode mode dirMode : Nat} {content : ByteArray}
    {before after children : List (String × FileEntry)}
    (hq : (FileEntry.directory mode before).get? q = some (.directory dirMode children))
    (h : FileEntry.directory mode after =
      (FileEntry.directory mode before).update q (.addChild name (.file fileMode content))) :
    ((located after).map f).Perm
      (f (q ++ [name], .file fileMode content) :: (located before).map f) := by
  induction q generalizing f mode before after with
  | nil =>
    obtain rfl : after = before ++ [(name, .file fileMode content)] :=
      (FileEntry.directory.inj h).2
    rw [located_append, List.map_append]
    exact List.perm_append_singleton _ _
  | cons next q ih =>
    obtain rfl : after = FileEntry.updateChild next
        (FileEntry.update q (.addChild name (.file fileMode content))) before :=
      (FileEntry.directory.inj h).2
    -- The next name leads to a directory, as it leads on to one.
    obtain ⟨e, hchild, he⟩ := Option.bind_eq_some_iff.mp hq
    obtain ⟨innerMode, inner, rfl⟩ : ∃ innerMode inner, e = .directory innerMode inner := by
      cases e with
      | directory innerMode inner => exact ⟨innerMode, inner, rfl⟩
      | file _ _ => cases q <;> cases he
      | link _ => cases q <;> cases he
      | special => cases q <;> cases he
    obtain ⟨inner', hinner⟩ : ∃ inner', (FileEntry.directory innerMode inner).update q
        (.addChild name (.file fileMode content)) = .directory innerMode inner' := by
      cases q <;> exact ⟨_, rfl⟩
    exact perm_map_located_of_updateChild hf hchild hinner (ih (hf.cons next) he hinner.symm)

end Update

/-- The entry of an archive for a regular file that names lead to. -/
def fileEntry (path : List String) (mode : Nat) (content : ByteArray) : Zip.Entry :=
  .file (pathName path) (options mode) content.data.toList

/-- It is the entry of such a file. -/
theorem entryOf?_file (path : List String) (mode : Nat) (content : ByteArray) :
    entryOf? (path, .file mode content) = some (fileEntry path mode content) := by
  rw [entryOf?, memberName, mark, String.append_empty]
  rfl

/-- A permutation of the entries for what is located is one of the entries that there are. -/
theorem perm_filterMap_entryOf? {found found' : List (List String × FileEntry)}
    (h : (found.map entryOf?).Perm (found'.map entryOf?)) :
    (found.filterMap entryOf?).Perm (found'.filterMap entryOf?) := by
  have hmap : ∀ l : List (List String × FileEntry),
      l.filterMap entryOf? = (l.map entryOf?).filterMap id := fun l => by
    rw [List.filterMap_map]
    rfl
  rw [hmap, hmap]
  exact h.filterMap id

/-- A path to a directory leads to it without its single points. -/
theorem walk_route {t : FileTree} {dir : String} {names : List String} {mode : Nat}
    {children : List (String × FileEntry)}
    (h : t.resolve dir = .ok (names, .directory mode children)) :
    FileTree.walk t.root FileTree.maxLinks
      (if FilePath.isAbsolute dir then [] else t.workingDirectory) (FilePath.route dir) =
        .ok (names, .directory mode children) :=
  FileTree.walk_dotsLeft (FileTree.resolve_eq_ok_iff.mp h).2.2.2 (.filter _)

/-! ## Packing -/

section Packing

variable [P : Packer]

/-- **What is packed can be copied**: if the scratch file is among it, that has a content while the
archive is written. -/
def Copies (s : ScratchFile) (here : List String)
    (members : List (List String × FileEntry)) : Prop :=
  ∀ member ∈ members, entryOf? member ≠ none → here ++ member.1 = s.directory ++ [s.name] →
    Packer.copyFault? = none

/-- An entry is added if the library takes it and its content can be copied. -/
theorem addMember_eq_ok_iff {s : ScratchFile} {dir : String} {here : List String}
    {es es' : List Zip.Entry} {member : List String × FileEntry} :
    (addMember s dir here es member).result = .ok es' ↔
      (∀ entry, entryOf? member = some entry → P.zip.refusal? es entry = none ∧
        (here ++ member.1 = s.directory ++ [s.name] → Packer.copyFault? = none)) ∧
      es ++ (entryOf? member).toList = es' := by
  rw [addMember]
  cases hentry : entryOf? member with
  | none => simp
  | some entry =>
    dsimp only
    rcases hrefusal : P.zip.refusal? es entry with _ | refusal
    · by_cases hown : here ++ member.1 = s.directory ++ [s.name] <;>
        cases hfault : Packer.copyFault? (P := P) <;>
          simp [copyFault?, hrefusal, hown, hfault, Report.fail, pure]
    · cases refusal with
      | repeatedName => simp [hrefusal, Report.fail]
      | tooLarge =>
        by_cases hown : here ++ member.1 = s.directory ++ [s.name] <;>
          cases hfault : Packer.copyFault? (P := P) <;>
            simp [copyFault?, hrefusal, hown, hfault, Report.fail]

/-- **Entries are added in turn**, if the library takes them and all can be copied. -/
theorem foldlM_addMember_eq_ok_iff {s : ScratchFile} {dir : String} {here : List String}
    {es es' : List Zip.Entry} {members : List (List String × FileEntry)} :
    (members.foldlM (addMember s dir here) es).result = .ok es' ↔
      P.zip.Accepts es (members.filterMap entryOf?) ∧ Copies s here members ∧
        es ++ members.filterMap entryOf? = es' := by
  induction members generalizing es with
  | nil => simp [Copies, Zip.Library.Accepts, pure]
  | cons member members ih =>
    rw [List.foldlM_cons, Report.result_bind, Except.bind_eq_ok_iff]
    simp only [addMember_eq_ok_iff, ih]
    cases hentry : entryOf? member with
    | none => simp [Copies, hentry]
    | some entry =>
      rw [List.filterMap_cons_some hentry]
      simp only [Copies, List.forall_mem_cons]
      constructor
      · rintro ⟨_, ⟨hadded, rfl⟩, haccepts, hcopies, rfl⟩
        obtain ⟨hrefusal, hown⟩ := hadded entry rfl
        exact ⟨⟨hrefusal, haccepts⟩, ⟨fun _ => hown, hcopies⟩, List.append_cons _ _ _⟩
      · rintro ⟨⟨hrefusal, haccepts⟩, ⟨hown, hcopies⟩, rfl⟩
        have hsome : entryOf? member ≠ none := by simp [hentry]
        refine ⟨_, ⟨?_, rfl⟩, haccepts, hcopies, (List.append_cons _ _ _).symm⟩
        rintro _ ⟨⟩
        exact ⟨hrefusal, hown hsome⟩

/-- When an archive has entries, and which: the library takes all that are located, in the order of
their names. -/
theorem entriesAt_eq_ok_iff {t : FileTree} {dir : String} {s : ScratchFile}
    {es : List Zip.Entry} :
    (entriesAt t dir s).result = .ok es ↔
      ∃ here mode children, t.resolve dir = .ok (here, .directory mode children) ∧
        longPath? dir children = none ∧ Copies s here (sortedMembers children) ∧
        P.zip.Accepts [] es ∧ (sortedMembers children).filterMap entryOf? = es := by
  rw [entriesAt]
  split
  case h_1 here mode children hresolve =>
    split
    case h_1 path hlong =>
      refine iff_of_false (by rintro ⟨⟩) ?_
      rintro ⟨_, _, _, hresolve', hlong', -⟩
      cases hresolve.symm.trans hresolve'
      rw [hlong] at hlong'
      cases hlong'
    case h_2 hlong =>
      rw [Report.result_bind, Except.bind_eq_ok_iff]
      simp only [foldlM_addMember_eq_ok_iff, List.nil_append]
      constructor
      · rintro ⟨_, ⟨haccepts, hcopies, rfl⟩, hes⟩
        obtain rfl := Except.ok.inj hes
        exact ⟨here, mode, children, hresolve, hlong, hcopies, haccepts, rfl⟩
      · rintro ⟨_, _, _, hresolve', -, hcopies, haccepts, rfl⟩
        cases hresolve.symm.trans hresolve'
        exact ⟨_, ⟨haccepts, hcopies, rfl⟩, rfl⟩
  case h_2 found hnone hresolve =>
    refine iff_of_false (by rintro ⟨⟩) ?_
    rintro ⟨_, _, _, hresolve', -⟩
    cases hresolve.symm.trans hresolve'
    exact hnone _ _ _ rfl
  case h_3 fault hresolve =>
    refine iff_of_false (by rintro ⟨⟩) ?_
    rintro ⟨_, _, _, hresolve', -⟩
    cases hresolve.symm.trans hresolve'

/-- **The directory at a path is packed**: a scratch file is chosen, and there are entries for the
archive. -/
structure Packs (t : FileTree) (dir : String) (s : ScratchFile) (es : List Zip.Entry) : Prop where
  choose_eq : ScratchFile.choose t dir = .ok s
  entries_eq : (entriesAt (s.addTo t Packer.found) dir s).result = .ok es

/-- What goes on with an archive that is packed finds the entries in the scratch file, after what is
told about them. -/
theorem Packs.pack_eq_within {α : Type} {t : FileTree} {dir : String} {s : ScratchFile}
    {es : List Zip.Entry} (h : Packs t dir s es) (body : String → Compose α) :
    pack dir body t = s.within (P.zip.write es)
      (Compose.ofReport ⟨(entriesAt (s.addTo t Packer.found) dir s).events, .ok ()⟩ >>= fun _ =>
        body s.path) t := by
  rw [pack_apply, h.choose_eq]
  dsimp only
  rw [show entriesAt (s.addTo t Packer.found) dir s = ⟨_, .ok es⟩ from
    congrArg (Report.mk _) h.entries_eq]

/-- The same, whatever is told. -/
theorem Packs.pack_eq {α : Type} {t : FileTree} {dir : String} {s : ScratchFile}
    {es : List Zip.Entry} (h : Packs t dir s es) (body : String → Compose α) :
    ∃ events, pack dir body t = s.within (P.zip.write es)
      (Compose.ofReport ⟨events, .ok ()⟩ >>= fun _ => body s.path) t :=
  ⟨_, h.pack_eq_within body⟩

/-- Packing a directory has the result of what goes on with its archive. -/
theorem Packs.pack_resultAt {α : Type} {t : FileTree} {dir : String} {s : ScratchFile}
    {es : List Zip.Entry} (h : Packs t dir s es) (body : String → Compose α) :
    (pack dir body).resultAt t = (body s.path).resultAt (s.addTo t (P.zip.write es)) := by
  rw [Compose.resultAt, h.pack_eq_within]
  rfl

/-- Nothing goes on unless a directory is packed. -/
theorem exists_packs_of_pack_eq_ok {α : Type} {t : FileTree} {dir : String}
    {body : String → Compose α} {a : α} (h : (pack dir body).resultAt t = .ok a) :
    ∃ s es, Packs t dir s es := by
  rw [Compose.resultAt, pack_apply] at h
  cases hchoose : ScratchFile.choose t dir with
  | error failure => rw [hchoose] at h; cases h
  | ok s =>
    rw [hchoose] at h
    dsimp only at h
    rcases hentries : entriesAt (s.addTo t Packer.found) dir s with ⟨events, failure | es⟩
    · rw [hentries] at h
      cases h
    · exact ⟨s, es, hchoose, by rw [hentries]⟩

/-- The entries of an archive are those of what is located in the directory, under distinct names,
as the library refuses repeated ones. -/
theorem perm_of_accepts {children : List (String × FileEntry)} {es : List Zip.Entry}
    (hzip : P.zip.Lawful) (haccepts : P.zip.Accepts [] es)
    (hes : (sortedMembers children).filterMap entryOf? = es) :
    es.Perm ((located children).filterMap entryOf?) ∧ (es.map (·.name)).Nodup := by
  refine ⟨?_, hzip.nodup_names haccepts List.nodup_nil⟩
  rw [← hes]
  exact (List.mergeSort_perm _ _).filterMap _

/-- **Whether the scratch file is below the directory** decides what the archive describes: the
directory as it was, or one more entry, with the name of the scratch file.

**Proof sketch.** The path leads to the directory while the scratch file is there as it did before.
If the scratch file is not below it, the directory is as it was, and its entries describe it.
Otherwise the scratch file is one more regular file, with a name in the archive that no other entry
has. -/
theorem Packs.describes_iff_not_below (hzip : P.zip.Lawful) {t : FileTree} {dir : String}
    {s : ScratchFile} {es : List Zip.Entry} (h : Packs t dir s es) :
    ∃ names mode children, t.resolve dir = .ok (names, .directory mode children) ∧
      (Describes children es ↔ ¬ names <+: s.directory) ∧
      ∀ q, s.directory = names ++ q → ∃ entry others, entry.name = pathName (q ++ [s.name]) ∧
        es.Perm (entry :: others) ∧ Describes children others := by
  obtain ⟨dirMode, beside, hparent, -⟩ := ScratchFile.exists_directory_of_choose h.choose_eq
  obtain ⟨names, mode, after, hafter, -, -, haccepts, hes⟩ := entriesAt_eq_ok_iff.mp h.entries_eq
  have hdirectory := FileTree.get?_of_resolve hparent
  obtain ⟨before, hbefore, hchange⟩ := FileTree.resolve_of_add hdirectory hafter
  obtain ⟨hperm, hdistinct⟩ := perm_of_accepts hzip haccepts hes
  refine ⟨names, mode, before, hbefore, ?_⟩
  rcases hchange with ⟨q, hq, hupdate⟩ | ⟨hbeside, rfl⟩
  · -- The scratch file is below the directory.
    have hinside : (FileEntry.directory mode before).get? q = some (.directory dirMode beside) := by
      rw [hq, FileEntry.get?_append, FileTree.get?_of_resolve hbefore] at hdirectory
      exact hdirectory
    have hadded : ((located after).filterMap entryOf?).Perm
        (((q ++ [s.name], .file 0o600 ⟨P.found.toArray⟩) :: located before).filterMap entryOf?) :=
      perm_filterMap_entryOf? (perm_map_located_of_update shallow_entryOf? hinside hupdate)
    rw [List.filterMap_cons_some (entryOf?_file _ _ _)] at hadded
    have hmore := hperm.trans hadded
    have hnodup := (hmore.map (·.name)).nodup_iff.mp hdistinct
    have hothers := describes_of_perm (.refl _) (List.nodup_cons.mp hnodup).2
    have hbelow : names <+: s.directory := ⟨q, hq.symm⟩
    refine ⟨iff_of_false (hothers.not_cons hmore hdistinct) (not_not_intro hbelow), ?_⟩
    intro q' hq'
    obtain rfl := List.append_cancel_left (hq.symm.trans hq')
    exact ⟨_, _, rfl, hmore, hothers⟩
  · refine ⟨iff_of_true (describes_of_perm hperm hdistinct) hbeside, ?_⟩
    rintro q hq
    exact absurd ⟨q, hq.symm⟩ hbeside

section Paths

variable {t : FileTree} {dir : String} {s : ScratchFile} {names : List String} {mode : Nat}
  {children : List (String × FileEntry)}

/-- **The last name of a path** leads on from the directory beside which the archive is written. -/
theorem exists_walk_of_route {front : List String} {name : String}
    (hchoose : ScratchFile.choose t dir = .ok s)
    (h : t.resolve dir = .ok (names, .directory mode children))
    (hroute : FilePath.route dir = front ++ [name]) :
    ∃ left, FileTree.walk t.root left s.directory [name] =
      .ok (names, .directory mode children) := by
  obtain ⟨dirMode, beside, hparent, -⟩ := ScratchFile.exists_directory_of_choose hchoose
  obtain ⟨hfront, habsolute⟩ := FilePath.route_parentPath hroute
  have hwalk := walk_route hparent
  rw [hfront, habsolute] at hwalk
  obtain ⟨left, hleft⟩ := FileTree.walk_append hwalk
  exact ⟨left, by rw [← hleft, ← hroute, walk_route h]⟩

/-- **A path that ends with a name** leads to what has this name beside the archive, unless that is
a link. -/
theorem names_eq_of_fileName? {name : String} (hchoose : ScratchFile.choose t dir = .ok s)
    (h : t.resolve dir = .ok (names, .directory mode children))
    (hname : FilePath.fileName? dir = some name)
    (hlink : ∀ target, t.root.get? (s.directory ++ [name]) ≠ some (.link target)) :
    names = s.directory ++ [name] := by
  rw [FilePath.fileName?_eq, Option.filter_eq_some_iff] at hname
  obtain ⟨hlast, hup⟩ := hname
  obtain ⟨front, hroute⟩ := List.getLast?_eq_some_iff.mp hlast
  have hmem : name ∈ FilePath.route dir := by simp [hroute]
  have hpoint : name ≠ "." := by simpa using (List.mem_filter.mp hmem).2
  obtain ⟨left, hwalk⟩ := exists_walk_of_route hchoose h hroute
  exact FileTree.eq_of_walk_singleton ⟨hpoint, by simpa using hup⟩ hlink hwalk

/-- **A path that ends with no name** leads to the directory of the archive or above it. -/
theorem below_of_fileName?_eq_none (hchoose : ScratchFile.choose t dir = .ok s)
    (h : t.resolve dir = .ok (names, .directory mode children))
    (hname : FilePath.fileName? dir = none) : names <+: s.directory := by
  rcases List.eq_nil_or_concat (FilePath.route dir) with hnil | ⟨front, last, hlast⟩
  · -- The archive is where relative paths start from.
    obtain ⟨dirMode, beside, hparent, -⟩ := ScratchFile.exists_directory_of_choose hchoose
    rw [FilePath.parentPath_of_route_eq_nil hnil] at hparent
    have hpoint : FilePath.route "." = [] := by decide +kernel
    have hrelative : FilePath.isAbsolute "." = false := by decide +kernel
    have hbeside := walk_route hparent
    rw [hpoint, hrelative, if_neg Bool.false_ne_true] at hbeside
    have hwalk := walk_route h
    rw [hnil] at hwalk
    rw [FileTree.eq_of_walk_nil hwalk, FileTree.eq_of_walk_nil hbeside]
    split
    · exact List.nil_prefix
    · exact List.prefix_rfl
  · rw [List.concat_eq_append] at hlast
    obtain rfl : last = ".." := by
      rw [FilePath.fileName?_eq, hlast, List.getLast?_concat] at hname
      simpa [Option.filter] using hname
    obtain ⟨left, hwalk⟩ := exists_walk_of_route hchoose h hlast
    rw [FileTree.eq_of_walk_up hwalk]
    exact List.dropLast_prefix _

end Paths

/-- **What the archive of a directory describes**, for each path that is packed: the directory as
it was, if and only if the scratch file is not below it.  So it is if the path ends with a name that
is not that of a link, but never if the path ends in points.  Otherwise there is one more entry,
with the name of the scratch file.

**Proof sketch.** Only the directory of the scratch file and those above it change while it is
there, and a path that leads to a directory then led to it before.  The archive is written to the
directory that the path leads to without its last name, so that a name leads beside the archive; a
single point leads to its directory, and two lead above it. -/
theorem pack_describes (hzip : P.zip.Lawful) {t : FileTree} {dir path : String}
    (h : (pack dir pure).resultAt t = .ok path) :
    ∃ s es names mode children, Packs t dir s es ∧ s.path = path ∧
      t.resolve dir = .ok (names, .directory mode children) ∧
      (Describes children es ↔ ¬ names <+: s.directory) ∧
      (∀ name, FilePath.fileName? dir = some name →
        (∀ target, t.root.get? (s.directory ++ [name]) ≠ some (.link target)) →
          Describes children es) ∧
      (FilePath.fileName? dir = none → ¬ Describes children es) ∧
      ∀ q, s.directory = names ++ q → ∃ entry others, entry.name = pathName (q ++ [s.name]) ∧
        es.Perm (entry :: others) ∧ Describes children others := by
  obtain ⟨s, es, hpacks⟩ := exists_packs_of_pack_eq_ok h
  obtain ⟨names, mode, children, hresolve, hiff, hmore⟩ := hpacks.describes_iff_not_below hzip
  have hpath : s.path = path := by
    obtain ⟨events, hpack⟩ := hpacks.pack_eq pure
    rw [Compose.resultAt, hpack] at h
    exact Except.ok.inj h
  refine ⟨s, es, names, mode, children, hpacks, hpath, hresolve, hiff, ?_, ?_, hmore⟩
  · intro name hname hlink
    have hnames := names_eq_of_fileName? hpacks.choose_eq hresolve hname hlink
    refine hiff.mpr fun hbelow => ?_
    have hlength := hbelow.length_le
    rw [hnames, List.length_append, List.length_singleton] at hlength
    omega
  · intro hname
    rw [hiff]
    exact not_not_intro (below_of_fileName?_eq_none hpacks.choose_eq hresolve hname)

/-- There are entries for a plain archive if no path is too long, all names are distinct and there
is room. -/
theorem exists_packs {t : FileTree} {dir : String} {s : ScratchFile} {names : List String}
    {mode : Nat} {children : List (String × FileEntry)} (hzip : P.zip = .plain)
    (hcopied : Packer.copyFault? = none) (hchoose : ScratchFile.choose t dir = .ok s)
    (hresolve : (s.addTo t Packer.found).resolve dir = .ok (names, .directory mode children))
    (hlong : longPath? dir children = none)
    (hdistinct : (((located children).filterMap entryOf?).map (·.name)).Nodup)
    (hfits : Zip.Fits ((located children).filterMap entryOf?)) :
    ∃ es, Packs t dir s es := by
  have hperm := (List.mergeSort_perm (located children) fun a b =>
    memberName a.1 a.2 ≤ memberName b.1 b.2).filterMap entryOf?
  have haccepts : P.zip.Accepts [] ((sortedMembers children).filterMap entryOf?) := by
    rw [hzip]
    exact Zip.Library.accepts_plain ((hperm.map (·.name)).nodup_iff.mpr hdistinct)
      (Zip.Library.fits_of_perm hperm.symm hfits)
  exact ⟨_, hchoose, entriesAt_eq_ok_iff.mpr
    ⟨names, mode, children, hresolve, hlong, fun _ _ _ _ => hcopied, haccepts, rfl⟩⟩

/-- Packing a directory gives the path of its archive. -/
theorem Packs.pack_pure {t : FileTree} {dir : String} {s : ScratchFile} {es : List Zip.Entry}
    (h : Packs t dir s es) : (pack dir pure).resultAt t = .ok s.path := by
  rw [Compose.resultAt, h.pack_eq_within]
  rfl

end Packing

/-! ## A directory with one file -/

/-- A tree with a directory of one file. -/
def appTree : FileTree where
  root := .directory 0o755
    [("app", .directory 0o755 [("index.js", .file 0o644 "exports.main = 1".toUTF8)])]

/-- A single point leads to the root, if relative paths start there. -/
theorem resolve_point {u : FileTree} (hstart : u.workingDirectory = []) :
    u.resolve "." = .ok ([], u.root) := by
  refine FileTree.resolve_eq_ok_iff.mpr ⟨by decide +kernel, by decide +kernel,
    by decide +kernel, ?_⟩
  have hsteps : FileTree.steps "." = ["."] := by decide +kernel
  rw [hstart, ite_self, hsteps, FileTree.walk, if_pos rfl, FileTree.walk]
  rfl

/-- A name leads to a directory in the root, if relative paths start there. -/
theorem resolve_app {u : FileTree} {mode : Nat} {children : List (String × FileEntry)}
    (hstart : u.workingDirectory = [])
    (h : u.root.get? ["app"] = some (.directory mode children)) :
    u.resolve "app" = .ok (["app"], .directory mode children) := by
  refine FileTree.resolve_eq_ok_iff.mpr ⟨by decide +kernel, by decide +kernel,
    by decide +kernel, ?_⟩
  have hsteps : FileTree.steps "app" = ["app"] := by decide +kernel
  rw [hstart, ite_self, hsteps]
  exact FileTree.walk_singleton (by decide) (by decide) h

/-- The archive of a directory in the root is written to the root, if a file can have its name. -/
theorem choose_root [P : Packer] {t : FileTree} {mode : Nat} {children : List (String × FileEntry)}
    {name : String} (dir : String) (hstart : t.workingDirectory = [])
    (hroot : t.root = .directory mode children) (h : ScratchFile.parentPath dir = ".")
    (hname : ScratchFile.newName? (ScratchFile.stem dir) (children.map (·.1)) P.draws = some name)
    (hfault : ScratchFile.fault? name (FilePath.join "." name) = none) :
    ScratchFile.choose t dir = .ok ⟨[], name, FilePath.join "." name⟩ := by
  refine ScratchFile.choose_eq_ok_iff.mpr ⟨mode, children, ?_, hname, by rw [h], hfault⟩
  rw [h, resolve_point hstart, hroot]

attribute [local instance] onePacker

/-- The archive of a directory whose path ends with its name describes it. -/
theorem pack_describes_app :
    ∃ path es mode children, onePacker.zip.Lawful ∧
      (pack "app" pure).resultAt appTree = .ok path ∧
      (∃ s, Packs appTree "app" s es ∧ s.path = path) ∧
      appTree.resolve "app" = .ok (["app"], .directory mode children) ∧ Describes children es := by
  have hname : ScratchFile.newName? (ScratchFile.stem "app") ["app"] onePacker.draws =
      some "app.a1B2c3.zip" := by decide +kernel
  have hchoose := choose_root (t := appTree) "app" rfl rfl (by decide +kernel)
    hname (by decide +kernel)
  obtain ⟨_, hpacked⟩ := exists_packs rfl rfl hchoose (resolve_app rfl rfl) (by decide +kernel)
    (by decide +kernel) (by decide +kernel)
  obtain ⟨s, es, names, mode, children, hpacks, hpath, hresolve, -, hnamed, -⟩ :=
    pack_describes Zip.Library.lawful_plain hpacked.pack_pure
  obtain rfl : s = _ := Except.ok.inj (hpacks.choose_eq.symm.trans hchoose)
  have hfound : appTree.resolve "app" = _ := resolve_app rfl rfl
  cases hresolve.symm.trans hfound
  have hlink : ∀ target, appTree.root.get? ([] ++ ["app"]) ≠ some (.link target) := nofun
  exact ⟨_, es, _, _, Zip.Library.lawful_plain, hpacked.pack_pure, ⟨_, hpacks, hpath⟩, hresolve,
    hnamed "app" (by decide +kernel) hlink⟩

/-- The archive of a directory whose path ends in a point has one more entry: its own file. -/
theorem pack_point_describes_more :
    ∃ path s es mode children entry, onePacker.zip.Lawful ∧
      (pack "." pure).resultAt appTree = .ok path ∧
      Packs appTree "." s es ∧ s.path = path ∧
      appTree.resolve "." = .ok ([], .directory mode children) ∧
      ¬ Describes children es ∧ entry ∈ es ∧ entry.name = s.name := by
  have hname : ScratchFile.newName? (ScratchFile.stem ".") ["app"] onePacker.draws =
      some "action.a1B2c3.zip" := by decide +kernel
  have hchoose := choose_root (t := appTree) "." rfl rfl (by decide +kernel)
    hname (by decide +kernel)
  obtain ⟨es, hpacks⟩ := exists_packs rfl rfl hchoose (resolve_point rfl) (by decide +kernel)
    (by decide +kernel) (by decide +kernel)
  obtain ⟨names, mode, children, hresolve, hiff, hmore⟩ :=
    hpacks.describes_iff_not_below Zip.Library.lawful_plain
  obtain rfl : names = [] :=
    (congrArg Prod.fst (Except.ok.inj (hresolve.symm.trans (resolve_point rfl))))
  obtain ⟨entry, others, hname, hperm, -⟩ := hmore [] rfl
  exact ⟨_, _, es, mode, children, entry, Zip.Library.lawful_plain, hpacks.pack_pure, hpacks, rfl,
    hresolve, fun h => hiff.mp h List.nil_prefix, hperm.mem_iff.mpr List.mem_cons_self,
    hname.trans (by decide +kernel)⟩

end Archive

end DeployPlan
