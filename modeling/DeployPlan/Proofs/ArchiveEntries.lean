import DeployPlan.Proofs.Archive
import DeployPlan.Proofs.ListingOrder
import DeployPlan.Proofs.Zip
import Mathlib.Data.List.Pairwise

/-!
# The entries of an archive

An archive lists what is below a directory: one entry for each directory and each regular file,
with its path, its permission bits, its content and the first moment of the format, in the order of
the bytes of the names.  The order in which the directories list their entries makes no difference,
nor does the name of the scratch file, unless that is below the directory.

## Main definitions

* `Archive.relativeName` — a path below a directory, as it is written in an archive.
* `Archive.Recorded` — an entry records a directory or a regular file.
* `Archive.Lists` — entries list what is below a directory.

## Main results

* `Archive.lists_of_distinct` — the entries of a directory list what is below it.
* `Archive.perm_map_located_of_reordered` — the order in which directories list their entries makes
  no difference to what is located.
* `Archive.Packs.of_reordered` — nor does it to an archive.
* `Archive.Packs.of_draws` — nor does what is drawn for the name of the scratch file.
* `Archive.pack_lists` — what the archive of a directory lists.
-/

set_option autoImplicit false

namespace DeployPlan

namespace Archive

/-! ## Names -/

/-- A path below a directory, as it is written in an archive: with slashes between the names, and
in place of backslashes. -/
def relativeName (path : List String) : String := slashed ("/".intercalate path)

/-- Texts one after the other are written in an archive one after the other. -/
theorem slashed_append (a b : String) : slashed (a ++ b) = slashed a ++ slashed b := by
  simp [slashed]

/-- A slash is written as it is. -/
theorem slashed_slash : slashed "/" = "/" := by decide +kernel

/-- The names of a path are written one by one. -/
theorem relativeName_eq (path : List String) : relativeName path = pathName path := by
  induction path with
  | nil => decide +kernel
  | cons name path ih =>
    cases path with
    | nil => rw [relativeName, String.intercalate_singleton]; rfl
    | cons next path =>
      rw [pathName_cons name (List.cons_ne_nil _ _), ← ih, relativeName, relativeName,
        String.intercalate_cons_cons, slashed_append, slashed_append, slashed_slash]

/-- A path that goes on is written in turn. -/
theorem relativeName_append {path rest : List String} (hpath : path ≠ []) (hrest : rest ≠ []) :
    relativeName (path ++ rest) = relativeName path ++ "/" ++ relativeName rest := by
  rw [relativeName, String.intercalate_append_of_ne_nil hpath hrest, slashed_append,
    slashed_append, slashed_slash, relativeName, relativeName]

/-- **An entry records** a directory or a regular file that names lead to: with its permission bits
below those for its kind, with the first moment of the format, and a file deflated. -/
inductive Recorded (path : List String) : FileEntry → Zip.Entry → Prop
  | directory (mode : Nat) (children : List (String × FileEntry)) :
    Recorded path (.directory mode children)
      ⟨relativeName path ++ "/", 0o40000 + mode % 0o1000, .stored, .first, []⟩
  | file (mode : Nat) (content : ByteArray) :
    Recorded path (.file mode content)
      ⟨relativeName path, 0o100000 + mode % 0o1000, .deflated, .first, content.data.toList⟩

/-- What is recorded gets an entry in an archive. -/
theorem entryOf?_eq_some_iff {path : List String} {e : FileEntry} {entry : Zip.Entry} :
    entryOf? (path, e) = some entry ↔ Recorded path e entry := by
  constructor
  · intro h
    cases e with
    | file mode content =>
      rw [entryOf?_file, fileEntry, ← relativeName_eq] at h
      obtain rfl := Option.some.inj h
      exact .file mode content
    | directory mode children =>
      rw [entryOf?, memberName, mark, ← relativeName_eq] at h
      obtain rfl := Option.some.inj h
      exact .directory mode children
    | link target => cases h
    | special => cases h
  · rintro (⟨mode, children⟩ | ⟨mode, content⟩)
    · rw [entryOf?, memberName, mark, ← relativeName_eq]
      rfl
    · rw [entryOf?_file, fileEntry, ← relativeName_eq]
      rfl

/-- What has an entry is written as a file or as a directory. -/
theorem written_of_entryOf? {member : List String × FileEntry} {entry : Zip.Entry}
    (h : entryOf? member = some entry) : entry.Written := by
  obtain ⟨path, e⟩ := member
  cases e with
  | file mode content =>
    obtain rfl := Option.some.inj h
    exact .file _ _ _
  | directory mode children =>
    obtain rfl := Option.some.inj h
    exact .directory _ _
  | link target => cases h
  | special => cases h

/-! ## What an archive lists -/

/-- **Entries list what is below a directory**: each directory and each regular file has an entry,
each entry is that of one of them alone, and they are in the order of the bytes of their names, so
that directories come before what is in them. -/
structure Lists (children : List (String × FileEntry)) (es : List Zip.Entry) : Prop where
  directory : ∀ path mode inner, Below children path (.directory mode inner) →
    ⟨relativeName path ++ "/", 0o40000 + mode % 0o1000, .stored, .first, []⟩ ∈ es
  file : ∀ path mode content, Below children path (.file mode content) →
    ⟨relativeName path, 0o100000 + mode % 0o1000, .deflated, .first, content.data.toList⟩ ∈ es
  alone : ∀ entry ∈ es, ∃! found : List String × FileEntry,
    Below children found.1 found.2 ∧ Recorded found.1 found.2 entry
  increasing : es.Pairwise fun a b => Zip.nameBytes a < Zip.nameBytes b
  before : ∀ path mode inner rest e entry entry', Below children path (.directory mode inner) →
    Below inner rest e → Recorded path (.directory mode inner) entry →
      Recorded (path ++ rest) e entry' → [entry, entry'].Sublist es

/-- The entry of a member has its name. -/
theorem entry_name_eq {member : List String × FileEntry} {entry : Zip.Entry}
    (h : entryOf? member = some entry) : entry.name = memberName member.1 member.2 := by
  obtain ⟨path, e⟩ := member
  cases e <;> cases h <;> rfl

/-- **Entries in the order of their names**, which are distinct, are in strict order. -/
theorem pairwise_name_lt {children : List (String × FileEntry)}
    (hdistinct : (((sortedMembers children).filterMap entryOf?).map (·.name)).Nodup) :
    ((sortedMembers children).filterMap entryOf?).Pairwise fun a b => a.name < b.name := by
  have hmembers : (sortedMembers children).Pairwise fun a b =>
      memberName a.1 a.2 ≤ memberName b.1 b.2 := by
    refine (List.pairwise_mergeSort ?_ ?_ (located children)).imp fun hle => of_decide_eq_true hle
    · intro a b c hab hbc
      exact decide_eq_true (le_trans (of_decide_eq_true hab) (of_decide_eq_true hbc))
    · intro a b
      simpa using le_total (memberName a.1 a.2) (memberName b.1 b.2)
  have hentries : ((sortedMembers children).filterMap entryOf?).Pairwise
      fun a b => a.name ≤ b.name := by
    refine List.pairwise_filterMap.mpr (hmembers.imp ?_)
    intro a b hle entry hentry entry' hentry'
    rw [entry_name_eq hentry, entry_name_eq hentry']
    exact hle
  exact (hentries.and (List.pairwise_map.mp hdistinct)).imp fun hboth =>
    lt_of_le_of_ne hboth.1 hboth.2

/-- **Different entries have different names**: an entry is that of one thing alone. -/
theorem eq_of_recorded {children : List (String × FileEntry)}
    (hnames : (((located children).filterMap entryOf?).map (·.name)).Nodup)
    {path path' : List String} {e e' : FileEntry} {entry entry' : Zip.Entry}
    (hbelow : Below children path e) (hbelow' : Below children path' e')
    (hrecorded : Recorded path e entry) (hrecorded' : Recorded path' e' entry')
    (hname : entry.name = entry'.name) : path = path' ∧ e = e' := by
  have hlocated := List.pairwise_filterMap.mp (List.pairwise_map.mp hnames)
  have hapart : (located children).Pairwise fun a b => ∀ x y, Recorded a.1 a.2 x →
      Recorded b.1 b.2 y → x.name ≠ y.name :=
    hlocated.imp fun hne x y hx hy =>
      hne x (entryOf?_eq_some_iff.mpr hx) y (entryOf?_eq_some_iff.mpr hy)
  have hsymm : Std.Symm fun a b : List String × FileEntry => ∀ x y, Recorded a.1 a.2 x →
      Recorded b.1 b.2 y → x.name ≠ y.name :=
    ⟨fun a b hab x y hx hy => (hab y x hy hx).symm⟩
  by_contra hne
  have hfound : (path, e) ≠ (path', e') := fun heq => hne (Prod.mk.inj heq)
  exact hapart.forall ((mem_located_iff _ _ _).mpr hbelow) ((mem_located_iff _ _ _).mpr hbelow')
    hfound entry entry' hrecorded hrecorded' hname

/-- What comes before something else in an order comes before it in a list in this order. -/
theorem pair_sublist {α : Type} {r : α → α → Prop} {l : List α} {a b : α} (h : l.Pairwise r)
    (ha : a ∈ l) (hb : b ∈ l) (hne : a ≠ b) (hba : ¬ r b a) : [a, b].Sublist l := by
  obtain ⟨front, back, rfl⟩ := List.append_of_mem ha
  have hback : b ∈ back := by
    rcases List.mem_append.mp hb with hfront | hmem
    · exact absurd ((List.pairwise_append.mp h).2.2 b hfront a List.mem_cons_self) hba
    · exact (List.mem_cons.mp hmem).resolve_left hne.symm
  exact (List.Sublist.cons_cons a (List.singleton_sublist.mpr hback)).trans
    (List.sublist_append_right front _)

/-- The name of what is in a directory goes on from that of the directory. -/
theorem exists_name_eq {path rest : List String} {mode : Nat} {e : FileEntry}
    {inner : List (String × FileEntry)} {entry entry' : Zip.Entry} (hpath : path ≠ [])
    (hrest : rest ≠ []) (h : Recorded path (.directory mode inner) entry)
    (h' : Recorded (path ++ rest) e entry') : ∃ more, entry'.name = entry.name ++ more := by
  have hname := relativeName_append hpath hrest
  cases h
  cases h' with
  | directory mode' children =>
    exact ⟨relativeName rest ++ "/", by dsimp only; rw [hname, String.append_assoc]⟩
  | file mode' content => exact ⟨relativeName rest, hname⟩

/-- What is in a directory below another is below that. -/
theorem Below.append {children inner : List (String × FileEntry)} {path rest : List String}
    {mode : Nat} {e : FileEntry} (h : Below children path (.directory mode inner))
    (hrest : Below inner rest e) : Below children (path ++ rest) e := by
  generalize hdirectory : FileEntry.directory mode inner = d at h
  induction h with
  | here hmem =>
    subst hdirectory
    exact .inside hmem hrest
  | inside hmem _ ih => exact .inside hmem (ih hdirectory)

/-- **The entries of a directory list what is below it.**

**Proof sketch.** The entries are those of what is below, in the order of their names, which is that
of their bytes.  As their names are distinct, no two of them are of the same thing.  The name of
what is in a directory goes on from that of the directory, so that it comes later. -/
theorem lists_of_distinct {children : List (String × FileEntry)} {es : List Zip.Entry}
    (hes : (sortedMembers children).filterMap entryOf? = es) (hdistinct : (es.map (·.name)).Nodup) :
    Lists children es := by
  have hperm : es.Perm ((located children).filterMap entryOf?) :=
    hes ▸ (List.mergeSort_perm _ _).filterMap _
  have hnames := (hperm.map (·.name)).nodup_iff.mp hdistinct
  have hmem : ∀ {entry}, entry ∈ es ↔ ∃ path e, Below children path e ∧ Recorded path e entry := by
    intro entry
    simp only [(describes_of_perm hperm hdistinct).entries, entryOf?_eq_some_iff]
  have hsorted : es.Pairwise fun a b => a.name < b.name := hes ▸ pairwise_name_lt (hes ▸ hdistinct)
  refine ⟨fun path mode inner hbelow => hmem.mpr ⟨path, _, hbelow, .directory mode inner⟩,
    fun path mode content hbelow => hmem.mpr ⟨path, _, hbelow, .file mode content⟩, ?_,
    hsorted.imp fun hlt => (Text.lt_iff_bytes _ _).mp hlt, ?_⟩
  · intro entry hentry
    obtain ⟨path, e, hbelow, hrecorded⟩ := hmem.mp hentry
    refine ⟨(path, e), ⟨hbelow, hrecorded⟩, ?_⟩
    rintro ⟨path', e'⟩ ⟨hbelow', hrecorded'⟩
    obtain ⟨rfl, rfl⟩ := eq_of_recorded hnames hbelow hbelow' hrecorded hrecorded' rfl
    rfl
  · intro path mode inner rest e entry entry' hdirectory hinner hentry hentry'
    have hbelow := hdirectory.append hinner
    have hne : entry.name ≠ entry'.name := by
      intro hname
      have hpath := (eq_of_recorded hnames hdirectory hbelow hentry hentry' hname).1
      exact hinner.ne_nil (List.self_eq_append_right.mp hpath)
    obtain ⟨more, hmore⟩ := exists_name_eq hdirectory.ne_nil hinner.ne_nil hentry hentry'
    have hnot : ¬ entry'.name < entry.name := by
      rw [hmore, String.lt_iff_toList_lt, String.toList_append]
      exact List.not_lt.mpr List.le_append_left
    exact pair_sublist hsorted (hmem.mpr ⟨path, _, hdirectory, hentry⟩)
      (hmem.mpr ⟨_, e, hbelow, hentry'⟩) (fun heq => hne (congrArg _ heq)) hnot

/-! ## The order of listing -/

/-- What an entry lists, if it is a directory. -/
def listed : FileEntry → List (String × FileEntry)
  | .directory _ children => children
  | .file _ _ | .link _ | .special => []

/-- What is located below an entry is the entry itself and what it lists. -/
theorem locatedOf_eq_cons (name : String) (e : FileEntry) :
    locatedOf name e = ([name], e) :: (located (listed e)).map fun found =>
      (name :: found.1, found.2) := by
  cases e <;> rfl

/-- What is located in a directory is what is located below its entries in turn. -/
theorem located_eq_flatMap (children : List (String × FileEntry)) :
    located children = children.flatMap fun child => locatedOf child.1 child.2 := by
  induction children with
  | nil => rfl
  | cons child children ih => rw [located, ih, List.flatMap_cons]

/-- What does not look at what directories list does not tell one order from another. -/
theorem Shallow.eq_of_reordered {α : Type} {f : List String × FileEntry → α} (hf : Shallow f)
    {e e' : FileEntry} (h : e.Reordered e') (path : List String) : f (path, e) = f (path, e') := by
  rcases h.cases with rfl | ⟨mode, children, children', rfl, rfl, -⟩
  · rfl
  · exact hf path mode children children'

/-- **Directories that list their entries in another order have the same things located in them**,
as far as can be told without looking at what directories list.

**Proof sketch.** Induction on the reordering, for all such functions: below an entry with a name,
the function is looked at with this name in front. -/
theorem perm_map_located_of_reordered {α : Type} {f : List String × FileEntry → α}
    (hf : Shallow f) {e e' : FileEntry} (h : e.Reordered e') :
    ((located (listed e)).map f).Perm ((located (listed e')).map f) := by
  induction h generalizing f with
  | refl e => exact .refl _
  | order h =>
    rw [listed, listed, located_eq_flatMap, located_eq_flatMap]
    exact (h.flatMap_right _).map f
  | @inside mode name e e' front back h ih =>
    rw [listed, listed, located_append, located_append, located, located, locatedOf_eq_cons,
      locatedOf_eq_cons]
    simp only [List.map_append, List.map_cons, List.map_map, hf.eq_of_reordered h]
    exact ((((ih (hf.cons name)).cons _).append_right _)).append_left _
  | trans _ _ ih ih' => exact (ih hf).trans (ih' hf)

section Reordered

variable {mode : Nat} {children children' : List (String × FileEntry)}

/-- No path gets too long. -/
theorem longPath?_of_reordered
    (h : (FileEntry.directory mode children).Reordered (.directory mode children'))
    {dir : String} (hlong : longPath? dir children = none) : longPath? dir children' = none := by
  have hpaths := perm_map_located_of_reordered
    (f := fun found : List String × FileEntry => pathOf dir found.1) (fun _ _ _ _ => rfl) h
  refine List.find?_eq_none.mpr fun path hpath => ?_
  exact List.find?_eq_none.mp hlong path (hpaths.mem_iff.mpr hpath)

/-- **The entries of a directory** do not depend on the order of listing: they are the same, and
sorted by distinct names. -/
theorem entries_eq_of_reordered
    (h : (FileEntry.directory mode children).Reordered (.directory mode children'))
    (hdistinct : (((sortedMembers children).filterMap entryOf?).map (·.name)).Nodup) :
    (sortedMembers children').filterMap entryOf? = (sortedMembers children).filterMap entryOf? := by
  have hlocated := perm_filterMap_entryOf? (perm_map_located_of_reordered shallow_entryOf? h)
  have hsame : ((sortedMembers children').filterMap entryOf?).Perm
      ((sortedMembers children).filterMap entryOf?) :=
    ((List.mergeSort_perm _ _).filterMap _).trans
      (hlocated.symm.trans ((List.mergeSort_perm _ _).filterMap _).symm)
  exact hsame.eq_of_pairwise (fun a b _ _ hab hba => absurd hab (lt_asymm hba))
    (pairwise_name_lt ((hsame.map (·.name)).nodup_iff.mpr hdistinct)) (pairwise_name_lt hdistinct)

/-- What is packed can be copied in any order. -/
theorem copies_of_reordered [Packer] {s : ScratchFile} {here : List String}
    (h : (FileEntry.directory mode children).Reordered (.directory mode children'))
    (hcopies : Copies s here (sortedMembers children)) :
    Copies s here (sortedMembers children') := by
  have htold := perm_map_located_of_reordered (shallow_fst.prodMk shallow_entryOf?) h
  intro member hmember hentry
  have hlocated := (List.mergeSort_perm (located children') _).mem_iff.mp hmember
  obtain ⟨member', hmember', htells⟩ := List.mem_map.mp
    (htold.mem_iff.mpr (List.mem_map_of_mem hlocated))
  obtain ⟨hpath, hsame⟩ := Prod.mk.inj htells
  rw [← hsame] at hentry
  rw [← hpath]
  exact hcopies member' ((List.mergeSort_perm _ _).mem_iff.mpr hmember') hentry

end Reordered

end Archive

namespace ScratchFile

/-- A new name does not depend on the order of those that are taken. -/
theorem newName?_of_perm {taken taken' : List String} (h : taken.Perm taken') (stem : String)
    (draws : List Draw) : newName? stem taken draws = newName? stem taken' draws := by
  have hcontains : taken.contains = taken'.contains := funext fun name => h.contains_eq
  rw [newName?, newName?, hcontains]

/-- The place for an archive does not depend on the order of listing. -/
theorem choose_of_reordered [P : Packer] {t t' : FileTree} {dir : String} {s : ScratchFile}
    (ht : t.Reordered t') (hdistinct : t.root.NamesDistinct)
    (h : choose t dir = .ok s) : choose t' dir = .ok s := by
  obtain ⟨mode, children, hparent, hname, hplace⟩ := choose_eq_ok_iff.mp h
  obtain ⟨_, hparent', hreordered⟩ := FileTree.resolve_of_reordered ht hdistinct hparent
  obtain ⟨children', rfl, hnames⟩ := hreordered.exists_of_directory
  rw [newName?_of_perm hnames] at hname
  exact choose_eq_ok_iff.mpr ⟨mode, children', hparent', hname, hplace⟩

/-- A path to a directory leads to it while a scratch file is there; the directory is the same if
the scratch file is not below it. -/
theorem resolve_addTo [P : Packer] {t : FileTree} {dir path : String} {s : ScratchFile}
    {names : List String} {mode : Nat} {children : List (String × FileEntry)}
    (hchoose : choose t dir = .ok s)
    (h : t.resolve path = .ok (names, .directory mode children))
    (hbeside : ¬ names <+: s.directory) (content : List UInt8) :
    (s.addTo t content).resolve path = .ok (names, .directory mode children) := by
  obtain ⟨_, _, hparent, -⟩ := exists_directory_of_choose hchoose
  obtain ⟨after, hafter, hsame⟩ := FileTree.resolve_add (FileTree.get?_of_resolve hparent) h
  rw [hsame hbeside] at hafter
  exact hafter

/-- What is drawn makes no difference to the directory of a scratch file. -/
theorem directory_eq_of_choose [P : Packer] {t : FileTree} {dir : String} {s s' : ScratchFile}
    (h : choose t dir = .ok s) {P' : Packer} (h' : choose (P := P') t dir = .ok s') :
    s.directory = s'.directory := by
  obtain ⟨_, _, hparent, -⟩ := exists_directory_of_choose (P := P) h
  obtain ⟨_, _, hparent', -⟩ := exists_directory_of_choose (P := P') h'
  exact congrArg Prod.fst (Except.ok.inj (hparent.symm.trans hparent'))

end ScratchFile

namespace Archive

section Packing

variable [P : Packer] {t t' : FileTree} {dir : String} {s : ScratchFile} {es : List Zip.Entry}

/-- **The order in which directories list their entries** makes no difference to an archive: the
same entries are written to the same place.

**Proof sketch.** The path leads to the same directory, with the scratch file in the tree and
without, and the entries of this directory are sorted. -/
theorem Packs.of_reordered (hzip : P.zip.Lawful) (h : Packs t dir s es) (ht : t.Reordered t')
    (hdistinct : t.root.NamesDistinct) : Packs t' dir s es := by
  refine ⟨ScratchFile.choose_of_reordered ht hdistinct h.choose_eq, ?_⟩
  obtain ⟨parentMode, beside, hparent, hnew⟩ := ScratchFile.exists_directory_of_choose h.choose_eq
  obtain ⟨here, mode, children, hresolve, hlong, hcopies, haccepts, hes⟩ :=
    entriesAt_eq_ok_iff.mp h.entries_eq
  have hadded : (s.addTo t Packer.found).root.NamesDistinct :=
    FileTree.namesDistinct_add hdistinct (FileTree.get?_of_resolve hparent) hnew
  obtain ⟨_, hresolve', hreordered⟩ := FileTree.resolve_of_reordered
    (ht.add hdistinct s.directory s.name _) hadded hresolve
  obtain ⟨children', rfl, -⟩ := hreordered.exists_of_directory
  have hnames := hes ▸ (perm_of_accepts hzip haccepts hes).2
  exact entriesAt_eq_ok_iff.mpr ⟨here, mode, children', hresolve',
    longPath?_of_reordered hreordered hlong, copies_of_reordered hreordered hcopies, haccepts,
    (entries_eq_of_reordered hreordered hnames).trans hes⟩

/-! ## Archives of directories -/

/-- The directory that is listed is the one that the path led to before, if the scratch file is not
below it. -/
theorem Packs.exists_resolve (h : Packs t dir s es) :
    ∃ names mode children,
      (s.addTo t Packer.found).resolve dir = .ok (names, .directory mode children) ∧
      P.zip.Accepts [] es ∧ (sortedMembers children).filterMap entryOf? = es ∧
      (¬ names <+: s.directory → t.resolve dir = .ok (names, .directory mode children)) := by
  obtain ⟨parentMode, beside, hparent, -⟩ := ScratchFile.exists_directory_of_choose h.choose_eq
  obtain ⟨names, mode, children, hresolve, -, -, haccepts, hes⟩ :=
    entriesAt_eq_ok_iff.mp h.entries_eq
  obtain ⟨before, hbefore, hchange⟩ :=
    FileTree.resolve_of_add (FileTree.get?_of_resolve hparent) hresolve
  refine ⟨names, mode, children, hresolve, haccepts, hes, fun hbeside => ?_⟩
  rcases hchange with ⟨q, hq, -⟩ | ⟨-, rfl⟩
  · exact absurd ⟨q, hq.symm⟩ hbeside
  · exact hbefore

/-- A scratch file beside a directory is not among what is packed. -/
theorem copies_of_beside {here : List String} {children : List (String × FileEntry)}
    (hbeside : ¬ here <+: s.directory) : Copies s here (sortedMembers children) := by
  intro member hmember _ hown
  have hbelow := (mem_located_iff children member.1 member.2).mp
    ((List.mergeSort_perm _ _).mem_iff.mp hmember)
  refine absurd ?_ hbeside
  -- The last name is that of the scratch file, and those before it lead to its directory.
  rw [← List.dropLast_append_getLast hbelow.ne_nil, ← List.append_assoc] at hown
  exact ⟨_, (List.append_inj' hown rfl).1⟩

/-- **The archive of a directory that its scratch file is beside** depends on the directory and the
library alone.

**Proof sketch.** The directory is the same with the scratch file in the tree and without. -/
theorem packs_iff_of_beside {names : List String} {mode : Nat}
    {children : List (String × FileEntry)} (hchoose : ScratchFile.choose t dir = .ok s)
    (hresolve : t.resolve dir = .ok (names, .directory mode children))
    (hbeside : ¬ names <+: s.directory) :
    Packs t dir s es ↔ longPath? dir children = none ∧ P.zip.Accepts [] es ∧
      (sortedMembers children).filterMap entryOf? = es := by
  have hadded := ScratchFile.resolve_addTo hchoose hresolve hbeside Packer.found
  constructor
  · intro h
    obtain ⟨_, _, _, hlisted, hlong, -, haccepts, hes⟩ := entriesAt_eq_ok_iff.mp h.entries_eq
    cases hadded.symm.trans hlisted
    exact ⟨hlong, haccepts, hes⟩
  · rintro ⟨hlong, haccepts, hes⟩
    exact ⟨hchoose, entriesAt_eq_ok_iff.mpr
      ⟨names, mode, children, hadded, hlong, copies_of_beside hbeside, haccepts, hes⟩⟩

/-- **What is drawn for the name of the scratch file**, and what is found in that, make no
difference to the entries of an archive, if the scratch file is not below the directory. -/
theorem Packs.of_draws {names : List String} {mode : Nat} {children : List (String × FileEntry)}
    (h : Packs t dir s es) (hresolve : t.resolve dir = .ok (names, .directory mode children))
    (hbeside : ¬ names <+: s.directory) {P' : Packer} {s' : ScratchFile} (hzip : P'.zip = P.zip)
    (hchoose' : ScratchFile.choose (P := P') t dir = .ok s') : Packs (P := P') t dir s' es := by
  have hchoose := Packs.choose_eq (P := P) h
  have hdirectory := ScratchFile.directory_eq_of_choose (P := P) hchoose hchoose'
  have hbeside' : ¬ names <+: s'.directory := hdirectory ▸ hbeside
  rw [packs_iff_of_beside (P := P) hchoose hresolve hbeside, ← hzip] at h
  exact (packs_iff_of_beside (P := P') hchoose' hresolve hbeside').mpr h

/-- **What the archive of a directory lists**: each directory and each regular file below it, while
the archive is written, with its path, permission bits and content and with the first moment of the
format, in the order of the bytes of the names; links and special files are left out.  This is what
goes on with the archive finds in it.  Any order in which directories list their entries gives the
same entries; so does anything that is drawn for the name of the scratch file, unless that is below
the directory: then what a copy finds in it is listed, too.

**Proof sketch.** The entries are the sorted members of the directory, which do not depend on the
order of listing.  Their names are distinct, as the library refuses an entry whose name is taken. -/
theorem pack_lists (hzip : P.zip.Lawful) {path : String}
    (h : (pack dir pure).resultAt t = .ok path) :
    ∃ s es names mode children, Packs t dir s es ∧ s.path = path ∧
      (s.addTo t Packer.found).resolve dir = .ok (names, .directory mode children) ∧
      (¬ names <+: s.directory → t.resolve dir = .ok (names, .directory mode children)) ∧
      Lists children es ∧
      (∀ (α : Type) (body : String → Compose α),
        (pack dir body).resultAt t = (body path).resultAt (s.addTo t (P.zip.write es))) ∧
      P.zip.read? (P.zip.write es) = some es ∧
      (t.root.NamesDistinct → ∀ t', t.Reordered t' → Packs t' dir s es ∧
        (¬ names <+: s.directory → ∀ (P' : Packer) (s' : ScratchFile), P'.zip = P.zip →
          ScratchFile.choose (P := P') t' dir = .ok s' → Packs (P := P') t' dir s' es)) := by
  obtain ⟨s, es, hpacks⟩ := exists_packs_of_pack_eq_ok h
  obtain ⟨names, mode, children, hresolve, haccepts, hes, hbefore⟩ := hpacks.exists_resolve
  obtain rfl : s.path = path := Except.ok.inj (hpacks.pack_pure.symm.trans h)
  have hwritten : ∀ entry ∈ es, entry.Written := by
    rw [← hes]
    intro entry hentry
    obtain ⟨member, -, hmember⟩ := List.mem_filterMap.mp hentry
    exact written_of_entryOf? hmember
  refine ⟨s, es, names, mode, children, hpacks, rfl, hresolve, hbefore,
    lists_of_distinct hes (perm_of_accepts hzip haccepts hes).2,
    fun α body => hpacks.pack_resultAt body, hzip.read_write es hwritten haccepts, ?_⟩
  intro hdistinct t' ht
  have hpacks' := hpacks.of_reordered hzip ht hdistinct
  refine ⟨hpacks', fun hbeside P' s' hzip' hchoose' => ?_⟩
  obtain ⟨_, hresolve', hreordered⟩ :=
    FileTree.resolve_of_reordered ht hdistinct (hbefore hbeside)
  obtain ⟨children', rfl, -⟩ := hreordered.exists_of_directory
  exact Packs.of_draws (P := P) hpacks' hresolve' hbeside hzip' hchoose'

end Packing

/-! ## A directory with a link to itself -/

attribute [local instance] onePacker

/-- A tree with a directory. -/
def siteTree (children : List (String × FileEntry)) : FileTree where
  root := .directory 0o755 [("app", .directory 0o755 children)]

/-- A link to where it is, a directory and a file. -/
def siteChildren : List (String × FileEntry) :=
  [("self", .link "."),
    ("lib", .directory 0o700 [("util.js", .file 0o600 "module.exports = 1".toUTF8)]),
    ("index.js", .file 0o644 "exports.main = 1".toUTF8)]

/-- The names in its directories are distinct. -/
theorem namesDistinct_siteTree : (siteTree siteChildren).root.NamesDistinct := by
  have hfile : ∀ mode content, (FileEntry.file mode content).NamesDistinct := fun mode content =>
    FileEntry.namesDistinct_of_not_directory nofun
  have hlink : ∀ target, (FileEntry.link target).NamesDistinct := fun target =>
    FileEntry.namesDistinct_of_not_directory nofun
  have hlib : (FileEntry.directory 0o700
      [("util.js", .file 0o600 "module.exports = 1".toUTF8)]).NamesDistinct :=
    FileEntry.namesDistinct_directory (List.nodup_singleton _) (by simpa using hfile _ _)
  have happ : (FileEntry.directory 0o755 siteChildren).NamesDistinct := by
    refine FileEntry.namesDistinct_directory (by decide +kernel) fun child hchild => ?_
    simp only [siteChildren, List.mem_cons, List.not_mem_nil, or_false] at hchild
    rcases hchild with rfl | rfl | rfl
    · exact hlink _
    · exact hlib
    · exact hfile _ _
  exact FileEntry.namesDistinct_directory (List.nodup_singleton _) (by simpa using happ)

/-- The archive of the directory lists what is below it, in whatever order that is listed. -/
theorem pack_siteTree_lists :
    ∃ path s es, onePacker.zip.Lawful ∧
      (pack "app" pure).resultAt (siteTree siteChildren) = .ok path ∧
      Packs (siteTree siteChildren) "app" s es ∧ s.path = path ∧ Lists siteChildren es ∧
      Packs (siteTree siteChildren.reverse) "app" s es := by
  have hname : ScratchFile.newName? (ScratchFile.stem "app") ["app"] onePacker.draws =
      some "app.a1B2c3.zip" := by decide +kernel
  have hchoose := choose_root (t := siteTree siteChildren) "app" rfl rfl (by decide +kernel)
    hname (by decide +kernel)
  obtain ⟨_, hpacked⟩ := exists_packs rfl rfl hchoose (resolve_app rfl rfl) (by decide +kernel)
    (by decide +kernel) (by decide +kernel)
  obtain ⟨s, es, names, mode, children, hpacks, hpath, hresolve, -, hlists, -, -, hreordered⟩ :=
    pack_lists Zip.Library.lawful_plain hpacked.pack_pure
  obtain rfl : s = _ := Except.ok.inj (hpacks.choose_eq.symm.trans hchoose)
  cases hresolve.symm.trans (resolve_app rfl rfl)
  have horder : (siteTree siteChildren).Reordered (siteTree siteChildren.reverse) :=
    ⟨.inside [] [] (.order (List.reverse_perm _).symm), rfl⟩
  exact ⟨_, _, es, Zip.Library.lawful_plain, hpacked.pack_pure, hpacks, hpath, hlists,
    (hreordered namesDistinct_siteTree _ horder).1⟩

end Archive

end DeployPlan
