import DeployPlan.Proofs.ArchiveEntries
import DeployPlan.Proofs.Compose.ActionOutcome
import DeployPlan.Proofs.Strict
import DeployPlan.Proofs.Text.Pieces

/-!
# What is drawn for scratch files

The archive of a directory is written to a file with a drawn name, and loaded from there.  What is
loaded is what was written, so that the code of a directory is that of its archive.  As long as the
archives are written beside the directories and not below them, other draws give the same plan.

## Main definitions

* `FileTree.IsMember` — a name that something in a directory can have.
* `Archive.Redrawn` — other draws for the archive of a directory, which is written beside it.

## Main results

* `FileTree.resolve_join` — a file in a directory is found by the path of the directory and its
  name.
* `ScratchFile.read_addTo` — what is written to a scratch file is read again.
* `Context.packedCode_of_packs` — the code of a directory is that of its archive.
* `Archive.beside_of_fileName?` — an archive is written beside a directory whose path ends with a
  name that is not that of a link.
* `Manifest.composePlan_redrawn`, `buildPlan_redrawn` — other draws give the same plan.
-/

set_option autoImplicit false

namespace DeployPlan

/-- A name that something in a directory can have. -/
structure FileTree.IsMember (name : String) : Prop where
  ne_empty : name ≠ ""
  not_mem : '/' ∉ name.toList
  ne_dots : name ≠ "." ∧ name ≠ ".."

namespace FilePath

variable {dir name : String}

/-- The path of what is in a directory is that of the directory, a slash if it has none at its end,
and the name. -/
theorem exists_join_eq (hdir : dir ≠ "") (hname : FileTree.IsMember name) :
    ∃ front, join dir name = front ++ "/" ++ name ∧
      (dir = front ++ "/" ∨ dir = front ∧ dir.endsWith "/" = false) := by
  have hrelative : isAbsolute name = false := by
    rw [isAbsolute_eq]
    cases hcs : name.toList with
    | nil => rfl
    | cons c cs =>
      have hc : c ≠ '/' := fun h => hname.not_mem (by rw [hcs, h]; exact List.mem_cons_self)
      simpa using hc
  rw [join, hrelative, String.isEmpty_eq_false_iff.mpr hdir, Bool.or_false,
    if_neg Bool.false_ne_true]
  by_cases hends : dir.endsWith "/" = true
  · obtain ⟨front, hfront⟩ := Text.endsWith_iff.mp hends
    have heq : dir = String.ofList front ++ "/" := by
      rw [← String.ofList_toList (s := dir), ← hfront, String.ofList_append, String.ofList_toList]
    exact ⟨String.ofList front, by rw [if_pos hends, heq], .inl heq⟩
  · exact ⟨dir, if_neg hends, .inr ⟨rfl, Bool.eq_false_iff.mpr hends⟩⟩

/-- This path starts at the root if that of the directory does. -/
theorem isAbsolute_join (hdir : dir ≠ "") (hname : FileTree.IsMember name) :
    isAbsolute (join dir name) = isAbsolute dir := by
  obtain ⟨front, hjoin, hfront⟩ := exists_join_eq hdir hname
  rw [hjoin, isAbsolute_eq, isAbsolute_eq]
  rcases hfront with rfl | ⟨rfl, -⟩
  · rw [String.toList_append (t := name), List.head?_append_of_ne_nil _ (by simp)]
  · rw [String.append_assoc, String.toList_append (t := "/" ++ name),
      List.head?_append_of_ne_nil _ (by simpa using hdir)]

end FilePath

namespace FileTree

variable {dir name : String}

/-- A path that ends with a name does not end with a slash. -/
theorem endsWith_slash_append (front : String) (hname : IsMember name) :
    (front ++ name).endsWith "/" = false := by
  refine Bool.eq_false_iff.mpr fun h => ?_
  obtain ⟨cs, hcs⟩ := Text.endsWith_iff.mp h
  have hback : (front ++ name).toList.getLast? = name.toList.getLast? := by
    rw [String.toList_append, List.getLast?_append_of_ne_nil _ (by simpa using hname.ne_empty)]
  have hlast : (front ++ name).toList.getLast? = some '/' := by
    rw [← hcs, List.getLast?_append_of_ne_nil _ (by decide +kernel)]
    decide +kernel
  exact hname.not_mem (List.mem_of_getLast? (hback.symm.trans hlast))

/-- **The way to what is in a directory** goes along that to the directory, without a point at its
end, and then along the name. -/
theorem steps_join (hdir : dir ≠ "") (hname : IsMember name) :
    ∃ front, steps (FilePath.join dir name) = front ++ [name] ∧ DotsLeft (steps dir) front := by
  obtain ⟨front, hjoin, hfront⟩ := FilePath.exists_join_eq hdir hname
  have hsplit (back : String) : Text.split '/' (front ++ "/" ++ back) =
      Text.split '/' front ++ Text.split '/' back := Text.split_append '/' front back
  have hname' : Text.split '/' name = [name] := Text.lists_iff.mp (Text.lists_single hname.not_mem)
  have hkept : [name].filter (fun n => !n.isEmpty) = [name] :=
    List.filter_cons_of_pos (by simpa using hname.ne_empty)
  refine ⟨(Text.split '/' front).filter fun n => !n.isEmpty, ?_, ?_⟩
  · rw [hjoin, steps, endsWith_slash_append _ hname, if_neg Bool.false_ne_true, hsplit, hname',
      List.filter_append, hkept]
  · rcases hfront with rfl | ⟨rfl, hfalse⟩
    · have hends : (front ++ "/").endsWith "/" = true :=
        Text.endsWith_iff.mpr ⟨front.toList, String.toList_append.symm⟩
      have hfilter := congrArg (List.filter fun n => !n.isEmpty) (hsplit "")
      rw [String.append_empty, List.filter_append] at hfilter
      rw [steps, hends, if_pos rfl, hfilter]
      have hnone : (Text.split '/' "").filter (fun n => !n.isEmpty) = [] := by decide +kernel
      rw [hnone, List.append_nil]
      have hdot := DotsLeft.append_left ((Text.split '/' front).filter fun n => !n.isEmpty)
        (DotsLeft.leave rfl .nil)
      rwa [List.append_nil] at hdot
    · rw [steps, hfalse, if_neg Bool.false_ne_true]
      exact .refl _

/-- **A file in a directory is found** by the path of the directory and its name. -/
theorem resolve_join {t : FileTree} {names : List String} {mode fileMode : Nat}
    {children : List (String × FileEntry)} {content : ByteArray}
    (hdir : t.resolve dir = .ok (names, .directory mode children)) (hname : IsMember name)
    (hsize : name.utf8ByteSize ≤ maxName)
    (hpath : Text.has (Char.ofNat 0) (FilePath.join dir name) = false ∧
      (FilePath.join dir name).utf8ByteSize ≤ maxPath)
    (hchild : FileEntry.child? name children = some (.file fileMode content)) :
    t.resolve (FilePath.join dir name) = .ok (names ++ [name], .file fileMode content) := by
  obtain ⟨hempty, -, -, hwalk⟩ := resolve_eq_ok_iff.mp hdir
  have hne : dir ≠ "" := String.isEmpty_eq_false_iff.mp hempty
  obtain ⟨front, hsteps, hdots⟩ := steps_join hne hname
  obtain ⟨left, hleft⟩ := walk_append (walk_dotsLeft hwalk hdots)
  have hfound : t.root.get? (names ++ [name]) = some (.file fileMode content) := by
    rw [FileEntry.get?_append, get?_of_resolve hdir]
    show (FileEntry.child? name children).bind (FileEntry.get? []) = _
    rw [hchild]
    rfl
  refine resolve_eq_ok_iff.mpr ⟨?_, hpath.1, hpath.2, ?_⟩
  · obtain ⟨_, hjoin, -⟩ := FilePath.exists_join_eq hne hname
    rw [hjoin]
    simp [hname.ne_empty]
  · rw [FilePath.isAbsolute_join hne hname, hsteps, hleft, walk, if_neg hname.ne_dots.1,
      if_neg hname.ne_dots.2, if_neg (Nat.not_lt.mpr hsize), hfound]
    rfl

end FileTree

namespace ScratchFile

/-- A file can have a name and a path if these are short enough and have no zero byte. -/
theorem fault?_eq_none_iff {name path : String} :
    fault? name path = none ↔ Text.has (Char.ofNat 0) path = false ∧
      name.utf8ByteSize ≤ FileTree.maxName ∧ path.utf8ByteSize ≤ FileTree.maxPath := by
  rw [fault?]
  cases Text.has (Char.ofNat 0) path with
  | true => simp
  | false => simp [ite_eq_right_iff]

/-- Names between slashes have no slash. -/
theorem not_mem_stem (dir : String) : '/' ∉ (stem dir).toList := by
  rw [stem]
  cases hname : FilePath.fileName? dir with
  | none => decide +kernel
  | some name =>
    rw [FilePath.fileName?_eq] at hname
    obtain ⟨hlast, -⟩ := Option.filter_eq_some_iff.mp hname
    have hmem := List.mem_of_getLast? hlast
    rw [FilePath.route_eq_filter] at hmem
    have hpiece := (List.mem_filter.mp (List.mem_filter.mp hmem).1).1
    rw [Text.split_eq] at hpiece
    obtain ⟨cs, hcs, rfl⟩ := List.mem_map.mp hpiece
    rw [Option.getD_some, String.toList_ofList]
    exact Text.not_mem_of_mem_splitOn hcs

/-- A name that is made of a draw is one that a file can have. -/
theorem isMember_drawnName {stem : String} (hstem : '/' ∉ stem.toList) (d : Draw) :
    FileTree.IsMember (drawnName stem d) := by
  have hlength : 2 < (drawnName stem d).length := by
    have hback : ".zip".length = 4 := by decide +kernel
    simp only [drawnName, String.length_append, hback]
    omega
  have hdrawn : '/' ∉ d.text.toList := fun h =>
    absurd (List.all_eq_true.mp d.isAlphanum _ h) (by decide)
  have hne : ∀ short : String, short.length ≤ 2 → drawnName stem d ≠ short :=
    fun short hshort h => absurd (h ▸ hlength) (Nat.not_lt.mpr hshort)
  refine ⟨hne _ (by decide +kernel), ?_, hne _ (by decide +kernel), hne _ (by decide +kernel)⟩
  simp only [drawnName, String.toList_append, List.mem_append, not_or]
  exact ⟨⟨⟨hstem, by decide +kernel⟩, hdrawn⟩, by decide +kernel⟩

variable [P : Packer]

/-- **The archive is read again**: the path of a scratch file leads to what is written there. -/
theorem read_addTo {t : FileTree} {dir : String} {s : ScratchFile} (h : choose t dir = .ok s)
    (content : List UInt8) : (s.addTo t content).read s.path = .ok ⟨content.toArray⟩ := by
  obtain ⟨mode, children, hparent, hname, hpath, hfault⟩ := choose_eq_ok_iff.mp h
  obtain ⟨hnew, d, -, hdrawn⟩ := of_newName?_eq_some hname
  have hvalid : FileTree.IsMember s.name := hdrawn ▸ isMember_drawnName (not_mem_stem dir) d
  have hdirectory := FileTree.get?_of_resolve hparent
  obtain ⟨after, hafter, -⟩ : ∃ after, (s.addTo t content).resolve (parentPath dir) =
      .ok (s.directory, .directory mode after) ∧ (¬ s.directory <+: s.directory → _) :=
    FileTree.resolve_add hdirectory hparent
  -- The directory has one more file, with a name that nothing else there has.
  have hlisted := FileTree.get?_of_resolve hafter
  rw [addTo, FileTree.get?_add_self hdirectory] at hlisted
  obtain rfl := (FileEntry.directory.inj (Option.some.inj hlisted)).2
  have hchild : FileEntry.child? s.name
      (children ++ [(s.name, .file 0o600 ⟨content.toArray⟩)]) =
        some (.file 0o600 ⟨content.toArray⟩) := by
    rw [FileEntry.child?_append, FileEntry.child?_eq_none hnew, FileEntry.child?, if_pos rfl]
    rfl
  obtain ⟨hnul, hsize, hlong⟩ := fault?_eq_none_iff.mp hfault
  rw [hpath] at hnul hlong
  have hfound := FileTree.resolve_join hafter hvalid hsize ⟨hnul, hlong⟩ hchild
  rw [hpath, FileTree.read, hfound]

end ScratchFile

namespace Archive

/-! ## Other draws -/

/-- The archive of the directory at a path is not written to this directory, or below it. -/
def Beside (t : FileTree) (dir : String) : Prop :=
  ∀ names mode children parent above, t.resolve dir = .ok (names, .directory mode children) →
    t.resolve (ScratchFile.parentPath dir) = .ok (parent, above) → ¬ names <+: parent

/-- Other draws give the archive of a directory a name, too; it is written beside the directory, by
the same library. -/
structure Redrawn (P P' : Packer) (t : FileTree) (dir : String) : Prop where
  zip_eq : P'.zip = P.zip
  beside : Beside t dir
  exists_choose : ∃ s, ScratchFile.choose (P := P') t dir = .ok s

/-- **The archive is written beside a directory** whose path ends with a name, unless that is the
name of a link. -/
theorem beside_of_fileName? [Packer] {t : FileTree} {dir name : String} {s : ScratchFile}
    (hchoose : ScratchFile.choose t dir = .ok s) (hname : FilePath.fileName? dir = some name)
    (hlink : ∀ target, t.root.get? (s.directory ++ [name]) ≠ some (.link target)) :
    Beside t dir := by
  intro names mode children parent above hresolve hparent hbelow
  obtain ⟨_, _, hparent', -⟩ := ScratchFile.exists_directory_of_choose hchoose
  obtain rfl : parent = s.directory :=
    congrArg Prod.fst (Except.ok.inj (hparent.symm.trans hparent'))
  have hlength := hbelow.length_le
  rw [names_eq_of_fileName? hchoose hresolve hname hlink, List.length_append,
    List.length_singleton] at hlength
  omega

end Archive

namespace Context

section Actions

variable [P : Packer] {t : FileTree}

/-- **The code of a directory is that of its archive.** -/
theorem packedCode_of_packs {dir : String} {s : ScratchFile} {es : List Zip.Entry}
    (h : Archive.Packs t dir s es) :
    packedCode dir t = .ok (Code.ofBytes zipExtension ⟨(P.zip.write es).toArray⟩) := by
  rw [packedCode, h.pack_resultAt]
  show (Code.load (s.addTo t (P.zip.write es)) s.path zipExtension).result = _
  rw [Code.load, ScratchFile.read_addTo h.choose_eq]

/-- **Other draws give the same code** of a directory.

**Proof sketch.** The archive has the same entries, and the code is that of the archive, whatever
its name is. -/
theorem packedCode_redrawn {dir : String} {code : Code} (hcode : packedCode dir t = .ok code)
    {P' : Packer} (h : Archive.Redrawn P P' t dir) :
    packedCode (P := P') dir t = .ok code := by
  obtain ⟨s', hchoose'⟩ := h.exists_choose
  obtain ⟨s, es, hpacks⟩ := Archive.exists_packs_of_pack_eq_ok (P := P) hcode
  obtain ⟨_, _, hparent, -⟩ := ScratchFile.exists_directory_of_choose (P := P)
    (Archive.Packs.choose_eq (P := P) hpacks)
  obtain ⟨names, mode, _, hadded, -⟩ := Archive.Packs.exists_resolve (P := P) hpacks
  obtain ⟨before, hbefore, -⟩ :=
    FileTree.resolve_of_add (FileTree.get?_of_resolve hparent) hadded
  have hbeside := h.beside names mode before s.directory _ hbefore hparent
  have hpacks' := Archive.Packs.of_draws (P := P) hpacks hbefore hbeside h.zip_eq hchoose'
  rw [packedCode_of_packs (P := P) hpacks, ← h.zip_eq] at hcode
  exact (packedCode_of_packs (P := P') hpacks').trans hcode

/-- **Other draws give the same action**, whether or not its source is a directory. -/
theorem composeAction_redrawn {ctx : Context} {package name : String} {spec : ActionSpec}
    {r : ActionRecord} (hr : (ctx.composeAction package name spec).resultAt t = .ok r)
    {P' : Packer} (h : spec.IsDirectoryIn ctx.directory t →
      Archive.Redrawn P P' t (spec.pathIn ctx.directory)) :
    (ctx.composeAction (P := P') package name spec).resultAt t = .ok r := by
  obtain ⟨loaded, kind, parameters, hloaded, hrest⟩ :=
    (ctx.composeAction_eq_ok_iff (P := P)).mp hr
  refine (ctx.composeAction_eq_ok_iff (P := P')).mpr ⟨loaded, kind, parameters, ?_, hrest⟩
  rw [sourceAt_eq (P := P)] at hloaded
  rw [sourceAt_eq (P := P')]
  by_cases hsource : spec.source = ""
  · rw [if_pos hsource] at hloaded ⊢
    exact hloaded
  by_cases hdirectory : t.isDirectory (spec.pathIn ctx.directory) = true
  · rw [if_neg hsource, if_pos hdirectory] at hloaded ⊢
    by_cases hruntime : spec.runtime = ""
    · rw [if_pos hruntime] at hloaded
      cases hloaded
    · rw [if_neg hruntime] at hloaded ⊢
      obtain ⟨code, hcode, rfl⟩ := Except.map_eq_ok_iff.mp hloaded
      rw [packedCode_redrawn (P := P) hcode (h ⟨hsource, hdirectory⟩)]
      rfl
  · rw [if_neg hsource, if_neg hdirectory] at hloaded ⊢
    exact hloaded

end Actions

/-- **Other draws give the same parts** of a package. -/
theorem Gives.redrawn [H : Host] {ctx : Context} {name : String} {spec : PackageSpec}
    {t : FileTree} {parts : PackageParts} (hgives : ctx.Gives name spec t parts) {H' : Host}
    (h : ∀ e ∈ spec.actions.entries, e.2.IsDirectoryIn ctx.directory t →
      Archive.Redrawn (H.packer name e.1) (H'.packer name e.1) t (e.2.pathIn ctx.directory)) :
    @ctx.Gives H' name spec t parts := by
  obtain ⟨hpackage, hactions, hsequences, htriggers, hrules, hroutes, hdependencies⟩ := hgives
  refine ⟨hpackage, (@composeActions_eq_ok_iff _ _ _ _ H' _).mpr ?_, hsequences, htriggers, hrules,
    hroutes, hdependencies⟩
  have hcomposed := (@composeActions_eq_ok_iff _ _ _ _ H _).mp hactions
  refine ((List.forall₂_and_left _ _).mpr ⟨h, hcomposed⟩).imp fun e r ⟨hredrawn, hr⟩ => ?_
  exact composeAction_redrawn (P := H.packer name e.1) hr hredrawn

end Context

/-! ## Plans -/

/-- Other draws for the directories of a document, each of which has its archive written beside
it. -/
def Manifest.Redrawn (H H' : Host) (m : Manifest) (t : FileTree) : Prop :=
  ∀ package name spec, m.action? package name = some spec → spec.IsDirectoryIn m.directory t →
    Archive.Redrawn (H.packer package name) (H'.packer package name) t (spec.pathIn m.directory)

/-- **Other draws give the same plan** of a document.

**Proof sketch.** Each action is composed in the same way, and nothing else is packed. -/
theorem Manifest.composePlan_redrawn [H : Host] {m : Manifest} {settings : Settings}
    {vars : Variables} {t : FileTree} {plan : Plan}
    (hplan : (m.composePlan settings vars).resultAt t = .ok plan) {H' : Host}
    (h : m.Redrawn H H' t) :
    (@composePlan H' m settings vars).resultAt t = .ok plan := by
  obtain ⟨ctx, parts, hctx, hparts, hplan⟩ := (@composePlan_eq_ok_iff _ _ _ H _ _).mp hplan
  refine (@composePlan_eq_ok_iff _ _ _ H' _ _).mpr ⟨ctx, parts, hctx, ?_, hplan⟩
  have hpackages : ∀ e ∈ m.resolved.entries, m.resolved.get? e.1 = some e.2 :=
    fun e he => KeyMap.mem_entries_iff.mp he
  refine ((List.forall₂_and_left _ _).mpr ⟨hpackages, hparts⟩).imp fun e x ⟨hpackage, hgives⟩ => ?_
  refine @Context.Gives.redrawn H _ _ _ _ _ hgives H' fun a ha hdirectory => ?_
  have haction : m.action? e.1 a.1 = some a.2 := by
    rw [action?, hpackage]
    exact KeyMap.mem_entries_iff.mp ha
  rw [Context.ofManifest_directory hctx] at hdirectory ⊢
  exact h e.1 a.1 a.2 haction hdirectory

/-- **Other draws give the same plan** of a manifest with a descriptor. -/
theorem buildPlan_redrawn [H : Host] {settings : Settings} {vars : Variables} {manifest : String}
    {deployment : Option String} {t : FileTree} {m : Manifest} {plan : Plan}
    (hm : (Manifest.load manifest).resultAt t = .ok m)
    (hplan : (buildPlan settings vars manifest deployment).resultAt t = .ok plan) {H' : Host}
    (h : m.Redrawn H H' t) :
    (@buildPlan H' settings vars manifest deployment).resultAt t = .ok plan := by
  obtain ⟨m', composed, hm', hcomposed, hrevised⟩ :=
    (@buildPlan_eq_ok_iff _ _ _ _ _ _ H).mp hplan
  obtain rfl : m' = m := Except.ok.inj (hm'.symm.trans hm)
  exact (@buildPlan_eq_ok_iff _ _ _ _ _ _ H').mpr
    ⟨m', composed, hm', @Manifest.composePlan_redrawn H _ _ _ _ _ hcomposed H' h, hrevised⟩

end DeployPlan
