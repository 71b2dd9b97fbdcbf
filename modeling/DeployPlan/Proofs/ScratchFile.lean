import DeployPlan.Proofs.Compose.Result
import DeployPlan.Source.Archive

/-!
# Scratch files leave no trace

An archive is written under a name that its directory does not have, whatever is drawn for it, and
taken away again.  The tree is then the tree from before.

## Main results

* `FileTree.get?_of_walk` — a walk ends at the entry that its names lead to.
* `ScratchFile.choose_eq_ok_iff` — where the scratch file is, and that its name is new.
* `ScratchFile.removeFrom_addTo` — a scratch file that was chosen for a tree can be put into it
  and taken out without a trace.
* `Archive.pack_leavesTree` — packing a directory leaves the tree as it was found.
-/

set_option autoImplicit false

namespace DeployPlan

namespace FileEntry

/-! ## Changes in directories -/

/-- Two changes of the entry under a name are one. -/
theorem updateChild_updateChild (name : String) (f g : FileEntry → FileEntry)
    (children : List (String × FileEntry)) :
    updateChild name g (updateChild name f children) =
      updateChild name (fun e => g (f e)) children := by
  induction children with
  | nil => rfl
  | cons child children ih =>
    obtain ⟨n, e⟩ := child
    by_cases h : n = name <;> simp [updateChild, h, ih]

/-- A change that keeps the entry under a name keeps all. -/
theorem updateChild_eq_self {name : String} {f : FileEntry → FileEntry}
    {children : List (String × FileEntry)} {e : FileEntry} (he : child? name children = some e)
    (hf : f e = e) : updateChild name f children = children := by
  induction children with
  | nil => cases he
  | cons child children ih =>
    obtain ⟨n, e'⟩ := child
    by_cases h : n = name
    · simp only [child?, if_pos h, Option.some.injEq] at he
      subst he
      simp [updateChild, h, hf]
    · simp only [child?, if_neg h] at he
      simp [updateChild, h, ih he]

/-- Two changes of the entry that names lead to are one. -/
theorem update_update (names : List String) (f g : FileEntry → FileEntry) (e : FileEntry) :
    update names g (update names f e) = update names (fun e => g (f e)) e := by
  induction names generalizing e with
  | nil => rfl
  | cons name names ih =>
    cases e with
    | file mode content => rfl
    | link target => rfl
    | special => rfl
    | directory mode children =>
      simp only [update, updateChild_updateChild, ih]

/-- A change that keeps the entry that names lead to keeps all. -/
theorem update_eq_self {names : List String} {f : FileEntry → FileEntry} {root e : FileEntry}
    (he : root.get? names = some e) (hf : f e = e) : update names f root = root := by
  induction names generalizing root with
  | nil =>
    obtain rfl : root = e := by simpa [get?] using he
    exact hf
  | cons name names ih =>
    cases root with
    | file mode content => rfl
    | link target => rfl
    | special => rfl
    | directory mode children =>
      obtain ⟨child, hchild, hget⟩ := Option.bind_eq_some_iff.mp he
      rw [update, updateChild_eq_self hchild (ih hget)]

/-- A new name is added and removed without a trace. -/
theorem removeChild_addChild {name : String} {mode : Nat} {children : List (String × FileEntry)}
    (h : name ∉ children.map (·.1)) (child : FileEntry) :
    removeChild name (addChild name child (.directory mode children)) =
      .directory mode children := by
  have hkept : children.filter (fun c => c.1 != name) = children := by
    rw [List.filter_eq_self]
    intro c hc
    simp only [bne_iff_ne]
    rintro rfl
    exact h (List.mem_map_of_mem hc)
  simp [addChild, removeChild, hkept]

end FileEntry

/-! ## Where paths lead -/

namespace FileTree

/-- **A walk ends at the entry that its names lead to.**

**Proof sketch.** Induction on the walk: it goes on from the names that it has found so far, and
looks up the entry before it ends. -/
theorem get?_of_walk {root : FileEntry} {links : Nat} {here todo names : List String}
    {e : FileEntry} (h : walk root links here todo = .ok (names, e)) :
    root.get? names = some e := by
  fun_induction walk root links here todo with
  | case1 links here found hfound =>
    -- all names are used up
    cases h
    exact hfound
  | case3 links here rest ih => exact ih h
  | case4 links here rest _ ih => exact ih h
  | case7 links here name rest _ _ _ mode children _ ih => exact ih h
  | case8 links here name rest _ _ _ mode content hfile _ =>
    cases h
    exact hfile
  | case11 here name rest _ _ _ target _ links start ih => exact ih h
  | case12 links here name rest _ _ _ hspecial _ =>
    cases h
    exact hspecial
  | _ => cases h

/-- The same for paths. -/
theorem get?_of_resolve {t : FileTree} {path : String} {names : List String} {e : FileEntry}
    (h : t.resolve path = .ok (names, e)) : t.root.get? names = some e := by
  rw [resolve] at h
  split at h
  · cases h
  split at h
  · cases h
  split at h
  · cases h
  exact get?_of_walk h

/-- A new name in a directory is added and removed without a trace. -/
theorem remove_add {t : FileTree} {dir : List String} {name : String} {mode : Nat}
    {children : List (String × FileEntry)}
    (hdir : t.root.get? dir = some (.directory mode children))
    (hname : name ∉ children.map (·.1)) (entry : FileEntry) :
    (t.add dir name entry).remove dir name = t := by
  have hroot := FileEntry.update_eq_self
    (f := fun e => .removeChild name (.addChild name entry e)) hdir
    (FileEntry.removeChild_addChild hname entry)
  simp only [add, remove, FileEntry.update_update, hroot]

end FileTree

/-! ## Scratch files -/

namespace ScratchFile

/-- **The name of a scratch file is new** in its directory, and made of a draw. -/
theorem of_newName?_eq_some {stem name : String} {taken : List String} {draws : List Draw}
    (h : newName? stem taken draws = some name) :
    name ∉ taken ∧ ∃ d ∈ draws, name = drawnName stem d := by
  refine ⟨by simpa using List.find?_some h, ?_⟩
  obtain ⟨d, hd, rfl⟩ := List.mem_map.mp (List.mem_of_find?_eq_some h)
  exact ⟨d, hd, rfl⟩

variable [P : Packer]

/-- **The place for an archive** is in the directory beside which it is written, under a new name
there. -/
theorem choose_eq_ok_iff {t : FileTree} {dir : String} {s : ScratchFile} :
    choose t dir = .ok s ↔
      ∃ mode children, t.resolve (parentPath dir) = .ok (s.directory, .directory mode children) ∧
        newName? (stem dir) (children.map (·.1)) P.draws = some s.name ∧
        s.path = FilePath.join (parentPath dir) s.name ∧ fault? s.name s.path = none := by
  constructor
  · intro h
    unfold choose at h
    dsimp only at h
    split at h
    · rename_i names mode children hresolve
      split at h
      · cases h
      · rename_i name hname
        split at h
        · cases h
        · rename_i hfault
          cases h
          exact ⟨mode, children, hresolve, hname, rfl, hfault⟩
    · cases h
    · cases h
  · rintro ⟨mode, children, hresolve, hname, hpath, hfault⟩
    rw [hpath] at hfault
    rw [choose, hresolve]
    dsimp only
    rw [hname]
    dsimp only
    rw [hfault, ← hpath]

/-- A scratch file is put into a directory that does not have its name. -/
theorem exists_directory_of_choose {t : FileTree} {dir : String} {s : ScratchFile}
    (h : choose t dir = .ok s) :
    ∃ mode children, t.resolve (parentPath dir) = .ok (s.directory, .directory mode children) ∧
      s.name ∉ children.map (·.1) := by
  obtain ⟨mode, children, hresolve, hname, -⟩ := choose_eq_ok_iff.mp h
  exact ⟨mode, children, hresolve, (of_newName?_eq_some hname).1⟩

/-- **A scratch file leaves no trace** in the tree that it was chosen for. -/
theorem removeFrom_addTo {t : FileTree} {dir : String} {s : ScratchFile}
    (h : choose t dir = .ok s) (content : List UInt8) :
    s.removeFrom (s.addTo t content) = t := by
  obtain ⟨mode, children, hresolve, hnew⟩ := exists_directory_of_choose h
  exact FileTree.remove_add (FileTree.get?_of_resolve hresolve) hnew _

end ScratchFile

/-! ## Packing -/

namespace Archive

variable [P : Packer] {α β : Type}

/-- An archive is written if its directory can be listed and its entries have distinct names. -/
theorem pack_apply (dir : String) (body : String → Compose α) (t : FileTree) :
    pack dir body t = match ScratchFile.choose t dir with
      | .error failure => ⟨t, .fail failure⟩
      | .ok s => match entriesAt (s.addTo t Packer.found) dir s with
        | ⟨events, .error failure⟩ =>
          s.within Packer.found (Compose.ofReport ⟨events, .error failure⟩) t
        | ⟨events, .ok es⟩ => s.within (P.zip.write es)
            (Compose.ofReport ⟨events, .ok ()⟩ >>= fun _ => body s.path) t := by
  unfold pack
  cases ScratchFile.choose t dir with
  | error failure => rfl
  | ok s =>
    dsimp only
    cases entriesAt (s.addTo t Packer.found) dir s with
    | mk events result => cases result <;> rfl

/-- **Packing a directory leaves the tree as it was found**, if what goes on with the archive
does. -/
theorem pack_leavesTree (dir : String) {body : String → Compose α}
    (h : ∀ path, (body path).LeavesTree) : (pack dir body).LeavesTree := by
  intro t
  rw [pack_apply]
  cases hchoose : ScratchFile.choose t dir with
  | error failure => rfl
  | ok s =>
    dsimp only
    rcases entriesAt (s.addTo t Packer.found) dir s with ⟨events, failure | es⟩
    · exact ScratchFile.removeFrom_addTo hchoose _
    · have hbody := (Compose.leavesTree_ofReport ⟨events, .ok ()⟩).bind fun _ => h s.path
      exact (congrArg s.removeFrom (hbody _)).trans (ScratchFile.removeFrom_addTo hchoose _)

/-- What succeeds with the archive of a directory succeeds with some archive in some tree. -/
theorem exists_of_pack {dir : String} {body : String → Compose α} {t : FileTree} {a : α}
    (h : (pack dir body).resultAt t = .ok a) : ∃ path t', (body path).resultAt t' = .ok a := by
  rw [Compose.resultAt, pack_apply] at h
  cases hchoose : ScratchFile.choose t dir with
  | error failure => rw [hchoose] at h; cases h
  | ok s =>
    rw [hchoose] at h
    dsimp only at h
    rcases hentries : entriesAt (s.addTo t Packer.found) dir s with ⟨events, failure | es⟩
    · rw [hentries] at h
      cases h
    · rw [hentries] at h
      have hbody : (Compose.ofReport ⟨events, .ok ()⟩ >>= fun _ => body s.path).resultAt
          (s.addTo t (P.zip.write es)) = .ok a := h
      rw [Compose.resultAt_bind (Compose.leavesTree_ofReport _)] at hbody
      exact ⟨s.path, _, hbody⟩

/-- What follows on the archive of a directory may as well wait until the archive is gone, if it
does not look at the tree. -/
theorem pack_bind_resultAt (dir : String) (body : String → Compose α) (f : α → Report β)
    (t : FileTree) :
    (pack dir fun path => body path >>= fun a => Compose.ofReport (f a)).resultAt t =
      (pack dir body).resultAt t >>= fun a => (f a).result := by
  rw [Compose.resultAt, Compose.resultAt, pack_apply, pack_apply]
  cases ScratchFile.choose t dir with
  | error failure => rfl
  | ok s =>
    dsimp only
    rcases entriesAt (s.addTo t Packer.found) dir s with ⟨events, failure | es⟩
    · rfl
    · dsimp only [ScratchFile.within]
      rw [← bind_assoc]
      exact Compose.resultAt_bind_ofReport _ f _

end Archive

/-- A packer that draws one name, and finds two bytes in the scratch file. -/
abbrev onePacker : Packer where
  draws := [⟨"a1B2c3", by decide +kernel, by decide +kernel⟩]
  copied := .ok [0x50, 0x4B]
  zip := .plain

end DeployPlan
