import DeployPlan.Proofs.ScratchFile

/-!
# Walks in a tree with one more file

A file that is added to a directory changes this directory, and with it those above.  All else is
there as before, so that a path that leads to a directory afterwards led to it before.  Walks along
several names go on where those along the first names end, and single points among the names may as
well be left out.

## Main definitions

* `DeployPlan.DotsLeft` — some single points among names are left out.

## Main results

* `FileEntry.get?_update_of_prefix`, `get?_update_of_not_prefix` — what is above a changed entry,
  and what is beside it.
* `FileTree.get?_add_directory` — the directories of a tree with one more file.
* `FileTree.resolve_of_add`, `FileTree.resolve_add` — where a path to a directory led before a file
  was added, and where it leads afterwards.
* `FileTree.walk_append`, `FileTree.walk_dotsLeft` — walks along several names, and along names
  without single points.
-/

set_option autoImplicit false

namespace DeployPlan

namespace FileEntry

/-! ## Entries above and beside a change -/

/-- What is found under the name of a changed entry. -/
theorem child?_updateChild_self (name : String) (f : FileEntry → FileEntry)
    (children : List (String × FileEntry)) :
    child? name (updateChild name f children) = (child? name children).map f := by
  induction children with
  | nil => rfl
  | cons child children ih =>
    obtain ⟨n, e⟩ := child
    by_cases h : n = name <;> simp [updateChild, child?, h, ih]

/-- What is found under another name. -/
theorem child?_updateChild_of_ne {name other : String} (h : other ≠ name)
    (f : FileEntry → FileEntry) (children : List (String × FileEntry)) :
    child? other (updateChild name f children) = child? other children := by
  induction children with
  | nil => rfl
  | cons child children ih =>
    obtain ⟨n, e⟩ := child
    by_cases hn : n = name
    · simp [updateChild, child?, hn, Ne.symm h]
    · simp [updateChild, child?, hn, ih]

/-- What is found among more entries. -/
theorem child?_append (name : String) (children more : List (String × FileEntry)) :
    child? name (children ++ more) = (child? name children).or (child? name more) := by
  induction children with
  | nil => rfl
  | cons child children ih =>
    obtain ⟨n, e⟩ := child
    by_cases h : n = name <;> simp [child?, h, ih]

/-- Names in turn lead where the first lead, and on from there. -/
theorem get?_append (p q : List String) (e : FileEntry) :
    e.get? (p ++ q) = (e.get? p).bind (get? q) := by
  induction p generalizing e with
  | nil => simp [get?]
  | cons name p ih =>
    cases e with
    | file mode content => rfl
    | link target => rfl
    | special => rfl
    | directory mode children =>
      simp only [List.cons_append, get?, Option.bind_assoc]
      exact congrArg _ (funext ih)

/-- **Above a change**, an entry has the change inside it. -/
theorem get?_update_of_prefix (p q : List String) (f : FileEntry → FileEntry) (e : FileEntry) :
    (update (p ++ q) f e).get? p = (e.get? p).map (update q f) := by
  induction p generalizing e with
  | nil => simp [get?]
  | cons name p ih =>
    cases e with
    | file mode content => rfl
    | link target => rfl
    | special => rfl
    | directory mode children =>
      simp only [List.cons_append, update, get?, child?_updateChild_self]
      cases child? name children with
      | none => rfl
      | some child => exact ih child

/-- **Beside a change**, an entry stays as it is. -/
theorem get?_update_of_not_prefix {p d : List String} (hpd : ¬ p <+: d) (hdp : ¬ d <+: p)
    (f : FileEntry → FileEntry) (e : FileEntry) : (update d f e).get? p = e.get? p := by
  induction d generalizing p e with
  | nil => exact absurd List.nil_prefix hdp
  | cons name d ih =>
    obtain _ | ⟨other, p⟩ := p
    · exact absurd List.nil_prefix hpd
    cases e with
    | file mode content => rfl
    | link target => rfl
    | special => rfl
    | directory mode children =>
      by_cases hname : other = name
      · subst hname
        have hrest := ih (fun h => hpd (List.cons_prefix_cons.mpr ⟨rfl, h⟩))
          fun h => hdp (List.cons_prefix_cons.mpr ⟨rfl, h⟩)
        simp only [update, get?, child?_updateChild_self]
        cases child? other children with
        | none => rfl
        | some child => exact hrest child
      · simp only [update, get?, child?_updateChild_of_ne hname]

/-- A change inside of an entry leaves a directory a directory, and makes none. -/
theorem exists_of_update_eq_directory {q : List String} {name : String} {child e : FileEntry}
    {mode : Nat} {children : List (String × FileEntry)}
    (h : update q (addChild name child) e = .directory mode children) :
    ∃ before, e = .directory mode before := by
  cases e with
  | directory mode' before =>
    cases q <;> cases h <;> exact ⟨before, rfl⟩
  | file mode' content => cases q <;> cases h
  | link target => cases q <;> cases h
  | special => cases q <;> cases h

/-- Nor does it make a link. -/
theorem eq_of_update_eq_link {q : List String} {name target : String} {child e : FileEntry}
    (h : update q (addChild name child) e = .link target) : e = .link target := by
  cases e with
  | directory mode' before => cases q <;> cases h
  | file mode' content => cases q <;> cases h
  | link target' => cases q <;> exact h
  | special => cases q <;> cases h

end FileEntry

/-! ## Trees with one more file -/

namespace FileTree

section Add

variable {t : FileTree} {d : List String} {name : String} {mode fileMode : Nat}
  {content : ByteArray} {children : List (String × FileEntry)}

/-- The directory that a file was added to has it at its end. -/
theorem get?_add_self (hd : t.root.get? d = some (.directory mode children)) :
    (t.add d name (.file fileMode content)).root.get? d =
      some (.directory mode (children ++ [(name, .file fileMode content)])) := by
  have hupdate := FileEntry.get?_update_of_prefix d []
    (.addChild name (.file fileMode content)) t.root
  rw [List.append_nil, hd] at hupdate
  exact hupdate

/-- **What is found after a file was added** is the file, an entry above it with the file inside,
or an entry beside it. -/
theorem get?_add_cases (hd : t.root.get? d = some (.directory mode children)) {p : List String}
    {e : FileEntry} (h : (t.add d name (.file fileMode content)).root.get? p = some e) :
    e = .file fileMode content ∨
      (∃ q before, d = p ++ q ∧ t.root.get? p = some before ∧
        e = before.update q (.addChild name (.file fileMode content))) ∨
      (¬ p <+: d ∧ t.root.get? p = some e) := by
  by_cases hpd : p <+: d
  · obtain ⟨q, rfl⟩ := hpd
    rw [add, FileEntry.get?_update_of_prefix, Option.map_eq_some_iff] at h
    obtain ⟨before, hbefore, rfl⟩ := h
    exact .inr (.inl ⟨q, before, rfl, hbefore, rfl⟩)
  by_cases hdp : d <+: p
  · -- The entry is inside of the directory that has got the file.
    obtain ⟨q, rfl⟩ := hdp
    obtain _ | ⟨other, q⟩ := q
    · exact absurd (by simp) hpd
    rw [FileEntry.get?_append, get?_add_self hd] at h
    simp only [Option.bind_some, FileEntry.get?, FileEntry.child?_append] at h
    rw [FileEntry.get?_append, hd]
    cases hchild : FileEntry.child? other children with
    | some child =>
      rw [hchild] at h
      exact .inr (.inr ⟨hpd, by simpa [FileEntry.get?, hchild] using h⟩)
    | none =>
      refine .inl ?_
      rw [hchild, Option.none_or, FileEntry.child?] at h
      split at h
      · cases q with
        | nil => simpa [FileEntry.get?] using h.symm
        | cons _ _ => simp [FileEntry.get?] at h
      · cases h
  · rw [add, FileEntry.get?_update_of_not_prefix hpd hdp] at h
    exact .inr (.inr ⟨hpd, h⟩)

/-- **A directory after a file was added** was there before; if the file is inside of it, this is
the only change. -/
theorem get?_add_directory (hd : t.root.get? d = some (.directory mode children))
    {p : List String} {dirMode : Nat} {after : List (String × FileEntry)}
    (h : (t.add d name (.file fileMode content)).root.get? p = some (.directory dirMode after)) :
    ∃ before, t.root.get? p = some (.directory dirMode before) ∧
      ((∃ q, d = p ++ q ∧ FileEntry.directory dirMode after =
          (FileEntry.directory dirMode before).update q
            (.addChild name (.file fileMode content))) ∨
        (¬ p <+: d ∧ after = before)) := by
  rcases get?_add_cases hd h with hfile | ⟨q, e, hq, he, hafter⟩ | ⟨hpd, he⟩
  · cases hfile
  · obtain ⟨before, rfl⟩ := FileEntry.exists_of_update_eq_directory hafter.symm
    exact ⟨before, he, .inl ⟨q, hq, hafter⟩⟩
  · exact ⟨after, he, .inr ⟨hpd, rfl⟩⟩

/-- A link after a file was added was there before. -/
theorem get?_add_link (hd : t.root.get? d = some (.directory mode children)) {p : List String}
    {target : String}
    (h : (t.add d name (.file fileMode content)).root.get? p = some (.link target)) :
    t.root.get? p = some (.link target) := by
  rcases get?_add_cases hd h with hfile | ⟨q, e, -, he, hafter⟩ | ⟨-, he⟩
  · cases hfile
  · exact FileEntry.eq_of_update_eq_link hafter.symm ▸ he
  · exact he

/-- **What was found before a file was added** is found afterwards, perhaps with the file inside. -/
theorem get?_add (hd : t.root.get? d = some (.directory mode children)) {p : List String}
    {e : FileEntry} (h : t.root.get? p = some e) :
    (∃ q, (t.add d name (.file fileMode content)).root.get? p =
        some (e.update q (.addChild name (.file fileMode content)))) ∨
      (t.add d name (.file fileMode content)).root.get? p = some e := by
  by_cases hpd : p <+: d
  · obtain ⟨q, rfl⟩ := hpd
    exact .inl ⟨q, by rw [add, FileEntry.get?_update_of_prefix, h, Option.map_some]⟩
  refine .inr ?_
  by_cases hdp : d <+: p
  · obtain ⟨q, rfl⟩ := hdp
    obtain _ | ⟨other, q⟩ := q
    · exact absurd (by simp) hpd
    rw [FileEntry.get?_append, hd, Option.bind_some, FileEntry.get?] at h
    -- The next name is that of an entry that was there before.
    obtain ⟨child, hchild, hget⟩ := Option.bind_eq_some_iff.mp h
    rw [FileEntry.get?_append, get?_add_self hd]
    simp only [Option.bind_some, FileEntry.get?, FileEntry.child?_append, hchild, Option.some_or]
    exact hget
  · rw [add, FileEntry.get?_update_of_not_prefix hpd hdp, h]

end Add

/-! ## Walks -/

variable {root root' : FileEntry} {links : Nat} {here todo names : List String} {mode : Nat}
  {children : List (String × FileEntry)}

/-- **A walk to a directory** leads to it in each tree that has the directories and links on the
way. -/
theorem walk_of_get?
    (hdirectory : ∀ p mode children, root'.get? p = some (.directory mode children) →
      ∃ before, root.get? p = some (.directory mode before))
    (hlink : ∀ p target, root'.get? p = some (.link target) → root.get? p = some (.link target))
    (h : walk root' links here todo = .ok (names, .directory mode children)) :
    ∃ before, walk root links here todo = .ok (names, .directory mode before) := by
  fun_induction walk root' links here todo with
  | case1 links here found hfound =>
    cases h
    obtain ⟨before, hbefore⟩ := hdirectory _ _ _ hfound
    exact ⟨before, by rw [walk, hbefore]⟩
  | case3 links here rest ih =>
    rw [walk, if_pos rfl]
    exact ih h
  | case4 links here rest hdot ih =>
    rw [walk, if_neg hdot, if_pos rfl]
    exact ih h
  | case7 links here name rest hdot hdots hlong mode' children' hfound ih =>
    obtain ⟨before, hbefore⟩ := hdirectory _ _ _ hfound
    rw [walk, if_neg hdot, if_neg hdots, if_neg hlong, hbefore]
    exact ih h
  | case11 here name rest hdot hdots hlong target hfound links start ih =>
    rw [walk, if_neg hdot, if_neg hdots, if_neg hlong, hlink _ _ hfound]
    exact ih h
  | _ => cases h

/-- A path leads along its names from where it starts, unless it cannot be used. -/
theorem resolve_eq_ok_iff {t : FileTree} {path : String} {found : List String × FileEntry} :
    t.resolve path = .ok found ↔
      path.isEmpty = false ∧ Text.has (Char.ofNat 0) path = false ∧
        path.utf8ByteSize ≤ maxPath ∧
        walk t.root maxLinks (if FilePath.isAbsolute path then [] else t.workingDirectory)
          (steps path) = .ok found := by
  rw [resolve]
  cases path.isEmpty with
  | true => simp
  | false =>
    cases Text.has (Char.ofNat 0) path with
    | true => simp
    | false =>
      by_cases hlong : maxPath < path.utf8ByteSize
      · simp [hlong, Nat.not_le.mpr hlong]
      · simp [hlong, Nat.not_lt.mp hlong]

/-- **A path to a directory after a file was added** led to it before; if the file is inside of it,
this is the only change. -/
theorem resolve_of_add {t : FileTree} {d : List String} {name path : String}
    {dirMode fileMode : Nat} {content : ByteArray} {after : List (String × FileEntry)}
    (hd : t.root.get? d = some (.directory mode children))
    (h : (t.add d name (.file fileMode content)).resolve path =
      .ok (names, .directory dirMode after)) :
    ∃ before, t.resolve path = .ok (names, .directory dirMode before) ∧
      ((∃ q, d = names ++ q ∧ FileEntry.directory dirMode after =
          (FileEntry.directory dirMode before).update q
            (.addChild name (.file fileMode content))) ∨
        (¬ names <+: d ∧ after = before)) := by
  obtain ⟨hempty, hnul, hlong, hwalk⟩ := resolve_eq_ok_iff.mp h
  obtain ⟨before, hbefore⟩ := walk_of_get?
    (fun p mode children hp => (get?_add_directory hd hp).imp fun _ h => h.1)
    (fun p target hp => get?_add_link hd hp) hwalk
  obtain ⟨found, hfound, hchange⟩ := get?_add_directory hd (get?_of_walk hwalk)
  obtain rfl : found = before := by
    have hget := hfound.symm.trans (get?_of_walk hbefore)
    exact (FileEntry.directory.inj (Option.some.inj hget)).2
  exact ⟨found, resolve_eq_ok_iff.mpr ⟨hempty, hnul, hlong, hbefore⟩, hchange⟩

/-- **A path to a directory** leads to it after a file was added, too; if the file is not inside of
it, the directory is the same.

**Proof sketch.** The directories and links on the way are still there. -/
theorem resolve_add {t : FileTree} {d : List String} {name path : String}
    {dirMode fileMode : Nat} {content : ByteArray} {before : List (String × FileEntry)}
    (hd : t.root.get? d = some (.directory mode children))
    (h : t.resolve path = .ok (names, .directory dirMode before)) :
    ∃ after, (t.add d name (.file fileMode content)).resolve path =
        .ok (names, .directory dirMode after) ∧ (¬ names <+: d → after = before) := by
  obtain ⟨hempty, hnul, hlong, hwalk⟩ := resolve_eq_ok_iff.mp h
  have hdirectory : ∀ p mode children, t.root.get? p = some (.directory mode children) →
      ∃ after, (t.add d name (.file fileMode content)).root.get? p =
        some (.directory mode after) := by
    intro p mode children hp
    rcases get?_add hd hp with ⟨q, hq⟩ | hq
    · obtain ⟨after, hafter⟩ : ∃ after, (FileEntry.directory mode children).update q
          (.addChild name (.file fileMode content)) = .directory mode after := by
        cases q <;> exact ⟨_, rfl⟩
      exact ⟨after, hafter ▸ hq⟩
    · exact ⟨children, hq⟩
  have hlink : ∀ p target, t.root.get? p = some (.link target) →
      (t.add d name (.file fileMode content)).root.get? p = some (.link target) := by
    intro p target hp
    rcases get?_add hd hp with ⟨q, hq⟩ | hq
    · cases q <;> exact hq
    · exact hq
  obtain ⟨after, hafter⟩ := walk_of_get? hdirectory hlink hwalk
  have hresolve : (t.add d name (.file fileMode content)).resolve path = .ok _ :=
    resolve_eq_ok_iff.mpr ⟨hempty, hnul, hlong, hafter⟩
  refine ⟨after, hresolve, fun hbeside => ?_⟩
  obtain ⟨found, hfound, ⟨q, hq, -⟩ | ⟨-, rfl⟩⟩ := resolve_of_add hd hresolve
  · exact absurd ⟨q, hq.symm⟩ hbeside
  · exact (FileEntry.directory.inj (Prod.mk.inj (Except.ok.inj (hfound.symm.trans h))).2).2

/-- **A walk along names and more names** goes on where the walk along the first ends. -/
theorem walk_append (h : walk root links here todo = .ok (names, .directory mode children)) :
    ∃ left, ∀ more, walk root links here (todo ++ more) = walk root left names more := by
  fun_induction walk root links here todo with
  | case1 links here found hfound =>
    cases h
    exact ⟨links, fun more => rfl⟩
  | case3 links here rest ih =>
    obtain ⟨left, hleft⟩ := ih h
    refine ⟨left, fun more => ?_⟩
    rw [List.cons_append, walk, if_pos rfl, hleft]
  | case4 links here rest hdot ih =>
    obtain ⟨left, hleft⟩ := ih h
    refine ⟨left, fun more => ?_⟩
    rw [List.cons_append, walk, if_neg hdot, if_pos rfl, hleft]
  | case7 links here name rest hdot hdots hlong mode' children' hfound ih =>
    obtain ⟨left, hleft⟩ := ih h
    refine ⟨left, fun more => ?_⟩
    rw [List.cons_append, walk, if_neg hdot, if_neg hdots, if_neg hlong, hfound]
    exact hleft more
  | case11 here name rest hdot hdots hlong target hfound links start ih =>
    obtain ⟨left, hleft⟩ := ih h
    refine ⟨left, fun more => ?_⟩
    rw [List.cons_append, walk, if_neg hdot, if_neg hdots, if_neg hlong, hfound]
    show walk root links start (steps target ++ (rest ++ more)) = _
    rw [← List.append_assoc, hleft]
  | _ => cases h

end FileTree

/-! ## Single points -/

/-- Some single points among names are left out. -/
inductive DotsLeft : List String → List String → Prop
  | nil : DotsLeft [] []
  | keep (name : String) {l l' : List String} (h : DotsLeft l l') :
    DotsLeft (name :: l) (name :: l')
  | leave {name : String} (hname : name = ".") {l l' : List String} (h : DotsLeft l l') :
    DotsLeft (name :: l) l'

namespace DotsLeft

/-- Nothing has to be left out. -/
theorem refl (l : List String) : DotsLeft l l := by
  induction l with
  | nil => exact .nil
  | cons name l ih => exact .keep name ih

/-- Names in front are kept. -/
theorem append_left (more : List String) {l l' : List String} (h : DotsLeft l l') :
    DotsLeft (more ++ l) (more ++ l') := by
  induction more with
  | nil => exact h
  | cons name more ih => exact .keep name ih

/-- All single points can be left out. -/
theorem filter (l : List String) : DotsLeft l (l.filter (· != ".")) := by
  induction l with
  | nil => exact .nil
  | cons name l ih =>
    by_cases h : name = "."
    · rw [List.filter_cons_of_neg (by simpa using h)]
      exact .leave h ih
    · rw [List.filter_cons_of_pos (by simpa using h)]
      exact .keep name ih

end DotsLeft

namespace FileTree

variable {root : FileEntry} {links : Nat} {here todo names : List String} {mode : Nat}
  {children : List (String × FileEntry)}

/-- **Single points lead nowhere else**: a walk to a directory leads to it without them. -/
theorem walk_dotsLeft (h : walk root links here todo = .ok (names, .directory mode children))
    {todo' : List String} (hdots : DotsLeft todo todo') :
    walk root links here todo' = .ok (names, .directory mode children) := by
  fun_induction walk root links here todo generalizing todo' with
  | case1 links here found hfound =>
    cases h
    cases hdots
    rw [walk, hfound]
  | case3 links here rest ih =>
    cases hdots with
    | keep _ hrest =>
      rw [walk, if_pos rfl]
      exact ih h hrest
    | leave _ hrest => exact ih h hrest
  | case4 links here rest hdot ih =>
    cases hdots with
    | keep _ hrest =>
      rw [walk, if_neg hdot, if_pos rfl]
      exact ih h hrest
    | leave hname _ => exact absurd hname hdot
  | case7 links here name rest hdot hparent hlong mode' children' hfound ih =>
    cases hdots with
    | keep _ hrest =>
      rw [walk, if_neg hdot, if_neg hparent, if_neg hlong, hfound]
      exact ih h hrest
    | leave hname _ => exact absurd hname hdot
  | case11 here name rest hdot hparent hlong target hfound links start ih =>
    cases hdots with
    | keep _ hrest =>
      rw [walk, if_neg hdot, if_neg hparent, if_neg hlong, hfound]
      exact ih h (hrest.append_left (steps target))
    | leave hname _ => exact absurd hname hdot
  | _ => cases h

/-- A walk goes on in the directory that has the first name. -/
theorem walk_cons {name : String} (hname : name ≠ "." ∧ name ≠ "..")
    (hlong : name.utf8ByteSize ≤ maxName)
    (h : root.get? (here ++ [name]) = some (.directory mode children)) (rest : List String) :
    walk root links here (name :: rest) = walk root links (here ++ [name]) rest := by
  rw [walk, if_neg hname.1, if_neg hname.2, if_neg (Nat.not_lt.mpr hlong), h]

/-- A name leads to the directory that has it. -/
theorem walk_singleton {name : String} (hname : name ≠ "." ∧ name ≠ "..")
    (hlong : name.utf8ByteSize ≤ maxName)
    (h : root.get? (here ++ [name]) = some (.directory mode children)) :
    walk root links here [name] = .ok (here ++ [name], .directory mode children) := by
  rw [walk_cons hname hlong h, walk, h]

/-- A name leads nowhere else than to the directory that has it, unless it is that of a link. -/
theorem eq_of_walk_singleton {name : String} (hname : name ≠ "." ∧ name ≠ "..")
    (hlink : ∀ target, root.get? (here ++ [name]) ≠ some (.link target))
    (h : walk root links here [name] = .ok (names, .directory mode children)) :
    names = here ++ [name] := by
  rw [walk, if_neg hname.1, if_neg hname.2] at h
  split at h
  · cases h
  split at h
  · cases h
  · rename_i mode' children' hfound
    rw [walk, hfound] at h
    cases h
    rfl
  · cases h
  · rename_i target hfound
    exact absurd hfound (hlink target)
  · cases h

/-- Two points lead upwards. -/
theorem eq_of_walk_up (h : walk root links here [".."] = .ok (names, .directory mode children)) :
    names = here.dropLast := by
  rw [walk, if_neg (by decide), if_pos rfl, walk] at h
  split at h
  · cases h
    rfl
  · cases h

/-- Without names, a walk stays where it is. -/
theorem eq_of_walk_nil (h : walk root links here [] = .ok (names, .directory mode children)) :
    names = here := by
  rw [walk] at h
  split at h
  · cases h
    rfl
  · cases h

end FileTree

end DeployPlan
