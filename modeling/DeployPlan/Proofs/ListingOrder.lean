import DeployPlan.Proofs.FileTree
import Mathlib.Data.List.Nodup

/-!
# The order in which directories list their entries

Directories list their entries in no particular order.  If each has distinct names, then paths lead
to the same entries, whatever the order, and files can be added to trees without a difference.

## Main definitions

* `FileEntry.Reordered` — directories list their entries in another order, at any depth.
* `FileEntry.NamesDistinct` — the entries of each directory have distinct names.
* `FileTree.Reordered` — the same tree, but for the order.

## Main results

* `FileEntry.Reordered.get?` — names lead to the same entries.
* `FileEntry.Reordered.update` — changes of entries make no difference.
* `FileTree.resolve_of_reordered` — paths lead to the same entries.
-/

set_option autoImplicit false

namespace DeployPlan

namespace FileEntry

/-- **Directories list their entries in another order**, at any depth. -/
inductive Reordered : FileEntry → FileEntry → Prop
  | refl (e : FileEntry) : Reordered e e
  | order {mode : Nat} {children children' : List (String × FileEntry)}
      (h : children.Perm children') :
    Reordered (.directory mode children) (.directory mode children')
  | inside {mode : Nat} {name : String} {e e' : FileEntry} (front back : List (String × FileEntry))
      (h : Reordered e e') :
    Reordered (.directory mode (front ++ (name, e) :: back))
      (.directory mode (front ++ (name, e') :: back))
  | trans {e e' e'' : FileEntry} (h : Reordered e e') (h' : Reordered e' e'') : Reordered e e''

/-- The entries of each directory have distinct names. -/
def NamesDistinct (e : FileEntry) : Prop :=
  ∀ names mode children, e.get? names = some (.directory mode children) →
    (children.map (·.1)).Nodup

/-! ## Entries under names -/

/-- What is found under a name is an entry with this name. -/
theorem mem_of_child? {name : String} {e : FileEntry} {children : List (String × FileEntry)}
    (h : child? name children = some e) : (name, e) ∈ children := by
  induction children with
  | nil => cases h
  | cons child children ih =>
    obtain ⟨n, e'⟩ := child
    rw [child?] at h
    split at h
    · rename_i hn
      cases h
      exact hn ▸ List.mem_cons_self
    · exact List.mem_cons_of_mem _ (ih h)

/-- Nothing is found under a name that no entry has. -/
theorem child?_eq_none {name : String} {children : List (String × FileEntry)}
    (h : name ∉ children.map (·.1)) : child? name children = none :=
  Option.eq_none_iff_forall_ne_some.mpr fun _ he =>
    h (List.mem_map_of_mem (f := (·.1)) (mem_of_child? he))

/-- With distinct names, an entry is what is found under its name. -/
theorem child?_of_mem {name : String} {e : FileEntry} {children : List (String × FileEntry)}
    (hdistinct : (children.map (·.1)).Nodup) (h : (name, e) ∈ children) :
    child? name children = some e := by
  induction children with
  | nil => cases h
  | cons child children ih =>
    obtain ⟨n, e'⟩ := child
    obtain ⟨hnew, hrest⟩ := List.nodup_cons.mp hdistinct
    rcases List.mem_cons.mp h with heq | hmem
    · cases heq
      exact if_pos rfl
    · have hne : n ≠ name := fun hn => hnew (hn ▸ List.mem_map_of_mem (f := (·.1)) hmem)
      rw [child?, if_neg hne]
      exact ih hrest hmem

/-- With distinct names, the order makes no difference to what is found. -/
theorem child?_of_perm {children children' : List (String × FileEntry)}
    (h : children.Perm children') (hdistinct : (children.map (·.1)).Nodup) (name : String) :
    child? name children = child? name children' := by
  have hdistinct' := (h.map (·.1)).nodup_iff.mp hdistinct
  refine Option.ext fun e => ⟨fun he => ?_, fun he => ?_⟩
  · exact child?_of_mem hdistinct' (h.mem_iff.mp (mem_of_child? he))
  · exact child?_of_mem hdistinct (h.mem_iff.mpr (mem_of_child? he))

/-- With distinct names, a change under a name is one of each entry by its name. -/
theorem updateChild_eq_map {name : String} {f : FileEntry → FileEntry}
    {children : List (String × FileEntry)} (hdistinct : (children.map (·.1)).Nodup) :
    updateChild name f children =
      children.map fun c => if c.1 = name then (c.1, f c.2) else c := by
  induction children with
  | nil => rfl
  | cons child children ih =>
    obtain ⟨n, e⟩ := child
    obtain ⟨hnew, hrest⟩ := List.nodup_cons.mp hdistinct
    rw [updateChild, List.map_cons]
    by_cases hn : n = name
    · have hkept : (children.map fun c => if c.1 = name then (c.1, f c.2) else c) = children := by
        refine (List.map_congr_left fun c hc => if_neg ?_).trans (List.map_id' _)
        rintro rfl
        exact hnew (hn ▸ List.mem_map_of_mem (f := (·.1)) hc)
      rw [if_pos hn, if_pos hn, hkept]
    · rw [if_neg hn, if_neg hn, ih hrest]

/-- A change under a name happens to the first entry that has it. -/
theorem updateChild_append (name : String) (f : FileEntry → FileEntry)
    (front back : List (String × FileEntry)) :
    updateChild name f (front ++ back) = if (child? name front).isSome then
        updateChild name f front ++ back
      else front ++ updateChild name f back := by
  induction front with
  | nil => rfl
  | cons child front ih =>
    obtain ⟨n, e⟩ := child
    by_cases hn : n = name
    · simp [updateChild, child?, hn]
    · rw [List.cons_append, updateChild, if_neg hn, ih, updateChild, if_neg hn, child?, if_neg hn]
      split <;> rfl

/-- Names are kept when an entry is changed. -/
theorem map_fst_updateChild (name : String) (f : FileEntry → FileEntry)
    (children : List (String × FileEntry)) :
    (updateChild name f children).map (·.1) = children.map (·.1) := by
  induction children with
  | nil => rfl
  | cons child children ih =>
    obtain ⟨n, e⟩ := child
    rw [updateChild]
    split
    · rfl
    · rw [List.map_cons, ih, List.map_cons]

/-- What is no directory lists no names. -/
theorem namesDistinct_of_not_directory {e : FileEntry}
    (h : ∀ mode children, e ≠ .directory mode children) : e.NamesDistinct := by
  intro names mode children hchildren
  cases names with
  | nil =>
    rw [get?] at hchildren
    exact absurd (Option.some.inj hchildren) (h mode children)
  | cons name names =>
    cases e with
    | directory mode children => exact absurd rfl (h mode children)
    | file mode content => cases hchildren
    | link target => cases hchildren
    | special => cases hchildren

/-- The names are distinct in a directory and below it. -/
theorem namesDistinct_directory {mode : Nat} {children : List (String × FileEntry)}
    (h : (children.map (·.1)).Nodup) (hinner : ∀ child ∈ children, child.2.NamesDistinct) :
    (FileEntry.directory mode children).NamesDistinct := by
  intro names innerMode inner hfound
  cases names with
  | nil =>
    rw [get?] at hfound
    cases hfound
    exact h
  | cons name names =>
    obtain ⟨e, hchild, he⟩ := Option.bind_eq_some_iff.mp hfound
    exact hinner (name, e) (mem_of_child? hchild) names innerMode inner he

/-! ## Entries in another order -/

namespace Reordered

variable {e e' : FileEntry}

/-- What is no directory stays as it is, and a directory has the same names. -/
theorem cases (h : Reordered e e') :
    e' = e ∨ ∃ mode children children', e = .directory mode children ∧
      e' = .directory mode children' ∧ (children.map (·.1)).Perm (children'.map (·.1)) := by
  induction h with
  | refl e => exact .inl rfl
  | order h => exact .inr ⟨_, _, _, rfl, rfl, h.map _⟩
  | inside front back h => exact .inr ⟨_, _, _, rfl, rfl, by simp⟩
  | trans h h' ih ih' =>
    rcases ih with rfl | ⟨mode, children, children', rfl, rfl, hnames⟩
    · exact ih'
    · rcases ih' with rfl | ⟨_, _, children'', heq, rfl, hnames'⟩
      · exact .inr ⟨_, _, _, rfl, rfl, hnames⟩
      · cases heq
        exact .inr ⟨_, _, _, rfl, rfl, hnames.trans hnames'⟩

/-- A directory that lists its entries in another order is a directory. -/
theorem exists_of_directory {mode : Nat} {children : List (String × FileEntry)}
    (h : Reordered (.directory mode children) e') :
    ∃ children', e' = .directory mode children' ∧
      (children.map (·.1)).Perm (children'.map (·.1)) := by
  rcases h.cases with rfl | ⟨_, _, children', heq, rfl, hnames⟩
  · exact ⟨children, rfl, .refl _⟩
  · cases heq
    exact ⟨children', rfl, hnames⟩

/-- It came from a directory. -/
theorem exists_of_directory' {mode : Nat} {children' : List (String × FileEntry)}
    (h : Reordered e (.directory mode children')) :
    ∃ children, e = .directory mode children ∧
      (children.map (·.1)).Perm (children'.map (·.1)) := by
  rcases h.cases with rfl | ⟨_, children, _, rfl, heq, hnames⟩
  · exact ⟨children', rfl, .refl _⟩
  · cases heq
    exact ⟨children, rfl, hnames⟩

/-- Distinct names are distinct in any order. -/
theorem namesDistinct_of_rel (hdistinct : e.NamesDistinct)
    (h : ∀ names, Option.Rel Reordered (e.get? names) (e'.get? names)) : e'.NamesDistinct := by
  intro names mode children' hchildren'
  have hrel := h names
  rw [hchildren'] at hrel
  cases hfound : e.get? names with
  | none => rw [hfound] at hrel; cases hrel
  | some found =>
    rw [hfound] at hrel
    cases hrel with
    | some hreordered =>
      obtain ⟨children, rfl, hnames⟩ := hreordered.exists_of_directory'
      exact hnames.nodup_iff.mp (hdistinct names mode children hfound)

end Reordered

/-- An entry is what it is in any order. -/
theorem rel_reordered_refl (found : Option FileEntry) : Option.Rel Reordered found found := by
  cases found with
  | none => exact .none
  | some e => exact .some (.refl e)

/-- The entries inside of an entry have distinct names, too. -/
theorem NamesDistinct.inside {mode : Nat} {name : String} {e : FileEntry}
    {children : List (String × FileEntry)} (h : NamesDistinct (.directory mode children))
    (hchild : child? name children = some e) : e.NamesDistinct := by
  intro names innerMode inner hinner
  exact h (name :: names) innerMode inner (by rw [get?, hchild]; exact hinner)

namespace Reordered

/-- **Names lead to the same entries** in any order, if the names in each directory are distinct.

**Proof sketch.** Induction on how the order changes.  In a directory with distinct names the order
makes no difference to what is found under a name; under the name of an entry inside of which the
order changes, the names that are left lead on there. -/
theorem get? {e e' : FileEntry} (h : Reordered e e') (hdistinct : e.NamesDistinct)
    (names : List String) : Option.Rel Reordered (e.get? names) (e'.get? names) := by
  induction h generalizing names with
  | refl e => exact rel_reordered_refl _
  | @order mode children children' h =>
    cases names with
    | nil => exact .some (.order h)
    | cons name names =>
      rw [FileEntry.get?, FileEntry.get?,
        child?_of_perm h (hdistinct [] mode children (by rw [FileEntry.get?]))]
      exact rel_reordered_refl _
  | @inside mode name e e' front back h ih =>
    cases names with
    | nil => exact .some (.inside front back h)
    | cons next names =>
      rw [FileEntry.get?, FileEntry.get?, child?_append, child?_append]
      cases hfront : child? next front with
      | some found => exact rel_reordered_refl _
      | none =>
        rw [Option.none_or, Option.none_or, child?, child?]
        by_cases hnext : name = next
        · have hfound : child? next (front ++ (name, e) :: back) = some e := by
            rw [child?_append, hfront, Option.none_or, child?, if_pos hnext]
          rw [if_pos hnext, if_pos hnext]
          exact ih (hdistinct.inside hfound) names
        · rw [if_neg hnext, if_neg hnext]
          exact rel_reordered_refl _
  | @trans e e' e'' h h' ih ih' =>
    have hfirst := ih hdistinct names
    have hsecond := ih' (namesDistinct_of_rel hdistinct (ih hdistinct)) names
    generalize e.get? names = found at hfirst
    generalize e'.get? names = found' at hfirst hsecond
    cases hfirst with
    | none => exact hsecond
    | some hfound =>
      generalize e''.get? names = found'' at hsecond
      cases hsecond with
      | some hfound' => exact .some (hfound.trans hfound')

/-- Names that are distinct are distinct in any order. -/
theorem namesDistinct {e e' : FileEntry} (h : Reordered e e') (hdistinct : e.NamesDistinct) :
    e'.NamesDistinct :=
  namesDistinct_of_rel hdistinct (h.get? hdistinct)

/-- **Changes of entries make no difference** but for the order, if the names in each directory are
distinct.

**Proof sketch.** Induction on how the order changes.  A change in a directory with distinct names
happens to the entry with the name, wherever it is listed; a change beside an entry inside of which
the order changes leaves it alone. -/
theorem update {e e' : FileEntry} {f : FileEntry → FileEntry} (h : Reordered e e')
    (hdistinct : e.NamesDistinct) (hf : ∀ {e e'}, Reordered e e' → Reordered (f e) (f e'))
    (names : List String) : Reordered (e.update names f) (e'.update names f) := by
  induction h generalizing names with
  | refl e => exact .refl _
  | @order mode children children' h =>
    cases names with
    | nil => exact hf (.order h)
    | cons name names =>
      have hnames := hdistinct [] mode children (by rw [FileEntry.get?])
      rw [FileEntry.update, FileEntry.update, updateChild_eq_map hnames,
        updateChild_eq_map ((h.map (·.1)).nodup_iff.mp hnames)]
      exact .order (h.map _)
  | @inside mode name e e' front back h ih =>
    cases names with
    | nil => exact hf (.inside front back h)
    | cons next names =>
      rw [FileEntry.update, FileEntry.update, updateChild_append, updateChild_append]
      cases hfront : child? next front with
      | some found => exact .inside _ back h
      | none =>
        simp only [Option.isSome_none, Bool.false_eq_true, if_false]
        rw [updateChild, updateChild]
        by_cases hnext : name = next
        · have hfound : child? next (front ++ (name, e) :: back) = some e := by
            rw [child?_append, hfront, Option.none_or, child?, if_pos hnext]
          rw [if_pos hnext, if_pos hnext]
          exact .inside front back (ih (hdistinct.inside hfound) names)
        · rw [if_neg hnext, if_neg hnext]
          exact .inside front _ h
  | trans h h' ih ih' =>
    exact (ih hdistinct names).trans (ih' (h.namesDistinct hdistinct) names)

/-- One more entry makes no difference. -/
theorem addChild {e e' : FileEntry} (h : Reordered e e') (name : String) (child : FileEntry) :
    Reordered (FileEntry.addChild name child e) (FileEntry.addChild name child e') := by
  induction h with
  | refl e => exact .refl _
  | order h => exact .order (h.append_right _)
  | @inside mode other e e' front back h ih =>
    simp only [FileEntry.addChild, List.append_assoc, List.cons_append]
    exact .inside front _ h
  | trans h h' ih ih' => exact ih.trans ih'

end Reordered

end FileEntry

/-! ## Trees -/

namespace FileTree

/-- **The same tree, but for the order** in which its directories list their entries. -/
structure Reordered (t t' : FileTree) : Prop where
  root : t.root.Reordered t'.root
  workingDirectory : t.workingDirectory = t'.workingDirectory

variable {root root' : FileEntry} {t t' : FileTree} {names : List String} {e : FileEntry}

/-- **A walk ends at the same entry** in each tree that has the same entries, but for the order.

**Proof sketch.** Induction on the walk, which only looks at whether an entry is a directory, a file
or a link, and at where a link leads. -/
theorem walk_of_rel
    (hroot : ∀ names, Option.Rel FileEntry.Reordered (root.get? names) (root'.get? names))
    {links : Nat} {here todo : List String} (h : walk root links here todo = .ok (names, e)) :
    ∃ e', walk root' links here todo = .ok (names, e') ∧ e.Reordered e' := by
  have hget : ∀ {names e}, root.get? names = some e →
      ∃ e', root'.get? names = some e' ∧ e.Reordered e' := by
    intro names e he
    have hrel := hroot names
    rw [he] at hrel
    cases hfound : root'.get? names with
    | none => rw [hfound] at hrel; cases hrel
    | some e' =>
      rw [hfound] at hrel
      cases hrel with
      | some hreordered => exact ⟨e', rfl, hreordered⟩
  fun_induction walk root links here todo with
  | case1 links here found hfound =>
    cases h
    obtain ⟨e', he', hreordered⟩ := hget hfound
    exact ⟨e', by rw [walk, he'], hreordered⟩
  | case3 links here rest ih =>
    rw [walk, if_pos rfl]
    exact ih h
  | case4 links here rest hdot ih =>
    rw [walk, if_neg hdot, if_pos rfl]
    exact ih h
  | case7 links here name rest hdot hdots hlong mode children hfound ih =>
    obtain ⟨_, he', hreordered⟩ := hget hfound
    obtain ⟨children', rfl, -⟩ := hreordered.exists_of_directory
    rw [walk, if_neg hdot, if_neg hdots, if_neg hlong, he']
    exact ih h
  | case8 links here name rest hdot hdots hlong mode content hfound hlast =>
    cases h
    obtain ⟨_, he', hreordered⟩ := hget hfound
    obtain rfl : _ = FileEntry.file mode content := hreordered.cases.resolve_right (by simp)
    refine ⟨_, ?_, .refl _⟩
    rw [walk, if_neg hdot, if_neg hdots, if_neg hlong, he']
    exact if_pos hlast
  | case11 here name rest hdot hdots hlong target hfound links start ih =>
    obtain ⟨_, he', hreordered⟩ := hget hfound
    obtain rfl : _ = FileEntry.link target := hreordered.cases.resolve_right (by simp)
    rw [walk, if_neg hdot, if_neg hdots, if_neg hlong, he']
    exact ih h
  | case12 links here name rest hdot hdots hlong hfound hlast =>
    cases h
    obtain ⟨_, he', hreordered⟩ := hget hfound
    obtain rfl : _ = FileEntry.special := hreordered.cases.resolve_right (by simp)
    refine ⟨_, ?_, .refl _⟩
    rw [walk, if_neg hdot, if_neg hdots, if_neg hlong, he']
    exact if_pos hlast
  | _ => cases h

/-- **Paths lead to the same entries** in any order, if the names in each directory are distinct. -/
theorem resolve_of_reordered (h : t.Reordered t') (hdistinct : t.root.NamesDistinct)
    {path : String} (hpath : t.resolve path = .ok (names, e)) :
    ∃ e', t'.resolve path = .ok (names, e') ∧ e.Reordered e' := by
  obtain ⟨hempty, hnul, hlong, hwalk⟩ := resolve_eq_ok_iff.mp hpath
  obtain ⟨e', hwalk', hreordered⟩ := walk_of_rel (h.root.get? hdistinct) hwalk
  rw [h.workingDirectory] at hwalk'
  exact ⟨e', resolve_eq_ok_iff.mpr ⟨hempty, hnul, hlong, hwalk'⟩, hreordered⟩

/-- A file that is added to a directory makes no difference but for the order. -/
theorem Reordered.add (h : t.Reordered t') (hdistinct : t.root.NamesDistinct) (dir : List String)
    (name : String) (entry : FileEntry) :
    (t.add dir name entry).Reordered (t'.add dir name entry) where
  root := h.root.update hdistinct (fun hreordered => hreordered.addChild name entry) dir
  workingDirectory := h.workingDirectory

/-- A file with a new name leaves the names in each directory distinct. -/
theorem namesDistinct_add {d : List String} {name : String} {mode fileMode : Nat}
    {content : ByteArray} {children : List (String × FileEntry)}
    (hdistinct : t.root.NamesDistinct)
    (hd : t.root.get? d = some (.directory mode children)) (hname : name ∉ children.map (·.1)) :
    (t.add d name (.file fileMode content)).root.NamesDistinct := by
  intro names dirMode after hafter
  obtain ⟨before, hbefore, hchange⟩ := get?_add_directory hd hafter
  have hnames := hdistinct names dirMode before hbefore
  rcases hchange with ⟨q, rfl, hupdate⟩ | ⟨-, rfl⟩
  · cases q with
    | nil =>
      rw [List.append_nil] at hd
      cases hbefore.symm.trans hd
      cases hupdate
      rw [List.map_append]
      exact List.nodup_append_comm.mp (List.nodup_cons.mpr ⟨hname, hnames⟩)
    | cons next q =>
      cases hupdate
      rw [FileEntry.map_fst_updateChild]
      exact hnames
  · exact hnames

end FileTree

end DeployPlan
