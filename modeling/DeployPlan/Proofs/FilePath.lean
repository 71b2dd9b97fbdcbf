import DeployPlan.Source.Archive

/-!
# The parents of paths

The path of the directory beside which an archive is written is cut out of the path of the directory
that is packed.  The names to walk along are those of the whole path without the last, if single
points do not count.

## Main definitions

* `FilePath.endsFrom` — the names of a path with the places where they end, from the start.
* `FilePath.route` — the names to walk along for a path, without single points.

## Main results

* `FilePath.endsFrom_take` — a path that is cut where a name ends has the names up to that one.
* `FilePath.route_parentPath` — the names of the parent are all but the last.
* `FilePath.fileName?_eq` — the name that a path ends with is the last, unless that leads upwards.
-/

set_option autoImplicit false

namespace DeployPlan

namespace FilePath

/-! ## Where names end -/

/-- A name that ends at a place, if it is one. -/
def endAt (piece : List Char) (n : Nat) : List (List Char × Nat) :=
  if piece = [] then [] else [(piece, n)]

/-- The names of a path with the places where they end; `piece` is the start of the first name, and
`n` the place where it is continued. -/
def endsFrom (piece : List Char) (n : Nat) : List Char → List (List Char × Nat)
  | [] => endAt piece n
  | c :: cs =>
    if c = '/' then endAt piece n ++ endsFrom [] (n + 1) cs
    else endsFrom (piece ++ [c]) (n + 1) cs

/-- From the end, these are the ends of a path. -/
theorem ends_eq_reverse (cs : List Char) : ends cs = (endsFrom [] 0 cs).reverse := by
  have hfold : ∀ (cs : List Char) (piece : List Char) (n : Nat) (done : List (List Char × Nat)),
      (let s := cs.foldl (fun s c =>
          if c = '/' then ([], s.2.1 + 1, if s.1.isEmpty then s.2.2 else (s.1, s.2.1) :: s.2.2)
          else (s.1 ++ [c], s.2.1 + 1, s.2.2)) (piece, n, done)
        if s.1.isEmpty then s.2.2 else (s.1, s.2.1) :: s.2.2) =
        (endsFrom piece n cs).reverse ++ done := by
    intro cs
    induction cs with
    | nil =>
      intro piece n done
      cases piece <;> simp [endsFrom, endAt]
    | cons c cs ih =>
      intro piece n done
      rw [List.foldl_cons]
      by_cases hc : c = '/'
      · simp only [if_pos hc, ih, endsFrom]
        cases piece <;> simp [endAt]
      · simp only [if_neg hc, ih, endsFrom]
  exact (hfold cs [] 0 []).trans (List.append_nil _)

/-- The names are the pieces between the slashes that are not empty. -/
theorem map_fst_endsFrom (piece : List Char) (n : Nat) (cs : List Char) :
    (endsFrom piece n cs).map (·.1) =
      (match Text.splitAt '/' cs with
        | [] => [piece]
        | first :: rest => (piece ++ first) :: rest).filter (· ≠ []) := by
  induction cs generalizing piece n with
  | nil => cases piece <;> simp [endsFrom, endAt, Text.splitAt]
  | cons c cs ih =>
    rw [endsFrom, Text.splitAt]
    split
    · rw [List.map_append, ih]
      cases Text.splitAt '/' cs <;> cases piece <;> simp [endAt]
    · rw [ih]
      cases Text.splitAt '/' cs <;> simp

/-- **A path that is cut where a name ends** has the names up to that one. -/
theorem endsFrom_take {piece : List Char} {n : Nat} {cs : List Char}
    {front back : List (List Char × Nat)} {name : List Char} {k : Nat}
    (h : endsFrom piece n cs = front ++ (name, k) :: back) :
    n ≤ k ∧ endsFrom piece n (cs.take (k - n)) = front ++ [(name, k)] := by
  induction cs generalizing piece n front with
  | nil =>
    rw [endsFrom, endAt] at h
    split at h
    · simp at h
    · rename_i hpiece
      obtain ⟨rfl, hname⟩ := List.append_eq_singleton_iff.mp h.symm |>.resolve_right (by simp)
      simp only [List.cons.injEq, Prod.mk.injEq] at hname
      obtain ⟨⟨rfl, rfl⟩, -⟩ := hname
      simp [endsFrom, endAt, hpiece]
  | cons c cs ih =>
    -- A name that ends later ends where it does after the first character.
    have hlater : ∀ {k : Nat}, n + 1 ≤ k → (c :: cs).take (k - n) = c :: cs.take (k - (n + 1)) := by
      intro k hk
      obtain ⟨m, rfl⟩ := Nat.exists_eq_add_of_le hk
      rw [show n + 1 + m - n = m + 1 by omega, List.take_succ_cons, Nat.add_sub_cancel_left]
    rw [endsFrom] at h
    split at h
    case isTrue hc =>
      by_cases hpiece : piece = []
      · rw [endAt, if_pos hpiece, List.nil_append] at h
        obtain ⟨hk, hends⟩ := ih h
        rw [hlater hk, endsFrom, if_pos hc, endAt, if_pos hpiece, List.nil_append]
        exact ⟨Nat.le_of_succ_le hk, hends⟩
      · rw [endAt, if_neg hpiece, List.singleton_append] at h
        cases front with
        | nil =>
          simp only [List.nil_append, List.cons.injEq, Prod.mk.injEq] at h
          obtain ⟨⟨rfl, rfl⟩, -⟩ := h
          simp [endsFrom, endAt, hpiece]
        | cons first front =>
          obtain ⟨rfl, hrest⟩ := List.cons.inj h
          obtain ⟨hk, hends⟩ := ih hrest
          rw [hlater hk, endsFrom, if_pos hc, endAt, if_neg hpiece, hends]
          exact ⟨Nat.le_of_succ_le hk, rfl⟩
    case isFalse hc =>
      obtain ⟨hk, hends⟩ := ih h
      rw [hlater hk, endsFrom, if_neg hc]
      exact ⟨Nat.le_of_succ_le hk, hends⟩

/-- The same for a whole path. -/
theorem endsFrom_take_of_eq {cs : List Char} {front back : List (List Char × Nat)}
    {name : List Char} {k : Nat} (h : endsFrom [] 0 cs = front ++ (name, k) :: back) :
    endsFrom [] 0 (cs.take k) = front ++ [(name, k)] :=
  (endsFrom_take h).2

/-- A name ends behind the start of the path, and one that ends behind the first character is the
first. -/
theorem pos_of_endsFrom {cs : List Char} {front back : List (List Char × Nat)}
    {name : List Char} {k : Nat} (h : endsFrom [] 0 cs = front ++ (name, k) :: back) :
    0 < k ∧ (k = 1 → front = []) := by
  have hends := endsFrom_take_of_eq h
  match k with
  | 0 =>
    rw [List.take_zero, endsFrom, endAt, if_pos rfl] at hends
    exact absurd hends.symm (by simp)
  | 1 =>
    refine ⟨Nat.one_pos, fun _ => ?_⟩
    cases cs with
    | nil =>
      rw [List.take_nil, endsFrom, endAt, if_pos rfl] at hends
      exact absurd hends.symm (by simp)
    | cons c cs =>
      rw [List.take_succ_cons, List.take_zero, endsFrom] at hends
      split at hends
      · exact absurd hends.symm (by simp [endsFrom, endAt])
      · exact ((List.append_eq_singleton_iff.mp hends.symm).resolve_right (by simp)).1
  | k + 2 => exact ⟨by omega, fun h => absurd h (by omega)⟩

/-! ## Routes -/

/-- The names to walk along for a path, without single points. -/
def route (path : String) : List String := (FileTree.steps path).filter (· != ".")

/-- The names of a path that are not single points. -/
def undotted (l : List (List Char × Nat)) : List (List Char × Nat) := l.filter (·.1 ≠ ['.'])

/-- A slash at the end of a path does not count. -/
theorem route_eq_filter (path : String) :
    route path = ((Text.split '/' path).filter fun n => !n.isEmpty).filter (· != ".") := by
  rw [route, FileTree.steps]
  split
  · rw [List.filter_append]
    exact List.append_nil _
  · rfl

/-- A route is made of the names of the path. -/
theorem route_eq (path : String) :
    route path = (undotted (endsFrom [] 0 path.toList)).map fun e => String.ofList e.1 := by
  have hnames : (endsFrom [] 0 path.toList).map (·.1) =
      (Text.splitAt '/' path.toList).filter (· ≠ []) := by
    rw [map_fst_endsFrom]
    cases Text.splitAt '/' path.toList <;> simp
  have hsplit : (Text.split '/' path).filter (fun n => !n.isEmpty) =
      (endsFrom [] 0 path.toList).map fun e => String.ofList e.1 := by
    have hmap : ((endsFrom [] 0 path.toList).map fun e => String.ofList e.1) =
        ((endsFrom [] 0 path.toList).map (·.1)).map String.ofList := by rw [List.map_map]; rfl
    rw [Text.split, List.filter_map, hmap, hnames]
    congr 1
    refine List.filter_congr fun piece _ => ?_
    cases piece <;> simp
  have hdot : ∀ piece : List Char, String.ofList piece = "." ↔ piece = ['.'] := fun piece =>
    ⟨fun h => by simpa using congrArg String.toList h, fun h => by rw [h]⟩
  rw [route_eq_filter, hsplit, undotted, List.filter_map]
  congr 1
  refine List.filter_congr fun e _ => ?_
  by_cases h : e.1 = ['.'] <;> simp [h, bne, hdot]

/-! ## Parents -/

/-- Whether a path starts at the root is told by its first character. -/
theorem isAbsolute_eq (path : String) : isAbsolute path = (path.toList.head? == some '/') := by
  rw [isAbsolute, Text.startsWith]
  cases path.toList with
  | nil => rfl
  | cons c cs =>
    show (('/' == c) && List.isPrefixOf [] cs) = (some c == some '/')
    rw [List.isPrefixOf, Bool.and_true, BEq.comm]
    rfl

/-- Whether a name counts for the parent of a path: a single point only at the start of a relative
path. -/
def counted (relative : Bool) (l : List (List Char × Nat)) : List (List Char × Nat) :=
  l.filter fun e => e.1 != ['.'] || (relative && e.2 == 1)

/-- The parent of a path ends where the last name but one that counts does. -/
theorem parent?_eq (path : String) :
    parent? path = match (counted (!isAbsolute path) (endsFrom [] 0 path.toList)).reverse with
      | [] => none
      | [_] => some (if isAbsolute path then "/" else "")
      | _ :: (_, n) :: _ => some (String.ofList (path.toList.take n)) := by
  rw [parent?, ends_eq_reverse, List.filter_reverse, counted]
  cases isAbsolute path <;> rfl

/-- Of the names that count, those that are no single points are left. -/
theorem undotted_counted (relative : Bool) (l : List (List Char × Nat)) :
    undotted (counted relative l) = undotted l := by
  rw [undotted, counted, List.filter_filter]
  refine List.filter_congr fun e _ => ?_
  by_cases h : e.1 = ['.'] <;> simp [h]

/-- A single point that counts is the first name, in a relative path. -/
theorem eq_nil_of_counted_point {relative : Bool} {cs : List Char}
    {front back : List (List Char × Nat)} {k : Nat}
    (hends : endsFrom [] 0 cs = front ++ (['.'], k) :: back)
    (hcounted : (['.'] != ['.'] || (relative && k == 1)) = true) :
    front = [] ∧ relative = true := by
  simp only [bne_self_eq_false, Bool.false_or, Bool.and_eq_true, beq_iff_eq] at hcounted
  exact ⟨(pos_of_endsFrom hends).2 hcounted.2, hcounted.1⟩

/-- Where the last name but one that counts ends, the names end that are followed by the last one
alone, if single points are left out. -/
theorem exists_split_of_counted {relative : Bool} {cs : List Char}
    {rest : List (List Char × Nat)} {last before : List Char × Nat}
    (h : (counted relative (endsFrom [] 0 cs)).reverse = last :: before :: rest) :
    ∃ front back, endsFrom [] 0 cs = front ++ before :: back ∧ undotted back = [last] := by
  have hcounted : counted relative (endsFrom [] 0 cs) = rest.reverse ++ before :: [last] := by
    rw [← List.reverse_reverse (counted _ _), h]
    simp
  obtain ⟨first, second, hsplit, -, hsecond⟩ := List.filter_eq_append_iff.mp hcounted
  obtain ⟨skipped, back, rfl, -, -, hback⟩ := List.filter_eq_cons_iff.mp hsecond
  refine ⟨first ++ skipped, back, by rw [hsplit, List.append_assoc], ?_⟩
  have hlast : last.1 ≠ ['.'] := by
    -- A single point that counts would be the first name.
    intro hpoint
    obtain ⟨skipped', back', rfl, -, hcount, -⟩ := List.filter_eq_cons_iff.mp hback
    obtain ⟨name, k⟩ := last
    obtain rfl : name = ['.'] := hpoint
    have hends : endsFrom [] 0 cs =
        (first ++ skipped ++ before :: skipped') ++ (['.'], k) :: back' := by
      rw [hsplit]
      simp
    have hnil := (eq_nil_of_counted_point hends hcount).1
    simp at hnil
  rw [← undotted_counted relative, counted, hback]
  simp [undotted, hlast]

/-- **The names of the parent are all but the last**, and lead on from the same start. -/
theorem route_parentPath {path name : String} {front : List String}
    (h : route path = front ++ [name]) :
    route (ScratchFile.parentPath path) = front ∧
      isAbsolute (ScratchFile.parentPath path) = isAbsolute path := by
  rw [ScratchFile.parentPath, parent?_eq]
  rw [route_eq] at h
  split
  case h_1 hnone =>
    rw [← undotted_counted (!isAbsolute path), List.reverse_eq_nil_iff.mp hnone] at h
    simp [undotted] at h
  case h_2 last hone =>
    -- The parent is the start.
    have hfront : front = [] := by
      rw [← undotted_counted (!isAbsolute path), List.reverse_eq_iff.mp hone] at h
      have hlength := congrArg List.length h
      have hle : (undotted [last]).length ≤ 1 := List.length_filter_le _ _
      simp only [List.reverse_singleton, List.length_map, List.length_append,
        List.length_singleton] at hlength
      exact List.eq_nil_of_length_eq_zero (by omega)
    subst hfront
    cases isAbsolute path <;> exact ⟨by decide +kernel, by decide +kernel⟩
  case h_3 last before n rest hmore =>
    obtain ⟨first, back, hends, hback⟩ := exists_split_of_counted hmore
    have hpos := (pos_of_endsFrom hends).1
    have hne : path.toList ≠ [] := by
      intro hnil
      rw [hnil] at hends
      exact absurd hends.symm (by simp [endsFrom, endAt])
    have hcut : path.toList.take n ≠ [] := by
      simpa [List.take_eq_nil_iff, hne] using Nat.ne_of_gt hpos
    have hkept : ((some (String.ofList (path.toList.take n))).filter fun p => !p.isEmpty) =
        some (String.ofList (path.toList.take n)) := by
      simp [Option.filter, hcut]
    rw [hkept, Option.getD_some, route_eq, isAbsolute_eq, isAbsolute_eq, String.toList_ofList,
      endsFrom_take_of_eq hends, List.head?_take, if_neg (Nat.ne_of_gt hpos)]
    refine ⟨?_, rfl⟩
    rw [hends, List.append_cons, undotted, List.filter_append, ← undotted, ← undotted, hback,
      List.map_append] at h
    exact (List.append_inj' h rfl).1

/-- Of a path without names, the parent is where relative paths start from. -/
theorem parentPath_of_route_eq_nil {path : String} (h : route path = []) :
    ScratchFile.parentPath path = "." := by
  rw [ScratchFile.parentPath, parent?_eq]
  rw [route_eq, List.map_eq_nil_iff] at h
  split
  case h_1 => rfl
  case h_2 last hone =>
    have hcounted := List.reverse_eq_iff.mp hone
    rw [List.reverse_singleton] at hcounted
    obtain ⟨front, back, hends, -, hcount, -⟩ := List.filter_eq_cons_iff.mp hcounted
    have hpoint : last.1 = ['.'] := by
      simpa [undotted, hcounted] using (undotted_counted (!isAbsolute path) _).trans h
    obtain ⟨name, k⟩ := last
    obtain rfl : name = ['.'] := hpoint
    have hrelative := (eq_nil_of_counted_point hends hcount).2
    rw [Bool.not_eq_true'] at hrelative
    rw [hrelative]
    rfl
  case h_3 last before n rest hmore =>
    obtain ⟨front, back, hends, hback⟩ := exists_split_of_counted hmore
    obtain ⟨hmem, hlast⟩ := List.mem_filter.mp (hback ▸ List.mem_singleton_self last)
    have hall : last ∈ endsFrom [] 0 path.toList := by
      rw [hends]
      exact List.mem_append_right _ (List.mem_cons_of_mem _ hmem)
    exact absurd hlast (List.filter_eq_nil_iff.mp h last hall)

/-- **The name that a path ends with** is the last to walk along, unless that leads upwards. -/
theorem fileName?_eq (path : String) :
    fileName? path = (route path).getLast?.filter (· != "..") := by
  rw [fileName?, pieces, route_eq_filter]
  cases Text.split '/' path with
  | nil => rfl
  | cons first rest =>
    -- The two lists differ in a single point at the start alone.
    have hroute : ((first :: rest).filter fun n => !n.isEmpty).filter (· != ".") =
        ((if first.isEmpty then [] else [first]).filter (· != ".")) ++
          rest.filter fun n => !n.isEmpty && n != "." := by
      have hrest : (rest.filter fun n => !n.isEmpty).filter (· != ".") =
          rest.filter fun n => !n.isEmpty && n != "." := by
        simp only [List.filter_filter, Bool.and_comm]
      rw [← hrest, List.filter_cons, ← List.filter_append]
      cases first.isEmpty <;> rfl
    rw [hroute]
    dsimp only
    rcases List.eq_nil_or_concat (rest.filter fun n => !n.isEmpty && n != ".") with
      hnil | ⟨l, last, hlast⟩
    · rw [hnil, List.append_nil, List.append_nil]
      cases first.isEmpty with
      | true => rfl
      | false =>
        by_cases hpoint : first = "."
        · subst hpoint
          rfl
        · by_cases hup : first = ".." <;> simp [Option.filter, hpoint, hup]
    · have hpoint : last ≠ "." := by
        have hmem : last ∈ rest.filter fun n => !n.isEmpty && n != "." := by simp [hlast]
        have hkept := (List.mem_filter.mp hmem).2
        simp only [Bool.and_eq_true, bne_iff_ne] at hkept
        exact hkept.2
      rw [hlast, List.concat_eq_append, ← List.append_assoc, ← List.append_assoc,
        List.getLast?_concat, List.getLast?_concat]
      by_cases hup : last = ".." <;> simp [Option.filter, hpoint, hup]

end FilePath

end DeployPlan
