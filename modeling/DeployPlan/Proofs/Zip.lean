import DeployPlan.Bytes.Zip
import DeployPlan.Proofs.Text.Utf8
import Mathlib.Algebra.GroupWithZero.Nat
import Mathlib.Data.List.Nodup

/-!
# Zip archives are read again

Packing relies on two laws of the library that writes archives: it refuses an entry for its name
just if the name is taken, and a reader finds the entries that were added.  The plain library has
them.  Its archives are read by going through the directory at their end, where the format gives a
fixed place to each number.

## Main definitions

* `Zip.Entry.Written` — the entries of files and of directories.
* `Zip.Library.Accepts` — entries can be added in turn.
* `Zip.Library.Lawful` — the laws.

## Main results

* `Zip.Library.Lawful.nodup_names` — entries that can be added have distinct names.
* `Zip.inflate?_deflate` — a content is found in its stream.
* `Zip.read?_write` — the entries of an archive are those that it was written from.
* `Zip.Library.lawful_plain` — the plain library has the laws.
-/

set_option autoImplicit false

namespace DeployPlan

namespace Zip

/-! ## Laws of libraries -/

/-- **The entries that are written**: those of files and of directories, with options. -/
inductive Entry.Written : Entry → Prop
  | file (name : String) (o : Options) (content : List UInt8) : Written (.file name o content)
  | directory (name : String) (o : Options) : Written (.directory name o)

namespace Library

variable {L : Library} {es front back : List Entry}

/-- Entries can be added in turn behind others. -/
def Accepts (L : Library) (es : List Entry) : List Entry → Prop
  | [] => True
  | e :: more => L.refusal? es e = none ∧ L.Accepts (es ++ [e]) more

/-- Entries are added one part after the other. -/
theorem accepts_append :
    L.Accepts es (front ++ back) ↔ L.Accepts es front ∧ L.Accepts (es ++ front) back := by
  induction front generalizing es with
  | nil => rw [List.nil_append, List.append_nil, Accepts, true_and]
  | cons e front ih => rw [List.cons_append, Accepts, Accepts, ih, and_assoc, ← List.append_cons]

/-- **What is relied on of a library**: an entry is refused for its name just if another has the
name, and a reader finds the entries that were added. -/
structure Lawful (L : Library) : Prop where
  repeatedName_iff : ∀ es e, L.refusal? es e = some .repeatedName ↔ e.name ∈ es.map (·.name)
  read_write : ∀ es, (∀ e ∈ es, e.Written) → L.Accepts [] es → L.read? (L.write es) = some es

/-- **Entries that can be added have distinct names.** -/
theorem Lawful.nodup_names {more : List Entry} (hL : L.Lawful) (h : L.Accepts es more)
    (hes : (es.map (·.name)).Nodup) : ((es ++ more).map (·.name)).Nodup := by
  induction more generalizing es with
  | nil => rwa [List.append_nil]
  | cons e more ih =>
    obtain ⟨he, hmore⟩ := h
    have hnew : e.name ∉ es.map (·.name) := fun hmem => by
      rw [(hL.repeatedName_iff es e).mpr hmem] at he
      cases he
    rw [List.append_cons]
    refine ih hmore ?_
    rw [List.map_append]
    exact List.nodup_append.mpr ⟨hes, List.nodup_singleton _, fun name hname other hother => by
      obtain rfl := List.mem_singleton.mp hother
      rintro rfl
      exact hnew hname⟩

end Library

/-! ## Numbers -/

/-- A number has as many bytes as its width tells. -/
@[simp]
theorem length_number (width n : Nat) : (number width n).length = width := by
  induction width generalizing n with
  | zero => rfl
  | succ width ih => rw [number, List.length_cons, ih]

/-- The bytes of a number write it, up to their width. -/
theorem valueOf_number (width n : Nat) : valueOf (number width n) = n % 256 ^ width := by
  induction width generalizing n with
  | zero => rw [Nat.pow_zero, Nat.mod_one]; rfl
  | succ width ih =>
    have hcons : valueOf (number (width + 1) n) =
        valueOf (number width (n / 256)) * 256 + (UInt8.ofNat (n % 256)).toNat := rfl
    rw [hcons, ih, UInt8.toNat_ofNat', Nat.mod_mod, Nat.pow_succ', Nat.mod_mul]
    omega

/-- Numbers one after the other are written one after the other. -/
theorem fields_append (l l' : List (Nat × Nat)) : fields (l ++ l') = fields l ++ fields l' :=
  List.flatMap_append

/-- The bytes of numbers are as many as their widths together. -/
theorem length_fields (l : List (Nat × Nat)) : (fields l).length = (l.map (·.1)).sum := by
  simp [fields, List.length_flatMap]

/-- **Numbers are found behind those before them.** -/
theorem fields_prefix_drop {l part : List (Nat × Nat)} {r : List UInt8} {i k : Nat}
    {widths : List Nat} (hwidths : l.map (·.1) = widths) (hk : (widths.take i).sum = k)
    (hi : part <+: l.drop i) :
    fields part <+: (fields l ++ r).drop k := by
  obtain ⟨rest, hrest⟩ := hi
  rw [← hwidths, ← List.map_take, ← length_fields] at hk
  rw [← List.take_append_drop i l, ← hrest, fields_append, fields_append, List.append_assoc,
    List.append_assoc, ← hk, List.drop_left]
  exact List.prefix_append _ _

/-- The value of one of them, if it is not too great for its width. -/
theorem valueOf_field {l : List (Nat × Nat)} {r : List UInt8} {i k width n : Nat}
    {widths : List Nat} (hwidths : l.map (·.1) = widths) (hk : (widths.take i).sum = k)
    (hi : l[i]? = some (width, n)) (hn : n < 256 ^ width) :
    valueOf (((fields l ++ r).drop k).take width) = n := by
  have hpart : [(width, n)] <+: l.drop i := by
    obtain ⟨hlt, heq⟩ := List.getElem?_eq_some_iff.mp hi
    rw [List.drop_eq_getElem_cons hlt, heq]
    exact List.prefix_append [(width, n)] _
  have hfield := List.prefix_iff_eq_take.mp (fields_prefix_drop (r := r) hwidths hk hpart)
  rw [show fields [(width, n)] = number width n from List.append_nil _, length_number] at hfield
  rw [← hfield, valueOf_number, Nat.mod_eq_of_lt hn]

/-! ## Streams -/

/-- A block is read by its length. -/
theorem inflate?_block {last n other : Nat} (hn : n < 65536) (more : List UInt8) :
    inflate? (fields [(1, last), (2, n), (2, other)] ++ more) =
      if more.length < n then none
      else if UInt8.ofNat (last % 256) = 1 then some (more.take n)
      else if UInt8.ofNat (last % 256) = 0 then
        (inflate? (more.drop n)).map fun rest => more.take n ++ rest
      else none := by
  have hvalue : valueOf [UInt8.ofNat (n % 256), UInt8.ofNat (n / 256 % 256)] = n :=
    (valueOf_number 2 n).trans (Nat.mod_eq_of_lt hn)
  show inflate? (_ :: _ :: _ :: _ :: _ :: more) = _
  rw [inflate?, hvalue]

/-- **A content is found in its stream.**

**Proof sketch.** Induction on the blocks.  Each is preceded by its length, and by whether it is the
last one. -/
theorem inflate?_deflate (content : List UInt8) : inflate? (deflate content) = some content := by
  fun_induction deflate content with
  | case1 content h =>
    rw [inflate?_block (Nat.lt_succ_of_le h), if_neg (Nat.lt_irrefl _),
      if_pos (by decide), List.take_length]
  | case2 content h ih =>
    have hlength : (content.take maxBlock).length = maxBlock :=
      List.length_take_of_le (Nat.le_of_not_le h)
    rw [List.append_assoc, inflate?_block (by decide), if_neg (by simp [hlength]),
      if_neg (by decide), if_pos (by decide), List.take_left' hlength, List.drop_left' hlength, ih,
      Option.map_some, List.take_append_drop]

/-- The stream of a content is not much longer. -/
theorem length_deflate_le (content : List UInt8) :
    (deflate content).length ≤ 5 + 2 * content.length := by
  fun_induction deflate content with
  | case1 content h =>
    rw [List.length_append, length_fields]
    simp only [List.map_cons, List.map_nil, List.sum_cons, List.sum_nil]
    omega
  | case2 content h ih =>
    simp only [List.length_append, length_fields, List.map_cons, List.map_nil, List.sum_cons,
      List.sum_nil, List.length_drop, List.length_take, maxBlock] at *
    omega

/-- A content is found in what is stored of it. -/
theorem Entry.content?_stream (e : Entry) : e.method.content? e.stream = some e.content := by
  rw [stream]
  cases e.method with
  | stored => rfl
  | deflated => exact inflate?_deflate e.content

/-- A method is found by its number. -/
theorem Method.ofNumber?_number (m : Method) : ofNumber? m.number = some m := by
  cases m <;> rfl

/-! ## Records -/

/-- The numbers in front of the name in the record of an entry. -/
def localFields (e : Entry) : List (Nat × Nat) :=
  (4, 0x04034B50) :: sharedFields e

/-- The numbers in front of the name at the end of an archive. -/
def centralFields (offset : Nat) (e : Entry) : List (Nat × Nat) :=
  [(4, 0x02014B50), (2, 0x314)] ++ sharedFields e ++
    [(2, 0), (2, 0), (2, 0), (4, e.mode * 65536), (4, offset)]

/-- The widths of the numbers, which do not depend on the entry. -/
theorem map_fst_localFields (e : Entry) :
    (localFields e).map (·.1) = [4, 2, 2, 2, 2, 2, 4, 4, 4, 2, 2] := rfl

/-- The widths of the numbers in the directory of an archive. -/
theorem map_fst_centralFields (offset : Nat) (e : Entry) :
    (centralFields offset e).map (·.1) =
      [4, 2, 2, 2, 2, 2, 2, 4, 4, 4, 2, 2, 2, 2, 2, 4, 4] := rfl

/-- What stands in front of a stream is numbers, and a name behind them. -/
theorem localRecord_eq (e : Entry) :
    localRecord e = fields (localFields e) ++ (nameBytes e ++ e.stream) :=
  List.append_assoc _ _ _

/-- So is what stands in the directory of an archive. -/
theorem centralRecord_eq (offset : Nat) (e : Entry) :
    centralRecord offset e = fields (centralFields offset e) ++ nameBytes e := rfl

/-- The numbers in front of a stream have 30 bytes. -/
theorem length_localFields (e : Entry) : (fields (localFields e)).length = 30 := by
  rw [length_fields, map_fst_localFields]
  rfl

/-- Those in the directory of an archive have 46. -/
theorem length_centralFields (offset : Nat) (e : Entry) :
    (fields (centralFields offset e)).length = 46 := by
  rw [length_fields, map_fst_centralFields]
  rfl

/-- The records of entries are no longer than their weights together. -/
theorem length_records_le (offset : Nat) (es : List Entry) :
    (records offset es).1.length + (records offset es).2.length ≤ weight es := by
  induction es generalizing offset with
  | nil => rfl
  | cons e es ih =>
    have hrest := ih (offset + (localRecord e).length)
    have hstream : e.stream.length ≤ 5 + 2 * e.content.length := by
      rw [Entry.stream]
      split
      · omega
      · exact length_deflate_le e.content
    have hname : (nameBytes e).length = e.name.utf8ByteSize := rfl
    have hlocal : (localRecord e).length = 30 + (e.name.utf8ByteSize + e.stream.length) := by
      rw [localRecord_eq, List.length_append, length_localFields, List.length_append, hname]
    have hcentral : (centralRecord offset e).length = 46 + e.name.utf8ByteSize := by
      rw [centralRecord_eq, List.length_append, length_centralFields, hname]
    rw [records, weight, Entry.weight]
    dsimp only
    rw [List.length_append, List.length_append, hcentral]
    omega

/-- The numbers of an entry are read at the end of an archive.

**Proof sketch.** Each number has those before it in front, whose widths add up to its offset. -/
theorem readEntries?_cons {archive more : List UInt8} {offset : Nat} {e : Entry} {count : Nat}
    (hrecord : localRecord e <+: archive.drop offset) (hoffset : offset < 4294967296)
    (hstream : e.stream.length < 4294967296) (hname : e.name.utf8ByteSize < 65536)
    (hmode : e.mode < 65536) :
    readEntries? archive (count + 1) (centralRecord offset e ++ more) =
      (readEntries? archive count more).map (e :: ·) := by
  have hcentral : centralRecord offset e ++ more =
      fields (centralFields offset e) ++ (nameBytes e ++ more) := List.append_assoc _ _ _
  have hlong : ¬ (centralRecord offset e ++ more).length < 46 := by
    rw [hcentral, List.length_append, length_centralFields]
    omega
  have hwidths := map_fst_centralFields offset e
  have hmethod : valueOf (((centralRecord offset e ++ more).drop 10).take 2) =
      e.method.number := by
    rw [hcentral]
    exact valueOf_field (i := 4) hwidths rfl rfl (by cases e.method <;> decide)
  have htime : valueOf (((centralRecord offset e ++ more).drop 12).take 2) =
      e.modified.time.toNat := by
    rw [hcentral]
    exact valueOf_field (i := 5) hwidths rfl rfl e.modified.time.toNat_lt
  have hdate : valueOf (((centralRecord offset e ++ more).drop 14).take 2) =
      e.modified.date.toNat := by
    rw [hcentral]
    exact valueOf_field (i := 6) hwidths rfl rfl e.modified.date.toNat_lt
  have hsize : valueOf (((centralRecord offset e ++ more).drop 20).take 4) =
      e.stream.length := by
    rw [hcentral]
    exact valueOf_field (i := 8) hwidths rfl rfl hstream
  have hlength : valueOf (((centralRecord offset e ++ more).drop 28).take 2) =
      (nameBytes e).length := by
    rw [hcentral]
    exact valueOf_field (i := 10) hwidths rfl rfl hname
  have hbits : valueOf (((centralRecord offset e ++ more).drop 38).take 4) = e.mode * 65536 := by
    rw [hcentral]
    exact valueOf_field (i := 15) hwidths rfl rfl (by omega)
  have hat : valueOf (((centralRecord offset e ++ more).drop 42).take 4) = offset := by
    rw [hcentral]
    exact valueOf_field (i := 16) hwidths rfl rfl hoffset
  have hnext : (centralRecord offset e ++ more).drop 46 = nameBytes e ++ more := by
    rw [hcentral, List.drop_left' (length_centralFields offset e)]
  have hcontent : (archive.drop (offset + 30 + (nameBytes e).length)).take e.stream.length =
      e.stream := by
    obtain ⟨rest, hrest⟩ := hrecord
    rw [Nat.add_assoc, ← List.drop_drop, ← hrest, localRecord_eq, List.append_assoc,
      ← List.drop_drop, List.drop_left' (length_localFields e), List.append_assoc, List.drop_left,
      List.take_left]
  have htext : String.fromUTF8? ⟨(nameBytes e).toArray⟩ = some e.name := by
    rw [nameBytes, Array.toArray_toList]
    exact Text.fromUTF8?_toByteArray e.name
  rw [readEntries?, if_neg hlong]
  simp only [hmethod, htime, hdate, hsize, hlength, hbits, hat]
  rw [hcontent, ← List.drop_drop, hnext, List.take_left, List.drop_left, htext,
    Method.ofNumber?_number]
  cases readEntries? archive count more with
  | none => rfl
  | some es => simp [Entry.content?_stream]

/-- **The entries are read** at the end of an archive with their records.

**Proof sketch.** Induction on the entries.  What is in front of the records of the rest is longer
by the first record. -/
theorem readEntries?_records {archive more : List UInt8} {offset : Nat} {es : List Entry}
    (hrecords : (records offset es).1 <+: archive.drop offset)
    (hsize : offset + (records offset es).1.length < 4294967296)
    (hname : ∀ e ∈ es, e.name.utf8ByteSize < 65536) (hmode : ∀ e ∈ es, e.mode < 65536) :
    readEntries? archive es.length ((records offset es).2 ++ more) = some es := by
  induction es generalizing offset with
  | nil => rfl
  | cons e es ih =>
    obtain ⟨hname, hnames⟩ := List.forall_mem_cons.mp hname
    obtain ⟨hmode, hmodes⟩ := List.forall_mem_cons.mp hmode
    rw [records] at hrecords hsize ⊢
    dsimp only at hrecords hsize ⊢
    rw [List.length_append] at hsize
    have hstream : e.stream.length ≤ (localRecord e).length := by
      rw [localRecord_eq, List.length_append, List.length_append]
      omega
    have hrest : (records (offset + (localRecord e).length) es).1 <+:
        archive.drop (offset + (localRecord e).length) := by
      obtain ⟨after, hafter⟩ := hrecords
      rw [← List.drop_drop, ← hafter, List.append_assoc, List.drop_left]
      exact List.prefix_append _ _
    rw [List.length_cons, List.append_assoc, readEntries?_cons
      ((List.prefix_append _ _).trans hrecords) (by omega) (by omega) hname hmode,
      ih hrest (by omega) hnames hmodes, Option.map_some]

/-- The numbers at the very end of an archive. -/
def endFields (count size offset : Nat) : List (Nat × Nat) :=
  [(4, 0x06054B50), (2, 0), (2, 0), (2, count), (2, count), (4, size), (4, offset), (2, 0)]

/-- The widths of those numbers. -/
theorem map_fst_endFields (count size offset : Nat) :
    (endFields count size offset).map (·.1) = [4, 2, 2, 2, 2, 4, 4, 2] := rfl

/-- An archive is its streams, its directory and the numbers at its end. -/
theorem write_eq (es : List Entry) :
    write es = (records 0 es).1 ++ ((records 0 es).2 ++
      fields (endFields es.length (records 0 es).2.length (records 0 es).1.length)) :=
  List.append_assoc _ _ _

/-- **The entries of an archive are those that it was written from.** -/
theorem read?_write {es : List Entry} (h : Fits es) : read? (write es) = some es := by
  have hwidths := map_fst_endFields es.length (records 0 es).2.length (records 0 es).1.length
  have hend : (fields (endFields es.length (records 0 es).2.length
      (records 0 es).1.length)).length = 22 := by
    rw [length_fields, hwidths]
    rfl
  have hlength : (write es).length =
      (records 0 es).1.length + (records 0 es).2.length + 22 := by
    rw [write_eq, List.length_append, List.length_append, hend, Nat.add_assoc]
  have hrecordsLength := length_records_le 0 es
  have hsize := h.size
  have htail : (write es).drop ((write es).length - 22) =
      fields (endFields es.length (records 0 es).2.length (records 0 es).1.length) ++ [] := by
    rw [hlength, Nat.add_sub_cancel, write_eq, ← List.append_assoc, List.append_nil]
    exact List.drop_left' List.length_append
  have hcentral : (write es).drop (records 0 es).1.length = (records 0 es).2 ++
      fields (endFields es.length (records 0 es).2.length (records 0 es).1.length) := by
    rw [write_eq, List.drop_left]
  have hrecords : (records 0 es).1 <+: (write es).drop 0 := by
    rw [List.drop_zero, write_eq]
    exact List.prefix_append _ _
  have hsignature := valueOf_field (r := []) (i := 0) (k := 0) hwidths rfl rfl (by decide)
  have hcount := valueOf_field (r := []) (i := 4) (k := 10) hwidths rfl rfl h.count
  have hoffset := valueOf_field (r := []) (i := 6) (k := 16) hwidths rfl rfl
    (show (records 0 es).1.length < 256 ^ 4 by omega)
  rw [List.drop_zero] at hsignature
  rw [read?, if_neg (by omega)]
  dsimp only
  rw [htail, hsignature, if_neg (by decide), hcount, hoffset, hcentral]
  exact readEntries?_records hrecords (by omega) h.name h.mode

/-! ## The plain library -/

namespace Library

/-- A plain archive has room for entries that can be added. -/
theorem fits_of_accepts_plain {es : List Entry} (h : plain.Accepts [] es) : Fits es := by
  rcases List.eq_nil_or_concat es with rfl | ⟨front, last, rfl⟩
  · decide
  · rw [List.concat_eq_append] at *
    -- The last entry was added behind all others.
    have hlast : plainRefusal? front last = none := (accepts_append.mp h).2.1
    rw [plainRefusal?] at hlast
    split at hlast
    · cases hlast
    split at hlast
    · assumption
    · cases hlast

/-- **The plain library has the laws** that packing relies on. -/
theorem lawful_plain : plain.Lawful where
  repeatedName_iff es e := by
    show plainRefusal? es e = _ ↔ _
    rw [plainRefusal?]
    split
    · exact iff_of_true rfl ‹_›
    · refine iff_of_false ?_ ‹_›
      split <;> nofun
  read_write es _ h := read?_write (fits_of_accepts_plain h)

/-- Lists of entries one after the other weigh what they weigh together. -/
theorem weight_append (es more : List Entry) : weight (es ++ more) = weight es + weight more := by
  induction es with
  | nil => rw [List.nil_append, weight, Nat.zero_add]
  | cons e es ih => rw [List.cons_append, weight, weight, ih, Nat.add_assoc]

/-- The weight of entries does not depend on their order. -/
theorem weight_eq_of_perm {es es' : List Entry} (hperm : es.Perm es') :
    weight es = weight es' := by
  induction hperm with
  | nil => rfl
  | cons e _ ih => rw [weight, weight, ih]
  | swap e e' es => rw [weight, weight, weight, weight, Nat.add_left_comm]
  | trans _ _ ih ih' => exact ih.trans ih'

/-- There is room for entries if there is for these and more. -/
theorem fits_of_append {es more : List Entry} (h : Fits (es ++ more)) : Fits es := by
  have hcount := h.count
  have hsize := h.size
  rw [List.length_append] at hcount
  rw [weight_append] at hsize
  exact ⟨by omega, by omega, fun e he => h.name e (List.mem_append_left _ he),
    fun e he => h.mode e (List.mem_append_left _ he)⟩

/-- Nor does it depend on the order of entries. -/
theorem fits_of_perm {es es' : List Entry} (hperm : es.Perm es') (h : Fits es) : Fits es' :=
  ⟨hperm.length_eq ▸ h.count, weight_eq_of_perm hperm ▸ h.size,
    fun e he => h.name e (hperm.mem_iff.mpr he), fun e he => h.mode e (hperm.mem_iff.mpr he)⟩

/-- **Entries can be added to a plain archive** if they have distinct names and there is room. -/
theorem accepts_plain {es more : List Entry} (hnames : ((es ++ more).map (·.name)).Nodup)
    (hfits : Fits (es ++ more)) : plain.Accepts es more := by
  induction more generalizing es with
  | nil => trivial
  | cons e more ih =>
    rw [List.append_cons] at hnames hfits
    refine ⟨?_, ih hnames hfits⟩
    have hnew : e.name ∉ es.map (·.name) := by
      rw [List.map_append, List.map_append] at hnames
      have hfront := (List.nodup_append.mp hnames).1
      exact fun hmem => (List.nodup_append.mp hfront).2.2 _ hmem _ List.mem_cons_self rfl
    show plainRefusal? es e = none
    rw [plainRefusal?, if_neg hnew, if_pos (fits_of_append hfits)]

end Library

end Zip

end DeployPlan
