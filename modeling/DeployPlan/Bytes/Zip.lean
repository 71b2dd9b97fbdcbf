/-!
# Zip archives

The code of a directory action is an archive of the directory.  Archives are written by a library,
which is a parameter of packing; here is what it is given, and a plain writer in its place.

## Main definitions

* `DeployPlan.Zip.Entry` — a file or directory of an archive.
* `DeployPlan.Zip.Options` — how an entry is to be written.
* `DeployPlan.Zip.Library` — what writes and reads archives.
* `DeployPlan.Zip.write`, `DeployPlan.Zip.read?` — the bytes of an archive, and the entries of one
  that `write` made.
* `Library.plain` — the library that these two make.

## Implementation notes

The plain writer has deflate streams of uncompressed blocks, and refuses what its numbers do not
have room for.
-/

set_option autoImplicit false

namespace DeployPlan

namespace Zip

/-! ## Entries -/

/-- How the content of an entry is stored. -/
inductive Method where
  | stored
  | deflated
  deriving DecidableEq, Inhabited

/-- When an entry was last changed, as the format has it. -/
structure Moment where
  /-- The day in the five lowest bits, the month in the next four and the years since 1980. -/
  date : UInt16
  /-- Half the seconds in the five lowest bits, the minutes in the next six and the hours. -/
  time : UInt16
  deriving DecidableEq, Inhabited

/-- The first moment of the format: midnight of the first of January 1980. -/
def Moment.first : Moment := ⟨0x21, 0⟩

/-- How an entry is to be written. -/
structure Options where
  method : Method
  modified : Moment
  /-- The permission bits, perhaps with others above them. -/
  permissions : Nat
  deriving DecidableEq, Inhabited

/-- A file or directory of an archive. -/
structure Entry where
  /-- The path in the archive; that of a directory ends in a slash. -/
  name : String
  /-- The permission bits and the kind of the entry. -/
  mode : Nat
  method : Method
  modified : Moment
  /-- The content of a file. -/
  content : List UInt8
  deriving DecidableEq, Inhabited

namespace Entry

/-- The entry of a file that is written with options. -/
def file (name : String) (o : Options) (content : List UInt8) : Entry :=
  ⟨name, 0o100000 + o.permissions % 0o1000, o.method, o.modified, content⟩

/-- The entry of a directory that is written with options.  Directories are stored. -/
def directory (name : String) (o : Options) : Entry :=
  ⟨name, 0o40000 + o.permissions % 0o1000, .stored, o.modified, []⟩

/-- Whether the entry is a directory. -/
def isDirectory (e : Entry) : Bool := e.name.endsWith "/"

end Entry

/-! ## Libraries -/

/-- Why an entry cannot be added to an archive. -/
inductive Refusal where
  /-- The archive has an entry of its name. -/
  | repeatedName
  /-- Its content is too large. -/
  | tooLarge
  deriving DecidableEq, Inhabited

/-- What writes archives, and what a reader finds in them. -/
structure Library where
  /-- Why an entry cannot be added behind others, if it cannot. -/
  refusal? : List Entry → Entry → Option Refusal
  /-- The bytes of the archive of entries that were added in turn. -/
  write : List Entry → List UInt8
  /-- The entries of an archive. -/
  read? : List UInt8 → Option (List Entry)

/-! ## Numbers and checks -/

/-- A number as `width` bytes, the lowest first. -/
def number (width n : Nat) : List UInt8 :=
  match width with
  | 0 => []
  | width + 1 => UInt8.ofNat (n % 256) :: number width (n / 256)

/-- The bytes of numbers, each with its width. -/
def fields (l : List (Nat × Nat)) : List UInt8 := l.flatMap fun (width, n) => number width n

/-- The number that bytes write, the lowest first. -/
def valueOf (bytes : List UInt8) : Nat := bytes.foldr (fun b n => n * 256 + b.toNat) 0

/-- Divides out one bit of a check. -/
def checkBit (c : UInt32) : UInt32 :=
  if c &&& 1 = 1 then (c >>> 1) ^^^ 0xEDB88320 else c >>> 1

/-- Adds a byte to a check. -/
def checkByte (c : UInt32) (b : UInt8) : UInt32 :=
  (List.range 8).foldl (fun c _ => checkBit c) (c ^^^ UInt32.ofNat b.toNat)

/-- The cyclic redundancy check of a list of bytes. -/
def checksum (bytes : List UInt8) : UInt32 :=
  bytes.foldl checkByte 0xFFFFFFFF ^^^ 0xFFFFFFFF

/-! ## Deflate streams -/

/-- The longest uncompressed block. -/
def maxBlock : Nat := 65535

/-- The stream of uncompressed blocks of a content. -/
def deflate (bytes : List UInt8) : List UInt8 :=
  if bytes.length ≤ maxBlock then
    fields [(1, 1), (2, bytes.length), (2, maxBlock - bytes.length)] ++ bytes
  else
    fields [(1, 0), (2, maxBlock), (2, 0)] ++ bytes.take maxBlock ++ deflate (bytes.drop maxBlock)
termination_by bytes.length
decreasing_by simp only [List.length_drop, maxBlock] at *; omega

/-- The content of a stream of uncompressed blocks. -/
def inflate? (stream : List UInt8) : Option (List UInt8) :=
  match stream with
  | last :: a :: b :: _ :: _ :: rest =>
    let n := valueOf [a, b]
    if rest.length < n then none
    else if last = 1 then some (rest.take n)
    else if last = 0 then (inflate? (rest.drop n)).map fun more => rest.take n ++ more
    else none
  | _ => none
termination_by stream.length
decreasing_by simp only [List.length_drop, List.length_cons]; omega

/-! ## Archives -/

namespace Entry

/-- The content of an entry as it is stored. -/
def stream (e : Entry) : List UInt8 :=
  match e.method with
  | .stored => e.content
  | .deflated => deflate e.content

end Entry

/-- The number of a method in the format. -/
def Method.number : Method → Nat
  | .stored => 0
  | .deflated => 8

/-- The method with a number in the format. -/
def Method.ofNumber? (n : Nat) : Option Method :=
  if n = 0 then some .stored else if n = 8 then some .deflated else none

/-- The content that a stream stores. -/
def Method.content? (method : Method) (stream : List UInt8) : Option (List UInt8) :=
  match method with
  | .stored => some stream
  | .deflated => inflate? stream

/-- The numbers that both headers of an entry share. -/
def sharedFields (e : Entry) : List (Nat × Nat) :=
  [(2, 20), (2, 0x800), (2, e.method.number), (2, e.modified.time.toNat),
    (2, e.modified.date.toNat), (4, (checksum e.content).toNat), (4, e.stream.length),
    (4, e.content.length), (2, e.name.utf8ByteSize), (2, 0)]

/-- The bytes of a name. -/
def nameBytes (e : Entry) : List UInt8 := e.name.toUTF8.data.toList

/-- The header and the content of an entry. -/
def localRecord (e : Entry) : List UInt8 :=
  fields ((4, 0x04034B50) :: sharedFields e) ++ nameBytes e ++ e.stream

/-- The entry of the directory at the end of an archive for an entry at `offset`. -/
def centralRecord (offset : Nat) (e : Entry) : List UInt8 :=
  fields ([(4, 0x02014B50), (2, 0x314)] ++ sharedFields e ++
    [(2, 0), (2, 0), (2, 0), (4, e.mode * 65536), (4, offset)]) ++ nameBytes e

/-- The records of entries from `offset` on, those at the end apart. -/
def records (offset : Nat) : List Entry → List UInt8 × List UInt8
  | [] => ([], [])
  | e :: es =>
    let here := localRecord e
    let (locals, centrals) := records (offset + here.length) es
    (here ++ locals, centralRecord offset e ++ centrals)

/-- The bytes of an archive. -/
def write (entries : List Entry) : List UInt8 :=
  let (locals, centrals) := records 0 entries
  let n := entries.length
  locals ++ centrals ++ fields [(4, 0x06054B50), (2, 0), (2, 0), (2, n), (2, n),
    (4, centrals.length), (4, locals.length), (2, 0)]

/-- Reads the entries of the directory at the end of an archive. -/
def readEntries? (archive : List UInt8) (count : Nat) (central : List UInt8) :
    Option (List Entry) :=
  match count with
  | 0 => some []
  | count + 1 =>
    if central.length < 46 then none
    else
      let field (start width : Nat) : Nat := valueOf ((central.drop start).take width)
      let modified : Moment := ⟨UInt16.ofNat (field 14 2), UInt16.ofNat (field 12 2)⟩
      let nameLength := field 28 2
      let stream := (archive.drop (field 42 4 + 30 + nameLength)).take (field 20 4)
      match String.fromUTF8? ⟨((central.drop 46).take nameLength).toArray⟩,
          Method.ofNumber? (field 10 2), readEntries? archive count (central.drop (46 + nameLength))
        with
      | some name, some method, some es =>
        (method.content? stream).map fun content =>
          ⟨name, field 38 4 / 65536, method, modified, content⟩ :: es
      | _, _, _ => none

/-- The entries of an archive without a comment and without extra fields. -/
def read? (archive : List UInt8) : Option (List Entry) :=
  if archive.length < 22 then none
  else
    let tail := archive.drop (archive.length - 22)
    if valueOf (tail.take 4) ≠ 0x06054B50 then none
    else
      readEntries? archive (valueOf ((tail.drop 10).take 2))
        (archive.drop (valueOf ((tail.drop 16).take 4)))

/-! ## The plain library -/

/-- More bytes than an entry takes in an archive. -/
def Entry.weight (e : Entry) : Nat := 128 + 2 * e.name.utf8ByteSize + 2 * e.content.length

/-- More bytes than entries take together. -/
def weight : List Entry → Nat
  | [] => 0
  | e :: es => e.weight + weight es

/-- Entries are few and short enough for the widths of the numbers. -/
structure Fits (es : List Entry) : Prop where
  count : es.length < 65536
  size : 128 + weight es < 4294967296
  name : ∀ e ∈ es, e.name.utf8ByteSize < 65536
  mode : ∀ e ∈ es, e.mode < 65536

instance (es : List Entry) : Decidable (Fits es) :=
  decidable_of_iff (es.length < 65536 ∧ 128 + weight es < 4294967296 ∧
      (∀ e ∈ es, e.name.utf8ByteSize < 65536) ∧ ∀ e ∈ es, e.mode < 65536)
    ⟨fun ⟨count, size, name, mode⟩ => ⟨count, size, name, mode⟩,
      fun h => ⟨h.count, h.size, h.name, h.mode⟩⟩

namespace Library

/-- Why an entry cannot be added to a plain archive: its name is taken, or there is no room. -/
def plainRefusal? (es : List Entry) (e : Entry) : Option Refusal :=
  if e.name ∈ es.map (·.name) then some .repeatedName
  else if Fits (es ++ [e]) then none
  else some .tooLarge

/-- The library that writes plain archives. -/
def plain : Library := ⟨plainRefusal?, Zip.write, Zip.read?⟩

end Library

end Zip

end DeployPlan
