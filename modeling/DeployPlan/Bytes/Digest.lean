import DeployPlan.Text.Blank

/-!
# The BLAKE3 digest

Managed entities carry a digest of the project they belong to, so that a later deployment can
tell whether the project has changed.

## Main definitions

* `DeployPlan.Digest.compress` — sixteen words from a chaining value, a block of sixteen words,
  a counter, a length and flags.
* `DeployPlan.Digest.Node` — the arguments of the compression that gives a node of the tree its
  value.
* `Digest.node` — the root of the tree over chunks of `1024` bytes, the left side of each
  node being the largest complete tree that leaves something for the right.
* `Digest.hex` — the digest of a list of bytes, in hexadecimal digits.
-/

set_option autoImplicit false

namespace DeployPlan

namespace Digest

/-- The first chaining value. -/
def initial : List UInt32 :=
  [0x6A09E667, 0xBB67AE85, 0x3C6EF372, 0xA54FF53A, 0x510E527F, 0x9B05688C, 0x1F83D9AB, 0x5BE0CD19]

/-- The order in which the next round takes the words of the block. -/
def permutation : List Nat := [2, 6, 3, 10, 7, 0, 4, 13, 1, 11, 12, 5, 9, 14, 15, 8]

/-- A block that starts, ends, joins or is the root of a tree. -/
def chunkStart : UInt32 := 1

/-- The last block of a chunk. -/
def chunkEnd : UInt32 := 2

/-- A block of two chaining values. -/
def parent : UInt32 := 4

/-- The root of the tree. -/
def root : UInt32 := 8

/-- Turns a word to the right. -/
def rotate (x : UInt32) (n : UInt32) : UInt32 := (x >>> n) ||| (x <<< (32 - n))

/-- Mixes two words of the block into four words of the state. -/
def mix (v : Array UInt32) (a b c d : Nat) (x y : UInt32) : Array UInt32 :=
  let va := v.getD a 0 + v.getD b 0 + x
  let vd := rotate (v.getD d 0 ^^^ va) 16
  let vc := v.getD c 0 + vd
  let vb := rotate (v.getD b 0 ^^^ vc) 12
  let va := va + vb + y
  let vd := rotate (vd ^^^ va) 8
  let vc := vc + vd
  let vb := rotate (vb ^^^ vc) 7
  (((v.setIfInBounds a va).setIfInBounds b vb).setIfInBounds c vc).setIfInBounds d vd

/-- One round: the columns of the state, then its diagonals. -/
def round (v m : Array UInt32) : Array UInt32 :=
  let word (i : Nat) : UInt32 := m.getD i 0
  let v := mix v 0 4 8 12 (word 0) (word 1)
  let v := mix v 1 5 9 13 (word 2) (word 3)
  let v := mix v 2 6 10 14 (word 4) (word 5)
  let v := mix v 3 7 11 15 (word 6) (word 7)
  let v := mix v 0 5 10 15 (word 8) (word 9)
  let v := mix v 1 6 11 12 (word 10) (word 11)
  let v := mix v 2 7 8 13 (word 12) (word 13)
  mix v 3 4 9 14 (word 14) (word 15)

/-- Rounds with the block permuted in between. -/
def rounds : Nat → Array UInt32 → Array UInt32 → Array UInt32
  | 0, v, _ => v
  | n + 1, v, m => rounds n (round v m) (permutation.map fun i => m.getD i 0).toArray

/-- The first eight words of a compression; the other eight are not needed for a digest of
thirty-two bytes. -/
def compress (chaining block : List UInt32) (counter : Nat) (length flags : UInt32) :
    List UInt32 :=
  let state := chaining ++ initial.take 4 ++
    [UInt32.ofNat counter, UInt32.ofNat (counter / Nat.pow 2 32), length, flags]
  let v := rounds 7 state.toArray block.toArray
  (List.range 8).map fun i => v.getD i 0 ^^^ v.getD (i + 8) 0

/-- The arguments of the compression that gives a node its value. -/
structure Node where
  /-- The chaining value. -/
  chaining : List UInt32
  /-- The block. -/
  block : List UInt32
  /-- The number of the chunk. -/
  counter : Nat
  /-- The number of bytes in the block. -/
  length : UInt32
  /-- What kind of block it is. -/
  flags : UInt32

namespace Node

/-- The value of an inner node. -/
def value (n : Node) : List UInt32 := compress n.chaining n.block n.counter n.length n.flags

/-- The value of the root. -/
def rootValue (n : Node) : List UInt32 := compress n.chaining n.block 0 n.length (n.flags ||| root)

end Node

/-- Four bytes as a word, the first byte the lowest. -/
def word (bytes : List UInt8) : UInt32 :=
  bytes.foldr (fun b w => w * 256 + UInt32.ofNat b.toNat) 0

/-- The first `n` words of a list of bytes; missing bytes are zero. -/
def words : Nat → List UInt8 → List UInt32
  | 0, _ => []
  | n + 1, bytes => word (bytes.take 4) :: words n (bytes.drop 4)

/-- The last block of a chunk, after the blocks before it were compressed. -/
def chunkNode (counter : Nat) (chaining : List UInt32) (flags : UInt32) (bytes : List UInt8) :
    Node :=
  if bytes.length ≤ 64 then
    ⟨chaining, words 16 bytes, counter, UInt32.ofNat bytes.length, flags ||| chunkEnd⟩
  else
    let block : Node := ⟨chaining, words 16 bytes, counter, 64, flags⟩
    chunkNode counter block.value 0 (bytes.drop 64)
termination_by bytes.length
decreasing_by simp only [List.length_drop]; omega

/-- The number of bytes on the left side of a node over more than one chunk. -/
def leftLength (n : Nat) : Nat := 1024 * Nat.pow 2 ((n - 1) / 1024).log2

/-- The root of the tree over a list of bytes whose first chunk has the number `counter`. -/
def node (counter : Nat) (bytes : List UInt8) : Node :=
  if h : bytes.length ≤ 1024 then chunkNode counter initial chunkStart bytes
  else
    have hleft : leftLength bytes.length < bytes.length := by
      have : Nat.pow 2 ((bytes.length - 1) / 1024).log2 ≤ (bytes.length - 1) / 1024 :=
        Nat.log2_self_le (by omega)
      unfold leftLength
      omega
    have hpos : 0 < leftLength bytes.length :=
      Nat.mul_pos (by decide) (Nat.pow_pos (by decide))
    let n := leftLength bytes.length
    let left := node counter (bytes.take n)
    let right := node (counter + n / 1024) (bytes.drop n)
    ⟨initial, left.value ++ right.value, 0, 64, parent⟩
termination_by bytes.length
decreasing_by
  · simp only [List.length_take]; omega
  · simp only [List.length_drop]; omega

/-- The bytes of a word, the lowest first, in hexadecimal digits. -/
def wordHex (w : UInt32) : String :=
  let n := w.toNat
  Text.join "" ([n, n / 256, n / 65536, n / 16777216].map fun b => Text.digits 16 2 (b % 256))

/-- The digest of a list of bytes, in hexadecimal digits. -/
def hex (bytes : List UInt8) : String :=
  Text.join "" ((node 0 bytes).rootValue.map wordHex)

end Digest

end DeployPlan
