import Arbiter.Bytes

/-!
# BLAKE3

The digest of a byte string.  The string is cut into chunks of 1024 bytes, which are the leaves of
a binary tree whose left subtrees are as large as they can be, full, and smaller than the whole.
A chunk is compressed block by block and an inner node compresses the chaining values of its two
subtrees; the digest is what the root gives when it is compressed as a root.
-/

namespace Arbiter.Blake3

/-- Sixteen words: a block of a message, or the inner state of the compression. -/
abbrev Block := Vector UInt32 16

/-- Eight words, which carry a result on. -/
abbrev Chaining := Vector UInt32 8

/-- The chaining value at the start of every chunk and of every inner node. -/
def start : Chaining :=
  #v[0x6A09E667, 0xBB67AE85, 0x3C6EF372, 0xA54FF53A, 0x510E527F, 0x9B05688C, 0x1F83D9AB,
    0x5BE0CD19]

/-- Where the words of a block come from in the next round. -/
def permutation : Vector (Fin 16) 16 :=
  #v[2, 6, 3, 10, 7, 0, 4, 13, 1, 11, 12, 5, 9, 14, 15, 8]

/-- Marks the first block of a chunk. -/
def chunkStart : UInt32 := 1

/-- Marks the last block of a chunk. -/
def chunkEnd : UInt32 := 2

/-- Marks an inner node. -/
def parent : UInt32 := 4

/-- Marks the root. -/
def root : UInt32 := 8

/-- Rotates a word to the right. -/
def rotate (x : UInt32) (count : UInt32) : UInt32 :=
  (x >>> count) ||| (x <<< (32 - count))

/-- Mixes two words of a message into four words of the state. -/
def mix (v : Block) (a b c d : Fin 16) (x y : UInt32) : Block :=
  let va := v[a] + v[b] + x
  let vd := rotate (v[d] ^^^ va) 16
  let vc := v[c] + vd
  let vb := rotate (v[b] ^^^ vc) 12
  let va := va + vb + y
  let vd := rotate (vd ^^^ va) 8
  let vc := vc + vd
  let vb := rotate (vb ^^^ vc) 7
  (((v.set a va).set b vb).set c vc).set d vd

/-- One round: the columns of the state and then its diagonals. -/
def round (v m : Block) : Block :=
  let v := mix v 0 4 8 12 m[0] m[1]
  let v := mix v 1 5 9 13 m[2] m[3]
  let v := mix v 2 6 10 14 m[4] m[5]
  let v := mix v 3 7 11 15 m[6] m[7]
  let v := mix v 0 5 10 15 m[8] m[9]
  let v := mix v 1 6 11 12 m[10] m[11]
  let v := mix v 2 7 8 13 m[12] m[13]
  mix v 3 4 9 14 m[14] m[15]

/-- The block of the next round. -/
def permute (m : Block) : Block :=
  permutation.map fun i => m[i]

/-- A number of rounds, each with the next block. -/
def rounds : Nat → Block → Block → Block
  | 0, v, _ => v
  | n + 1, v, m => rounds n (round v m) (permute m)

/-- What is compressed last at a node of the tree. -/
structure Node where
  /-- What the blocks before gave. -/
  chaining : Chaining
  block : Block
  /-- The number of the chunk, or 0 at an inner node. -/
  counter : Nat
  /-- How many bytes of the block count. -/
  length : Nat
  /-- The marks of the block. -/
  marks : UInt32

/-- Compresses one block. -/
def compress (n : Node) : Chaining :=
  let h := n.chaining
  let v : Block :=
    #v[h[0], h[1], h[2], h[3], h[4], h[5], h[6], h[7], start[0], start[1], start[2], start[3],
      UInt32.ofNat n.counter, UInt32.ofNat (n.counter / capacity 4), UInt32.ofNat n.length, n.marks]
  let v := rounds 7 v n.block
  #v[v[0] ^^^ v[8], v[1] ^^^ v[9], v[2] ^^^ v[10], v[3] ^^^ v[11], v[4] ^^^ v[12],
    v[5] ^^^ v[13], v[6] ^^^ v[14], v[7] ^^^ v[15]]

/-- The words of a block; missing bytes count as zero. -/
def words : (count : Nat) → Bytes → List UInt32
  | 0, _ => []
  | count + 1, bytes => UInt32.ofNat (leNat (bytes.take 4)) :: words count (bytes.drop 4)

/-- The block of at most 64 bytes. -/
def block (bytes : Bytes) : Block :=
  let ws := (words 16 bytes).toArray
  Vector.ofFn fun i => ws.getD i 0

/-- The last node of a chunk, given what the blocks before gave and the marks of the next one. -/
def chunkFrom (counter : Nat) : (fuel : Nat) → Chaining → (marks : UInt32) → Bytes → Node
  | 0, chaining, marks, bytes => ⟨chaining, block bytes, counter, bytes.length, marks ||| chunkEnd⟩
  | fuel + 1, chaining, marks, bytes =>
    match bytes.splitAt 64 with
    | (front, []) => ⟨chaining, block front, counter, front.length, marks ||| chunkEnd⟩
    | (front, rest) =>
      chunkFrom counter fuel (compress ⟨chaining, block front, counter, 64, marks⟩) 0 rest

/-- The node of a chunk of at most 1024 bytes. -/
def chunk (counter : Nat) (bytes : Bytes) : Node :=
  chunkFrom counter 16 start chunkStart bytes

/-- The node above two subtrees. -/
def join (left right : Chaining) : Node :=
  ⟨start, left ++ right, 0, 64, parent⟩

/-- The number of chunks in the left subtree when there are `n + 1` chunks. -/
def leftChunks (n : Nat) : Nat :=
  Nat.pow 2 n.log2

/-- The node of a subtree whose first chunk has the number `counter`. -/
def tree (counter : Nat) (bytes : Bytes) : Node :=
  if h : bytes.length ≤ 1024 then chunk counter bytes
  else
    let chunks := leftChunks ((bytes.length - 1) / 1024)
    have hchunks : 0 < chunks ∧ 1024 * chunks < bytes.length := by
      have hle : leftChunks ((bytes.length - 1) / 1024) ≤ (bytes.length - 1) / 1024 :=
        Nat.log2_self_le (by omega)
      refine ⟨Nat.two_pow_pos _, ?_⟩
      show 1024 * leftChunks ((bytes.length - 1) / 1024) < bytes.length
      omega
    let left := tree counter (bytes.take (1024 * chunks))
    let right := tree (counter + chunks) (bytes.drop (1024 * chunks))
    join (compress left) (compress right)
termination_by bytes.length
decreasing_by
  · rw [List.length_take]
    omega
  · rw [List.length_drop]
    omega

/-- The digest of a byte string: thirty-two bytes. -/
def digest (bytes : Bytes) : Bytes :=
  let top := tree 0 bytes
  (compress { top with marks := top.marks ||| root }).toList.flatMap fun word =>
    leBytes 4 word.toNat

end Arbiter.Blake3
