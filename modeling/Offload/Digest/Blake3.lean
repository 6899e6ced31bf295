import Offload.Text.Hex

/-!
# The hash function BLAKE3

Bytes are cut into chunks of 1024, a chunk into blocks of 64. The chunks are the leaves of a binary
tree whose left subtrees are as large a power of two as leaves room for a right one. Each node is
compressed to eight words; those of the root, with a mark of their own, are the hash.
-/

namespace Offload.Digest.Blake3

/-- A list of 32-bit words. -/
abbrev Words := Array UInt32

/-- The word at a position. -/
def word (w : Words) (i : Nat) : UInt32 := w.getD i 0

/-- The words that every chaining starts from. -/
def initial : Words :=
  #[0x6A09E667, 0xBB67AE85, 0x3C6EF372, 0xA54FF53A, 0x510E527F, 0x9B05688C, 0x1F83D9AB, 0x5BE0CD19]

/-- The position from which a message word comes in the next round. -/
def permutation : List Nat := [2, 6, 3, 10, 7, 0, 4, 13, 1, 11, 12, 5, 9, 14, 15, 8]

/-! ## Marks -/

/-- The first block of a chunk. -/
def chunkStart : UInt32 := 1

/-- The last block of a chunk. -/
def chunkEnd : UInt32 := 2

/-- An inner node of the tree. -/
def parentMark : UInt32 := 4

/-- The root of the tree. -/
def rootMark : UInt32 := 8

/-! ## Compression -/

/-- Rotates a word to the right. -/
def rotate (x : UInt32) (n : UInt32) : UInt32 := (x >>> n) ||| (x <<< (32 - n))

/-- Mixes two message words into four words of the state. -/
def mix (s : Words) (a b c d : Nat) (x y : UInt32) : Words :=
  let a1 := word s a + word s b + x
  let d1 := rotate (word s d ^^^ a1) 16
  let c1 := word s c + d1
  let b1 := rotate (word s b ^^^ c1) 12
  let a2 := a1 + b1 + y
  let d2 := rotate (d1 ^^^ a2) 8
  let c2 := c1 + d2
  let b2 := rotate (b1 ^^^ c2) 7
  (((s.setIfInBounds a a2).setIfInBounds b b2).setIfInBounds c c2).setIfInBounds d d2

/-- The words of the state that are mixed in a round: the columns, then the diagonals. -/
def lanes : List (Nat × Nat × Nat × Nat) :=
  [(0, 4, 8, 12), (1, 5, 9, 13), (2, 6, 10, 14), (3, 7, 11, 15),
   (0, 5, 10, 15), (1, 6, 11, 12), (2, 7, 8, 13), (3, 4, 9, 14)]

/-- One round. -/
def round (s m : Words) : Words :=
  (lanes.zipIdx).foldl (fun s lane =>
    let (⟨a, b, c, d⟩, i) := lane
    mix s a b c d (word m (2 * i)) (word m (2 * i + 1))) s

/-- The message as the next round sees it. -/
def permute (m : Words) : Words := (permutation.map (word m)).toArray

/-- Several rounds. -/
def rounds : Nat → Words → Words → Words
  | 0, s, _ => s
  | n + 1, s, m => rounds n (round s m) (permute m)

/-- Compresses a block into a chaining value; the new chaining value. -/
def compress (chaining block : Words) (counter : Nat) (length flags : UInt32) : Words :=
  let s := chaining ++ initial.extract 0 4
    ++ #[UInt32.ofNat counter, UInt32.ofNat (counter / UInt32.size), length, flags]
  let s := rounds 7 s block
  ((List.range 8).map fun i => word s i ^^^ word s (i + 8)).toArray

/-! ## Chunks -/

/-- A word from its bytes, the least significant first. -/
def wordOfBytes : Bytes → UInt32
  | [] => 0
  | b :: rest => b.toUInt32 ||| (wordOfBytes rest <<< 8)

/-- The sixteen words of a block, filled up with zeros. -/
def blockWords (block : Bytes) : Words :=
  ((List.range 16).map fun i => wordOfBytes ((block.drop (4 * i)).take 4)).toArray

/-- Pieces of so many bytes; at least one piece, the last one may be shorter. -/
def pieces (size : Nat) : Nat → Bytes → List Bytes
  | 0, bytes => [bytes]
  | n + 1, bytes =>
    if bytes.length ≤ size then [bytes] else bytes.take size :: pieces size n (bytes.drop size)

/-- Compresses the blocks of a chunk. -/
def compressBlocks (counter : Nat) (last : UInt32) : Words → UInt32 → List Bytes → Words
  | chaining, _, [] => chaining
  | chaining, first, [block] =>
    compress chaining (blockWords block) counter (UInt32.ofNat block.length)
      (first ||| chunkEnd ||| last)
  | chaining, first, block :: next :: rest =>
    compressBlocks counter last (compress chaining (blockWords block) counter 64 first) 0
      (next :: rest)

/-- The chaining value of a chunk; `mark` is put on its last block. -/
def chunkValue (counter : Nat) (mark : UInt32) (chunk : Bytes) : Words :=
  compressBlocks counter mark initial chunkStart (pieces 64 chunk.length chunk)

/-! ## The tree -/

/-- The greatest power of two below `n`, for `n` at least two. -/
def leftSize (n : Nat) : Nat := Nat.pow 2 (n - 1).log2

/-- The value of the tree over some chunks, the first of which has a position; `mark` is put on the
topmost node. The first argument bounds the depth. -/
def treeValue : Nat → Nat → UInt32 → List Bytes → Words
  | _, counter, mark, [chunk] => chunkValue counter mark chunk
  | 0, _, _, _ => initial
  | depth + 1, counter, mark, chunks =>
    let n := leftSize chunks.length
    let left := treeValue depth counter 0 (chunks.take n)
    let right := treeValue depth (counter + n) 0 (chunks.drop n)
    compress initial (left ++ right) 0 64 (parentMark ||| mark)

/-- The bytes of a word, the least significant first. -/
def bytesOfWord (w : UInt32) : Bytes :=
  [w.toUInt8, (w >>> 8).toUInt8, (w >>> 16).toUInt8, (w >>> 24).toUInt8]

/-- The hash of some bytes. -/
def hash (bytes : Bytes) : Bytes :=
  let chunks := pieces 1024 bytes.length bytes
  (treeValue chunks.length 0 rootMark chunks).toList.flatMap bytesOfWord

/-- The hash of some bytes as hexadecimal text. -/
def hex (bytes : Bytes) : String := Text.hex (hash bytes)

end Offload.Digest.Blake3
