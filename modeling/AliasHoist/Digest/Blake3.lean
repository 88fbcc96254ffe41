import AliasHoist.Text.Hex

/-!
# BLAKE3

The BLAKE3 hash of a list of bytes.  The input is cut into chunks of 1024 bytes, the chunks are the
leaves of a binary tree, and every node of the tree is one run of a compression function.

## Main Definitions

* `Blake3.compress`: the compression function, seven rounds over sixteen words;
* `Blake3.Node`: the arguments of a compression that is still to be made;
* `Blake3.chunkNode`, `Blake3.parentNode`: the leaves and inner nodes of the tree;
* `Blake3.digest`: the thirty-two bytes of the hash, and `Blake3.hexDigest` as text.

## Design Notes

The root of the tree is compressed with a flag of its own, so a node keeps its last compression
open until it is known whether it is the root.
-/

namespace AliasHoist.Blake3

/-- The words of a block, and of the state of a compression. -/
abbrev Block := Vector UInt32 16

/-- The eight words that a compression hands on. -/
abbrev Chain := Vector UInt32 8

/-- The chain at the start of every chunk. -/
def initialChain : Chain := #v[
  0x6A09E667, 0xBB67AE85, 0x3C6EF372, 0xA54FF53A, 0x510E527F, 0x9B05688C, 0x1F83D9AB, 0x5BE0CD19]

/-- The flag of the first block of a chunk. -/
def flagChunkStart : UInt32 := 1
/-- The flag of the last block of a chunk. -/
def flagChunkEnd : UInt32 := 2
/-- The flag of an inner node of the tree. -/
def flagParent : UInt32 := 4
/-- The flag of the root. -/
def flagRoot : UInt32 := 8

/-- Where each word of a block comes from in the next round. -/
def permutation : Vector (Fin 16) 16 := #v[2, 6, 3, 10, 7, 0, 4, 13, 1, 11, 12, 5, 9, 14, 15, 8]

/-- A word turned right by a number of bits. -/
def rotateRight (word count : UInt32) : UInt32 := (word >>> count) ||| (word <<< (32 - count))

/-- Mixes two words of the block into four words of the state. -/
def mix (state : Block) (a b c d : Fin 16) (x y : UInt32) : Block :=
  let va := state[a] + state[b] + x
  let vd := rotateRight (state[d] ^^^ va) 16
  let vc := state[c] + vd
  let vb := rotateRight (state[b] ^^^ vc) 12
  let va := va + vb + y
  let vd := rotateRight (vd ^^^ va) 8
  let vc := vc + vd
  let vb := rotateRight (vb ^^^ vc) 7
  (((state.set a va).set b vb).set c vc).set d vd

/-- One round: the columns of the state, then its diagonals. -/
def round (state block : Block) : Block :=
  let state := mix state 0 4 8 12 block[0] block[1]
  let state := mix state 1 5 9 13 block[2] block[3]
  let state := mix state 2 6 10 14 block[4] block[5]
  let state := mix state 3 7 11 15 block[6] block[7]
  let state := mix state 0 5 10 15 block[8] block[9]
  let state := mix state 1 6 11 12 block[10] block[11]
  let state := mix state 2 7 8 13 block[12] block[13]
  mix state 3 4 9 14 block[14] block[15]

/-- The words of a block for the next round. -/
def permute (block : Block) : Block := permutation.map fun i => block[i]

/-- A number of rounds, with the block permuted between them. -/
def rounds : Nat → Block → Block → Block
  | 0, state, _ => state
  | n + 1, state, block => rounds n (round state block) (permute block)

/-- **A compression that is still to be made.** -/
structure Node where
  chain : Chain
  block : Block
  counter : Nat
  length : Nat
  flags : UInt32

/-- **The compression function.** -/
def compress (node : Node) : Chain :=
  let start : Block := #v[
    node.chain[0], node.chain[1], node.chain[2], node.chain[3],
    node.chain[4], node.chain[5], node.chain[6], node.chain[7],
    initialChain[0], initialChain[1], initialChain[2], initialChain[3],
    UInt32.ofNat node.counter, UInt32.ofNat (node.counter / UInt32.size),
    UInt32.ofNat node.length, node.flags]
  let state := rounds 7 start node.block
  #v[state[0] ^^^ state[8], state[1] ^^^ state[9], state[2] ^^^ state[10], state[3] ^^^ state[11],
    state[4] ^^^ state[12], state[5] ^^^ state[13], state[6] ^^^ state[14], state[7] ^^^ state[15]]

/-- A list cut into pieces of a positive length, the last of which may be shorter. -/
def pieces {α : Type} (length : Nat) (items : List α) : List (List α) :=
  if _h : items = [] ∨ length = 0 then []
  else items.take length :: pieces length (items.drop length)
termination_by items.length
decreasing_by
  have : items.length ≠ 0 := by simp_all
  simp only [List.length_drop]
  omega

/-- A word from four bytes, the lowest first; missing bytes are zero. -/
def wordAt (bytes : Array UInt8) (index : Nat) : UInt32 :=
  let byte (i : Nat) : UInt32 := (bytes.getD (4 * index + i) 0).toUInt32
  byte 0 ||| (byte 1 <<< 8) ||| (byte 2 <<< 16) ||| (byte 3 <<< 24)

/-- The words of a block of at most 64 bytes. -/
def blockWords (bytes : List UInt8) : Block :=
  let bytes := bytes.toArray
  Vector.ofFn fun index => wordAt bytes index.val

/-- The open compression of a chunk, from one of its blocks onward. -/
def chunkFrom (counter : Nat) (chain : Chain) (flags : UInt32) (block : List UInt8) :
    List (List UInt8) → Node
  | [] =>
      { chain, block := blockWords block, counter, length := block.length
        flags := flags ||| flagChunkEnd }
  | next :: rest =>
      let chain := compress
        { chain, block := blockWords block, counter, length := block.length, flags }
      chunkFrom counter chain 0 next rest

/-- The leaf of a chunk. -/
def chunkNode (bytes : List UInt8) (counter : Nat) : Node :=
  match pieces 64 bytes with
  | [] => chunkFrom counter initialChain flagChunkStart [] []
  | block :: rest => chunkFrom counter initialChain flagChunkStart block rest

/-- The inner node over two nodes. -/
def parentNode (left right : Node) : Node where
  chain := initialChain
  block := compress left ++ compress right
  counter := 0
  length := 64
  flags := flagParent

/-- Neighbours joined in pairs; a last one without neighbour stays as it is. -/
def joinPairs : List Node → List Node
  | left :: right :: rest => parentNode left right :: joinPairs rest
  | nodes => nodes

theorem length_joinPairs_le (nodes : List Node) :
    2 * (joinPairs nodes).length ≤ nodes.length + 1 := by
  fun_induction joinPairs nodes with
  | case1 left right rest ih => simp; omega
  | case2 nodes h =>
      match nodes, h with
      | [], _ => simp
      | [_], _ => simp
      | left :: right :: rest, h => exact absurd rfl (h left right rest)

/-- The root of the tree over some nodes. -/
def rootOf (first : Node) (rest : List Node) : Node :=
  match _h : joinPairs (first :: rest) with
  | [] => first
  | [root] => root
  | left :: right :: others => rootOf left (right :: others)
termination_by rest.length
decreasing_by
  have := length_joinPairs_le (first :: rest)
  simp [_h] at this
  simp
  omega

/-- The root of the tree over an input. -/
def treeNode (bytes : List UInt8) : Node :=
  match (pieces 1024 bytes).zipIdx.map fun (chunk, counter) => chunkNode chunk counter with
  | [] => chunkNode [] 0
  | first :: rest => rootOf first rest

/-- The bytes of a word, the lowest first. -/
def wordBytes (word : UInt32) : List UInt8 :=
  [word.toUInt8, (word >>> 8).toUInt8, (word >>> 16).toUInt8, (word >>> 24).toUInt8]

/-- **The hash of a list of bytes.** -/
def digest (bytes : List UInt8) : List UInt8 :=
  let root := treeNode bytes
  (compress { root with counter := 0, flags := root.flags ||| flagRoot }).toList.flatMap wordBytes

@[simp] theorem length_digest (bytes : List UInt8) : (digest bytes).length = 32 := by
  simp [digest, List.length_flatMap, wordBytes, List.map_const']

/-- The hash as sixty-four hexadecimal digits. -/
def hexDigest (bytes : List UInt8) : String := String.ofList (Text.hexBytes (digest bytes))

end AliasHoist.Blake3
