import ContentAddress.Bytes

/-!
# The BLAKE3 compression function

One compression takes a chaining value, a block of sixteen words and its context (position, length
and purpose) and gives the next chaining value.  A `Node` is a compression that has not been made
yet: the same node is finished in one way inside the tree and in another way at its root.
-/

namespace ContentAddress.Blake3

def blockSize : Nat := 64

/-- Number of bytes in a chunk, the leaf of the hash tree. -/
def chunkSize : Nat := 1024

abbrev ChainingValue := Vector UInt32 8

abbrev Block := Vector UInt32 16

/-- The chaining value at the start of every chunk and of every parent. -/
def initial : ChainingValue :=
  #v[0x6A09E667, 0xBB67AE85, 0x3C6EF372, 0xA54FF53A, 0x510E527F, 0x9B05688C, 0x1F83D9AB, 0x5BE0CD19]

def chunkStart : UInt32 := 1

def chunkEnd : UInt32 := 2

def parentBlock : UInt32 := 4

def root : UInt32 := 8

/-- Rotation to the right; `amount` lies strictly between 0 and 32. -/
@[inline] def rotateRight (word amount : UInt32) : UInt32 :=
  word >>> amount ||| word <<< (32 - amount)

def mix (state : Block) (a b c d : Fin 16) (x y : UInt32) : Block :=
  let wa := state[a] + state[b] + x
  let wd := rotateRight (state[d] ^^^ wa) 16
  let wc := state[c] + wd
  let wb := rotateRight (state[b] ^^^ wc) 12
  let wa := wa + wb + y
  let wd := rotateRight (wd ^^^ wa) 8
  let wc := wc + wd
  let wb := rotateRight (wb ^^^ wc) 7
  (((state.set a wa).set b wb).set c wc).set d wd

/-- One round: first the columns of the state, then its diagonals. -/
def mixRound (state block : Block) : Block :=
  let state := mix state 0 4 8 12 block[0] block[1]
  let state := mix state 1 5 9 13 block[2] block[3]
  let state := mix state 2 6 10 14 block[4] block[5]
  let state := mix state 3 7 11 15 block[6] block[7]
  let state := mix state 0 5 10 15 block[8] block[9]
  let state := mix state 1 6 11 12 block[10] block[11]
  let state := mix state 2 7 8 13 block[12] block[13]
  mix state 3 4 9 14 block[14] block[15]

def schedule (block : Block) : Block :=
  #v[block[2], block[6], block[3], block[10], block[7], block[0], block[4], block[13],
    block[1], block[11], block[12], block[5], block[9], block[14], block[15], block[8]]

/-- Makes the given number of rounds, with the words of the block reordered after each. -/
def mixRounds : Nat → Block → Block → Block
  | 0, state, _ => state
  | rounds + 1, state, block => mixRounds rounds (mixRound state block) (schedule block)

/-- The chaining value after one block.  `counter` is the position of the chunk, `length` the number
of content bytes in the block and `flags` its purpose. -/
def compress (value : ChainingValue) (block : Block) (counter : UInt64) (length flags : UInt32) :
    ChainingValue :=
  let state : Block :=
    #v[value[0], value[1], value[2], value[3], value[4], value[5], value[6], value[7],
      initial[0], initial[1], initial[2], initial[3],
      counter.toUInt32, (counter >>> 32).toUInt32, length, flags]
  let state := mixRounds 7 state block
  #v[state[0] ^^^ state[8], state[1] ^^^ state[9], state[2] ^^^ state[10], state[3] ^^^ state[11],
    state[4] ^^^ state[12], state[5] ^^^ state[13], state[6] ^^^ state[14], state[7] ^^^ state[15]]

/-- The words of at most 64 bytes, filled up with zeros. -/
def Block.ofBytes (bytes : Bytes) : Block :=
  Vector.ofFn fun index => Bytes.littleEndian32 ((bytes.drop (4 * index.val)).take 4)

def Block.ofPair (left right : ChainingValue) : Block := left ++ right

structure Node where
  value : ChainingValue
  block : Block
  /-- The position of the chunk, zero for a parent. -/
  counter : Nat
  length : Nat
  flags : UInt32
deriving DecidableEq

namespace Node

def parent (left right : ChainingValue) : Node where
  value := initial
  block := Block.ofPair left right
  counter := 0
  length := blockSize
  flags := parentBlock

def chainingValue (node : Node) : ChainingValue :=
  compress node.value node.block (UInt64.ofNat node.counter) (UInt32.ofNat node.length) node.flags

/-- Finishes the node as the root: 32 bytes, each word least significant byte first.  The output
counter takes the place of the chunk position. -/
def digest (node : Node) : Bytes :=
  (compress node.value node.block 0 (UInt32.ofNat node.length) (node.flags ||| root)).toList.flatMap
    Bytes.ofWord32

end Node

end ContentAddress.Blake3
