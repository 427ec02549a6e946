import QueryLoom.Text.Basic

/-!
# BLAKE3

The digest of 256 bits without a key. The input is cut into chunks of 1024 bytes, each chunk into
blocks of 64; the blocks of a chunk are compressed one after another, and the chunks are the
leaves of a binary tree whose left branches are as large a power of two as they can be.
-/

set_option autoImplicit false

namespace QueryLoom.Blake3

abbrev Words (n : Nat) := Vector UInt32 n

def initial : Words 8 :=
  #v[0x6A09E667, 0xBB67AE85, 0x3C6EF372, 0xA54FF53A, 0x510E527F, 0x9B05688C, 0x1F83D9AB, 0x5BE0CD19]

def permutation : Vector (Fin 16) 16 := #v[2, 6, 3, 10, 7, 0, 4, 13, 1, 11, 12, 5, 9, 14, 15, 8]

def chunkStart : UInt32 := 1
def chunkEnd : UInt32 := 2
def parent : UInt32 := 4
def root : UInt32 := 8

def rotateRight (x n : UInt32) : UInt32 := (x >>> n) ||| (x <<< (32 - n))

def quarter (v : Words 16) (a b c d : Fin 16) (x y : UInt32) : Words 16 :=
  let va := v[a] + v[b] + x
  let vd := rotateRight (v[d] ^^^ va) 16
  let vc := v[c] + vd
  let vb := rotateRight (v[b] ^^^ vc) 12
  let va := va + vb + y
  let vd := rotateRight (vd ^^^ va) 8
  let vc := vc + vd
  let vb := rotateRight (vb ^^^ vc) 7
  (((v.set a va).set b vb).set c vc).set d vd

def round (v m : Words 16) : Words 16 :=
  let v := quarter v 0 4 8 12 m[0] m[1]
  let v := quarter v 1 5 9 13 m[2] m[3]
  let v := quarter v 2 6 10 14 m[4] m[5]
  let v := quarter v 3 7 11 15 m[6] m[7]
  let v := quarter v 0 5 10 15 m[8] m[9]
  let v := quarter v 1 6 11 12 m[10] m[11]
  let v := quarter v 2 7 8 13 m[12] m[13]
  quarter v 3 4 9 14 m[14] m[15]

def permute (m : Words 16) : Words 16 := permutation.map fun i => m[i]

def rounds : Nat → Words 16 → Words 16 → Words 16
  | 0, v, _ => v
  | n + 1, v, m => rounds n (round v m) (permute m)

/-- One call of the compression function, not yet made. -/
structure Node where
  chaining : Words 8
  block : Words 16
  counter : Nat
  blockLength : Nat
  flags : UInt32

def Node.compress (n : Node) : Words 8 :=
  let h := n.chaining
  let v : Words 16 :=
    #v[h[0], h[1], h[2], h[3], h[4], h[5], h[6], h[7],
      initial[0], initial[1], initial[2], initial[3],
      UInt32.ofNat n.counter, UInt32.ofNat (n.counter / 0x100000000),
      UInt32.ofNat n.blockLength, n.flags]
  let v := rounds 7 v n.block
  #v[v[0] ^^^ v[8], v[1] ^^^ v[9], v[2] ^^^ v[10], v[3] ^^^ v[11], v[4] ^^^ v[12], v[5] ^^^ v[13],
    v[6] ^^^ v[14], v[7] ^^^ v[15]]

def piecesOf {α : Type} (size : Nat) : Nat → List α → List (List α)
  | 0, _ => []
  | _ + 1, [] => []
  | fuel + 1, x :: xs => (x :: xs).take size :: piecesOf size fuel ((x :: xs).drop size)

def littleEndian (bytes : List UInt8) : Nat := bytes.foldr (fun b n => b.toNat + 256 * n) 0

def blockWords (bytes : List UInt8) : Words 16 :=
  Vector.ofFn fun i => UInt32.ofNat (littleEndian ((bytes.drop (4 * i.val)).take 4))

def chunkNode (counter : Nat) (flags : UInt32) (chaining : Words 8) : List (List UInt8) → Node
  | [] => ⟨chaining, blockWords [], counter, 0, flags ||| chunkEnd⟩
  | [b] => ⟨chaining, blockWords b, counter, b.length, flags ||| chunkEnd⟩
  | b :: bs =>
    chunkNode counter 0 (Node.compress ⟨chaining, blockWords b, counter, b.length, flags⟩) bs

def chunk (counter : Nat) (bytes : List UInt8) : Node :=
  chunkNode counter chunkStart initial (piecesOf 64 bytes.length bytes)

def parentNode (left right : Node) : Node :=
  ⟨initial, left.compress ++ right.compress, 0, 64, parent⟩

def leftSize (n : Nat) : Nat := Nat.pow 2 (n - 1).log2

def tree : Nat → List Node → Node
  | 0, _ => chunk 0 []
  | _ + 1, [] => chunk 0 []
  | _ + 1, [leaf] => leaf
  | fuel + 1, leaves =>
    let size := leftSize leaves.length
    parentNode (tree fuel (leaves.take size)) (tree fuel (leaves.drop size))

def chunks (bytes : List UInt8) : List Node :=
  let parts := piecesOf 1024 bytes.length bytes
  (parts.zip (List.range parts.length)).map fun (part, i) => chunk i part

def wordBytes (w : UInt32) : List UInt8 :=
  [w.toUInt8, (w >>> 8).toUInt8, (w >>> 16).toUInt8, (w >>> 24).toUInt8]

def digest (bytes : List UInt8) : List UInt8 :=
  let leaves := chunks bytes
  let top := tree (leaves.length + 1) leaves
  ({ top with flags := top.flags ||| root }.compress).toList.flatMap wordBytes

def hexDigest (bytes : List UInt8) : String := Text.hexBytes (digest bytes)

end QueryLoom.Blake3
