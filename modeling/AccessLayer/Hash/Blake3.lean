/-!
The BLAKE3 hash with a 32-byte output. The input is cut into chunks of 1024 bytes, each chunk
into blocks of 64 bytes; blocks are compressed in a chain, chunks are joined pairwise in a
binary tree whose left side holds the largest power of two of chunks, and the root node is
compressed once more with the root flag. Words are little-endian.
-/
namespace AccessLayer.Blake3

/-- The initial chaining value. -/
def iv : Vector UInt32 8 :=
  #v[0x6A09E667, 0xBB67AE85, 0x3C6EF372, 0xA54FF53A, 0x510E527F, 0x9B05688C, 0x1F83D9AB, 0x5BE0CD19]

/-- The order in which message words are used by the next round. -/
def permutation : Vector (Fin 16) 16 := #v[2, 6, 3, 10, 7, 0, 4, 13, 1, 11, 12, 5, 9, 14, 15, 8]

def chunkStart : UInt32 := 1
def chunkEnd : UInt32 := 2
def parentNode : UInt32 := 4
def rootNode : UInt32 := 8

/-- Rotation to the right by `n` bits. -/
def rotr (x : UInt32) (n : UInt32) : UInt32 := (x >>> n) ||| (x <<< (32 - n))

/-- The quarter-round on four words of the state with two message words. -/
def mix (s : Vector UInt32 16) (a b c d : Fin 16) (x y : UInt32) : Vector UInt32 16 :=
  let sa := s[a] + s[b] + x
  let sd := rotr (s[d] ^^^ sa) 16
  let sc := s[c] + sd
  let sb := rotr (s[b] ^^^ sc) 12
  let sa := sa + sb + y
  let sd := rotr (sd ^^^ sa) 8
  let sc := sc + sd
  let sb := rotr (sb ^^^ sc) 7
  ((s.set a sa).set d sd |>.set c sc).set b sb

/-- One round: the columns, then the diagonals. -/
def round (s : Vector UInt32 16) (m : Vector UInt32 16) : Vector UInt32 16 :=
  let s := mix s 0 4 8 12 m[0] m[1]
  let s := mix s 1 5 9 13 m[2] m[3]
  let s := mix s 2 6 10 14 m[4] m[5]
  let s := mix s 3 7 11 15 m[6] m[7]
  let s := mix s 0 5 10 15 m[8] m[9]
  let s := mix s 1 6 11 12 m[10] m[11]
  let s := mix s 2 7 8 13 m[12] m[13]
  mix s 3 4 9 14 m[14] m[15]

/-- The message words in the order of the next round. -/
def permute (m : Vector UInt32 16) : Vector UInt32 16 := Vector.ofFn fun i => m[permutation[i]]

/-- Seven rounds, the message permuted between them. -/
def rounds : Nat → Vector UInt32 16 → Vector UInt32 16 → Vector UInt32 16
  | 0, s, _ => s
  | n + 1, s, m => rounds n (round s m) (permute m)

/-- The compression function: sixteen output words. -/
def compress (cv : Vector UInt32 8) (block : Vector UInt32 16) (counter : Nat) (len : Nat)
    (flags : UInt32) : Vector UInt32 16 :=
  let init : Vector UInt32 16 := Vector.ofFn fun i =>
    if h : i.val < 8 then cv.get ⟨i.val, h⟩ else
    if i.val = 8 then iv[0] else if i.val = 9 then iv[1] else if i.val = 10 then iv[2]
    else if i.val = 11 then iv[3]
    else if i.val = 12 then (counter % Nat.pow 2 32).toUInt32
    else if i.val = 13 then (counter / Nat.pow 2 32 % Nat.pow 2 32).toUInt32
    else if i.val = 14 then len.toUInt32 else flags
  let s := rounds 7 init block
  Vector.ofFn fun i =>
    if h : i.val < 8 then s[i] ^^^ s.get ⟨i.val + 8, by omega⟩
    else s[i] ^^^ cv.get ⟨i.val - 8, by omega⟩

/-- A block of up to 64 bytes as sixteen little-endian words, padded with zeros. -/
def blockWords (bytes : List UInt8) : Vector UInt32 16 :=
  Vector.ofFn fun i =>
    let b (k : Nat) : UInt32 := (bytes.getD (4 * i.val + k) 0).toUInt32
    b 0 ||| (b 1 <<< 8) ||| (b 2 <<< 16) ||| (b 3 <<< 24)

/-- The first eight words of a compression. -/
def firstEight (v : Vector UInt32 16) : Vector UInt32 8 :=
  Vector.ofFn fun i => v.get ⟨i.val, by omega⟩

/-- A node whose compression is not yet done, so that it can still be made the root. -/
structure Node where
  cv : Vector UInt32 8
  block : Vector UInt32 16
  counter : Nat
  len : Nat
  flags : UInt32

/-- The chaining value of a node that is not the root. -/
def Node.chainingValue (n : Node) : Vector UInt32 8 :=
  firstEight (compress n.cv n.block n.counter n.len n.flags)

/-- The 32 output bytes of the root node. -/
def Node.rootBytes (n : Node) : List UInt8 :=
  let out := compress n.cv n.block n.counter n.len (n.flags ||| rootNode)
  (out.toList.take 8).flatMap fun (w : UInt32) =>
    [w.toUInt8, (w >>> 8).toUInt8, (w >>> 16).toUInt8, (w >>> 24).toUInt8]

/-- Cuts a list into pieces of `n` elements, the last one possibly shorter. -/
def pieces {α : Type} (n : Nat) (xs : List α) : List (List α) :=
  if _ : n = 0 then [xs]
  else if xs.length ≤ n then [xs]
  else xs.take n :: pieces n (xs.drop n)
termination_by xs.length
decreasing_by simp; omega

/-- The last block of chunk `index`, after chaining its earlier blocks. -/
def chunkNode (bytes : List UInt8) (index : Nat) : Node :=
  let blocks := pieces 64 bytes
  let rec go (cv : Vector UInt32 8) (first : Bool) : List (List UInt8) → Node
    | [] => ⟨cv, blockWords [], index, 0, (if first then chunkStart else 0) ||| chunkEnd⟩
    | [b] => ⟨cv, blockWords b, index, b.length, (if first then chunkStart else 0) ||| chunkEnd⟩
    | b :: rest =>
      let flags := if first then chunkStart else 0
      go (firstEight (compress cv (blockWords b) index 64 flags)) false rest
  go iv true blocks

/-- The parent node of two chaining values. -/
def parentOf (left right : Vector UInt32 8) : Node :=
  ⟨iv, Vector.ofFn (fun i => if h : i.val < 8 then left.get ⟨i.val, h⟩
    else right.get ⟨i.val - 8, by omega⟩), 0, 64,
    parentNode⟩

/-- The largest power of two strictly below `n`, for `n ≥ 2`. -/
def splitPoint (n : Nat) : Nat :=
  let rec go (p : Nat) (fuel : Nat) : Nat :=
    match fuel with
    | 0 => p
    | fuel + 1 => if 2 * p < n then go (2 * p) fuel else p
  go 1 n

theorem splitPoint_go_bounds (n : Nat) :
    ∀ fuel p, 1 ≤ p → p < n → 1 ≤ splitPoint.go n p fuel ∧ splitPoint.go n p fuel < n := by
  intro fuel
  induction fuel with
  | zero => intro p h1 h2; simp only [splitPoint.go]; omega
  | succ f ih =>
    intro p h1 h2
    simp only [splitPoint.go]
    split
    · exact ih _ (by omega) (by omega)
    · exact ⟨h1, h2⟩

theorem splitPoint_bounds (n : Nat) (h : 2 ≤ n) : 1 ≤ splitPoint n ∧ splitPoint n < n :=
  splitPoint_go_bounds n n 1 (by omega) (by omega)

/-- The root node of the subtree over `chunks`, the first of which has number `start`. -/
def subtree (chunks : List (List UInt8)) (start : Nat) : Node :=
  if _ : chunks.length ≤ 1 then chunkNode (chunks.headD []) start
  else
    let k := splitPoint chunks.length
    let left := subtree (chunks.take k) start
    let right := subtree (chunks.drop k) (start + k)
    parentOf left.chainingValue right.chainingValue
termination_by chunks.length
decreasing_by
  all_goals
    have hk := splitPoint_bounds chunks.length (by omega)
    simp only [List.length_take, List.length_drop]
    omega

/-- The 32-byte BLAKE3 digest of `bytes`. -/
def digest (bytes : List UInt8) : List UInt8 :=
  (subtree (pieces 1024 bytes) 0).rootBytes

end AccessLayer.Blake3
