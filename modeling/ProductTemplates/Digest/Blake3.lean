/-! BLAKE3, as a function from bytes to hexadecimal text. Chunks of 1024 bytes are compressed block
by block, and their chaining values pairwise, level by level, until one is left. -/
namespace ProductTemplates.Digest

abbrev Words (n : Nat) := Vector UInt32 n

def initial : Words 8 := #v[
  0x6A09E667, 0xBB67AE85, 0x3C6EF372, 0xA54FF53A, 0x510E527F, 0x9B05688C, 0x1F83D9AB, 0x5BE0CD19]

/-- The sixteen words of the state as four rows. -/
structure State where
  a : Words 4
  b : Words 4
  c : Words 4
  d : Words 4
deriving Inhabited

def add (x y : Words 4) : Words 4 := Vector.zipWith (· + ·) x y

def turn (count : UInt32) (x y : Words 4) : Words 4 :=
  Vector.zipWith (fun u v => let w := u ^^^ v; (w >>> count) ||| (w <<< (32 - count))) x y

/-- Mixes the four columns with two message words each. -/
def State.mix (s : State) (x y : Words 4) : State :=
  let a := add (add s.a s.b) x
  let d := turn 16 s.d a
  let c := add s.c d
  let b := turn 12 s.b c
  let a := add (add a b) y
  let d := turn 8 d a
  let c := add c d
  let b := turn 7 b c
  ⟨a, b, c, d⟩

/-- The row from its word `k` on, around. -/
def around (k : Fin 4) (row : Words 4) : Words 4 := Vector.ofFn fun i => row[i + k]

/-- Every other of eight message words, from the given one on. -/
def pick (message : Words 16) (first : Fin 16) : Words 4 :=
  Vector.ofFn fun i : Fin 4 => message[first + 2 * i.castLE (by decide)]

def State.round (s : State) (message : Words 16) : State :=
  let t := s.mix (pick message 0) (pick message 1)
  let u := State.mix ⟨t.a, around 1 t.b, around 2 t.c, around 3 t.d⟩ (pick message 8) (pick message 9)
  ⟨u.a, around 3 u.b, around 2 u.c, around 1 u.d⟩

def order : Vector (Fin 16) 16 := #v[2, 6, 3, 10, 7, 0, 4, 13, 1, 11, 12, 5, 9, 14, 15, 8]

def permute (message : Words 16) : Words 16 := order.map fun i => message[i]

def State.rounds : Nat → State → Words 16 → State
  | 0, s, _ => s
  | n + 1, s, message => rounds n (s.round message) (permute message)

/-- What a block is for: the start or end of a chunk, a parent of two nodes, the root. -/
structure Role where
  chunkStart : Bool := false
  chunkEnd : Bool := false
  parent : Bool := false
  root : Bool := false

def Role.flags (r : Role) : UInt32 :=
  (if r.chunkStart then 1 else 0) + (if r.chunkEnd then 2 else 0) + (if r.parent then 4 else 0) +
    (if r.root then 8 else 0)

/-- The chaining value after a block of so many bytes. -/
def compress (chain : Words 8) (message : Words 16) (counter : UInt64) (length : UInt32) (role : Role) :
    Words 8 :=
  let s : State := {
    a := chain.extract 0 4
    b := chain.extract 4 8
    c := initial.extract 0 4
    d := #v[counter.toUInt32, (counter >>> 32).toUInt32, length, role.flags] }
  let s := s.rounds 7 message
  Vector.zipWith (· ^^^ ·) (s.a ++ s.b) (s.c ++ s.d)

/-- Bytes as words of which the lowest byte comes first; zeros follow the last byte. -/
def words (bytes : List UInt8) : Words 16 :=
  let bytes := bytes.toArray
  Vector.ofFn fun i =>
    let byte (k : Nat) : UInt32 := (bytes.getD (4 * i + k) 0).toUInt32
    byte 0 ||| (byte 1 <<< 8) ||| (byte 2 <<< 16) ||| (byte 3 <<< 24)

def pieces {α : Type} (n : Nat) : List α → List (List α)
  | [] => []
  | x :: rest => (x :: rest.take n) :: pieces n (rest.drop n)
termination_by xs => xs.length
decreasing_by simp only [List.length_cons, List.length_drop]; omega

def compressBlocks (number : UInt64) (root start : Bool) (chain : Words 8) :
    List (List UInt8) → Words 8
  | [] => chain
  | [block] =>
    compress chain (words block) number block.length.toUInt32
      { chunkStart := start, chunkEnd := true, root := root }
  | block :: rest =>
    let next := compress chain (words block) number block.length.toUInt32 { chunkStart := start }
    compressBlocks number root false next rest

def chunkValue (number : Nat) (root : Bool) (chunk : List UInt8) : Words 8 :=
  let blocks := match pieces 63 chunk with
    | [] => [[]]
    | blocks => blocks
  compressBlocks number.toUInt64 root true initial blocks

def parentValue (root : Bool) (left right : Words 8) : Words 8 :=
  compress initial (left ++ right) 0 64 { parent := true, root := root }

/-- The next level of the tree; a node without a partner goes up as it is. -/
def nextLevel : List (Words 8) → List (Words 8)
  | left :: right :: rest => parentValue false left right :: nextLevel rest
  | rest => rest

theorem length_nextLevel_le (nodes : List (Words 8)) :
    2 * (nextLevel nodes).length ≤ nodes.length + 1 := by
  fun_induction nextLevel nodes with
  | case1 left right rest ih => simp only [List.length_cons]; omega
  | case2 rest short =>
    match rest, short with
    | [], _ => simp
    | [_], _ => simp
    | a :: b :: more, short => exact absurd rfl (short a b more)

def rootAbove : List (Words 8) → Words 8
  | [] => initial
  | [only] => only
  | [left, right] => parentValue true left right
  | a :: b :: c :: rest => rootAbove (nextLevel (a :: b :: c :: rest))
termination_by nodes => nodes.length
decreasing_by
  have := length_nextLevel_le (a :: b :: c :: rest)
  simp only [List.length_cons] at *
  omega

def root (bytes : List UInt8) : Words 8 :=
  match pieces 1023 bytes with
  | [] => chunkValue 0 true []
  | [chunk] => chunkValue 0 true chunk
  | chunks => rootAbove (chunks.zipIdx.map fun (chunk, number) => chunkValue number false chunk)

def hexByte (b : UInt8) : List Char :=
  [Nat.digitChar (b.toNat / 16), Nat.digitChar (b.toNat % 16)]

def littleEndian : Nat → Nat → List UInt8
  | 0, _ => []
  | count + 1, n => n.toUInt8 :: littleEndian count (n / 256)

def blake3 (bytes : List UInt8) : String :=
  String.ofList ((root bytes).toList.flatMap fun w => (littleEndian 4 w.toNat).flatMap hexByte)

end ProductTemplates.Digest
