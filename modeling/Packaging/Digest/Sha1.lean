/-! Digests of 160 bits. A message is padded to whole blocks, and each block is worked into five
words of state.
-/

namespace Packaging.Digest.Sha1

/-- The five words of state. -/
structure State where
  a : UInt32
  b : UInt32
  c : UInt32
  d : UInt32
  e : UInt32

/-- The state before the first block. -/
def start : State :=
  ⟨0x67452301, 0xefcdab89, 0x98badcfe, 0x10325476, 0xc3d2e1f0⟩

/-- A word with its bits turned to the left. -/
def turn (count word : UInt32) : UInt32 :=
  (word <<< count) ||| (word >>> (32 - count))

/-- The bytes of a number, the highest first. -/
def bigEndian (count number : Nat) : List UInt8 :=
  (List.range count).reverse.map fun place => UInt8.ofNat (number >>> (8 * place))

/-- A message with a mark, zeros, and its number of bits, which together fill blocks of 64 bytes. -/
def padded (message : List UInt8) : List UInt8 :=
  message ++ 0x80 :: List.replicate ((119 - message.length % 64) % 64) 0
    ++ bigEndian 8 (8 * message.length)

/-- The words of bytes, the highest byte first. -/
def words : List UInt8 → List UInt32
  | a :: b :: c :: d :: rest =>
    ((a.toUInt32 <<< 24) ||| (b.toUInt32 <<< 16) ||| (c.toUInt32 <<< 8) ||| d.toUInt32)
      :: words rest
  | _ => []

/-- The schedule of a block, in reverse, after `count` more words. A word comes from the words 3, 8,
14 and 16 places before it.
-/
def schedule : (count : Nat) → (reversed : List UInt32) → List UInt32
  | 0, reversed => reversed
  | count + 1, reversed =>
    let before (places : Nat) : UInt32 := reversed.getD (places - 1) 0
    schedule count (turn 1 (before 3 ^^^ before 8 ^^^ before 14 ^^^ before 16) :: reversed)

/-- How three words are mixed in a round, and the constant of the round. -/
def mix (round : Nat) (b c d : UInt32) : UInt32 × UInt32 :=
  if round < 20 then ((b &&& c) ||| (~~~b &&& d), 0x5a827999)
  else if round < 40 then (b ^^^ c ^^^ d, 0x6ed9eba1)
  else if round < 60 then ((b &&& c) ||| (b &&& d) ||| (c &&& d), 0x8f1bbcdc)
  else (b ^^^ c ^^^ d, 0xca62c1d6)

/-- The state after a round with a word of the schedule. -/
def step (state : State) (round : Nat × UInt32) : State :=
  let (mixed, constant) := mix round.1 state.b state.c state.d
  let first := turn 5 state.a + mixed + state.e + constant + round.2
  ⟨first, state.a, turn 30 state.b, state.c, state.d⟩

/-- The state after a block of sixteen words. -/
def absorb (state : State) (block : List UInt32) : State :=
  let rounds := (List.range 80).zip (schedule 64 block.reverse).reverse
  let mixed := rounds.foldl step state
  ⟨state.a + mixed.a, state.b + mixed.b, state.c + mixed.c, state.d + mixed.d, state.e + mixed.e⟩

/-- The state after all blocks of a list of words. -/
def absorbAll (state : State) (words : List UInt32) : State :=
  if words.isEmpty then state
  else absorbAll (absorb state (words.take 16)) (words.drop 16)
termination_by words.length
decreasing_by
  cases words with
  | nil => simp at *
  | cons => simp only [List.length_drop, List.length_cons]; omega

def digest (message : List UInt8) : List UInt8 :=
  let state := absorbAll start (words (padded message))
  [state.a, state.b, state.c, state.d, state.e].flatMap fun word => bigEndian 4 word.toNat

end Packaging.Digest.Sha1
