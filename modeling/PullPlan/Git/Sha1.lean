import PullPlan.Text.Utf8

/-!
# SHA-1

The hash by which objects are named. The message is padded to blocks of 64 bytes, each block is
expanded to a schedule of 80 words, and 80 rounds mix the schedule into five words of state.
-/

namespace PullPlan
namespace Sha1

/-- Rotates a word to the left. -/
def rotate (word : UInt32) (count : UInt32) : UInt32 := word <<< count ||| word >>> (32 - count)

/-- The bytes of a natural number in a field of the given length, the highest first. -/
def bigEndian : Nat → Nat → Bytes
  | 0, _ => []
  | length + 1, n => UInt8.ofNat (n / Nat.pow 256 length) :: bigEndian length n

/-- The word that four bytes make, the highest first. -/
def word (a b c d : UInt8) : UInt32 :=
  a.toUInt32 <<< 24 ||| b.toUInt32 <<< 16 ||| c.toUInt32 <<< 8 ||| d.toUInt32

/-- The words that a list of bytes makes. -/
def words : Bytes → List UInt32
  | a :: b :: c :: d :: rest => word a b c d :: words rest
  | _ => []

/-- The message with a bit, zeros and its length in bits after it, a whole number of blocks. -/
def pad (message : Bytes) : Bytes :=
  let zeros := (119 - message.length % 64) % 64
  message ++ 0x80 :: List.replicate zeros 0 ++ bigEndian 8 (8 * message.length)

/-- The state of the hash. -/
structure State where
  a : UInt32
  b : UInt32
  c : UInt32
  d : UInt32
  e : UInt32

/-- The state before the first block. -/
def State.start : State := ⟨0x67452301, 0xEFCDAB89, 0x98BADCFE, 0x10325476, 0xC3D2E1F0⟩

/-- The word of the schedule after sixteen earlier ones; the list starts with the latest. -/
def nextWord (latest : List UInt32) : UInt32 :=
  let back (i : Nat) : UInt32 := latest.getD (i - 1) 0
  rotate (back 3 ^^^ back 8 ^^^ back 14 ^^^ back 16) 1

/-- Adds words to a schedule, which starts with the latest. -/
def extend : Nat → List UInt32 → List UInt32
  | 0, latest => latest
  | count + 1, latest => extend count (nextWord latest :: latest)

/-- The 80 words of a block of 16. -/
def schedule (block : List UInt32) : List UInt32 := (extend 64 block.reverse).reverse

/-- The mixing function of a round. -/
def mix (round : Nat) (s : State) : UInt32 :=
  if round < 20 then (s.b &&& s.c) ||| (~~~s.b &&& s.d)
  else if round < 40 then s.b ^^^ s.c ^^^ s.d
  else if round < 60 then (s.b &&& s.c) ||| (s.b &&& s.d) ||| (s.c &&& s.d)
  else s.b ^^^ s.c ^^^ s.d

/-- The constant of a round. -/
def constant (round : Nat) : UInt32 :=
  if round < 20 then 0x5A827999
  else if round < 40 then 0x6ED9EBA1
  else if round < 60 then 0x8F1BBCDC
  else 0xCA62C1D6

/-- One round. -/
def turn (s : State) (input : Nat × UInt32) : State :=
  let (round, word) := input
  ⟨rotate s.a 5 + mix round s + s.e + constant round + word, s.a, rotate s.b 30, s.c, s.d⟩

/-- Mixes a block of 16 words into the state. -/
def compress (s : State) (block : List UInt32) : State :=
  let mixed := ((List.range 80).zip (schedule block)).foldl turn s
  ⟨s.a + mixed.a, s.b + mixed.b, s.c + mixed.c, s.d + mixed.d, s.e + mixed.e⟩

/-- Mixes blocks into the state; the first argument is their number. -/
def absorb : Nat → List UInt32 → State → State
  | 0, _, s => s
  | blocks + 1, input, s => absorb blocks (input.drop 16) (compress s (input.take 16))

/-- The eight hexadecimal digits of a word. -/
def hexWord (word : UInt32) : Text :=
  (List.range 8).map fun i => Nat.digitChar (word.toNat / Nat.pow 16 (7 - i) % 16)

/-- The hash of a message, as forty hexadecimal digits. -/
def hash (message : Bytes) : Text :=
  let input := words (pad message)
  let s := absorb (input.length / 16) input .start
  hexWord s.a ++ hexWord s.b ++ hexWord s.c ++ hexWord s.d ++ hexWord s.e

end Sha1
end PullPlan
