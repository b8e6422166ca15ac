/-!
# The SHA-1 digest

SHA-1 over bytes. The message is padded to blocks of 64 bytes; each block is expanded to
eighty words, which drive eighty rounds on a state of five words; the state after the last
block is the digest.

## Main definitions

* `Sha1.State` — the five words.
* `Sha1.pad` — the padded message.
* `Sha1.compress` — one block.
* `Sha1.digest` — the whole message.
-/

namespace EditGraph.Sha1

/-- The chaining value, and in the end the digest. -/
structure State where
  a : UInt32
  b : UInt32
  c : UInt32
  d : UInt32
  e : UInt32
  deriving DecidableEq, Repr

/-- The chaining value before the first block. -/
def State.initial : State :=
  ⟨0x67452301, 0xEFCDAB89, 0x98BADCFE, 0x10325476, 0xC3D2E1F0⟩

/-- Word by word addition. -/
def State.add (s t : State) : State :=
  ⟨s.a + t.a, s.b + t.b, s.c + t.c, s.d + t.d, s.e + t.e⟩

/-- Rotation to the left by `n` bits, `0 < n < 32`. -/
def rotateLeft (x n : UInt32) : UInt32 := (x <<< n) ||| (x >>> (32 - n))

/-- Bytes joined to a number, the most significant first. -/
def joinBytes (bytes : List UInt8) : UInt32 :=
  bytes.foldl (fun word byte => (word <<< 8) ||| byte.toUInt32) 0

/-- The bytes of a message length in bits, as a big-endian number of eight bytes. -/
def lengthBytes (bits : UInt64) : List UInt8 :=
  [56, 48, 40, 32, 24, 16, 8, 0].map fun (shift : UInt64) => (bits >>> shift).toUInt8

/-- The message, a one bit, zeros up to the last eight bytes of a block, and the length. -/
def pad (message : List UInt8) : List UInt8 :=
  let n := message.length
  let zeros := List.replicate ((119 - n % 64) % 64) 0
  message ++ 0x80 :: zeros ++ lengthBytes (UInt64.ofNat (8 * n))

/-- The first `count` pieces of `size` bytes each. -/
def pieces (size : Nat) : Nat → List UInt8 → List (List UInt8)
  | 0, _ => []
  | count + 1, bytes => bytes.take size :: pieces size count (bytes.drop size)

/-- The next word of an expansion, given the words so far, the last one first. -/
def nextWord (words : List UInt32) : UInt32 :=
  let word (i : Nat) := words.getD i 0
  rotateLeft (word 2 ^^^ word 7 ^^^ word 13 ^^^ word 15) 1

/-- Lengthens an expansion by `n` words. -/
def lengthen : Nat → List UInt32 → List UInt32
  | 0, words => words
  | n + 1, words => lengthen n (nextWord words :: words)

/-- The eighty words of a block. -/
def expand (block : List UInt8) : List UInt32 :=
  (lengthen 64 ((pieces 4 16 block).map joinBytes).reverse).reverse

/-- What round `i` mixes from the middle words of the state, with the round's constant. -/
def mix (i : Nat) (b c d : UInt32) : UInt32 :=
  if i < 20 then ((b &&& c) ||| (~~~b &&& d)) + 0x5A827999
  else if i < 40 then (b ^^^ c ^^^ d) + 0x6ED9EBA1
  else if i < 60 then ((b &&& c) ||| (b &&& d) ||| (c &&& d)) + 0x8F1BBCDC
  else (b ^^^ c ^^^ d) + 0xCA62C1D6

/-- Round `i` with its word. -/
def round (s : State) (i : Nat) (word : UInt32) : State :=
  ⟨rotateLeft s.a 5 + mix i s.b s.c s.d + s.e + word, s.a, rotateLeft s.b 30, s.c, s.d⟩

/-- The rounds from `i` on, one for each word. -/
def rounds (i : Nat) (s : State) : List UInt32 → State
  | [] => s
  | word :: rest => rounds (i + 1) (round s i word) rest

/-- The chaining value after one more block. -/
def compress (s : State) (block : List UInt8) : State :=
  s.add (rounds 0 s (expand block))

/-- The digest of a message. -/
def digest (message : List UInt8) : State :=
  let padded := pad message
  (pieces 64 (padded.length / 64) padded).foldl compress .initial

end EditGraph.Sha1
