import SignedSession.Bytes.Basic
import SignedSession.Bytes.BigEndian

/-!
# SHA-256

The message is completed to whole blocks of 64 bytes, and each block changes a state of eight
words in 64 rounds.  The words that the rounds consume form one sequence: sixteen of the block,
then each from the sixteen before it, so a window of sixteen words is all that a round carries on.
-/

set_option autoImplicit false

namespace SignedSession.Sha256

structure State where
  a : UInt32
  b : UInt32
  c : UInt32
  d : UInt32
  e : UInt32
  f : UInt32
  g : UInt32
  h : UInt32
deriving DecidableEq

/-- The first 32 bits of the fractional parts of the square roots of the first eight primes. -/
def initial : State where
  a := 0x6a09e667
  b := 0xbb67ae85
  c := 0x3c6ef372
  d := 0xa54ff53a
  e := 0x510e527f
  f := 0x9b05688c
  g := 0x1f83d9ab
  h := 0x5be0cd19

/-- The first 32 bits of the fractional parts of the cube roots of the first 64 primes. -/
def roundConstants : List UInt32 :=
  [0x428a2f98, 0x71374491, 0xb5c0fbcf, 0xe9b5dba5, 0x3956c25b, 0x59f111f1, 0x923f82a4, 0xab1c5ed5,
    0xd807aa98, 0x12835b01, 0x243185be, 0x550c7dc3, 0x72be5d74, 0x80deb1fe, 0x9bdc06a7, 0xc19bf174,
    0xe49b69c1, 0xefbe4786, 0x0fc19dc6, 0x240ca1cc, 0x2de92c6f, 0x4a7484aa, 0x5cb0a9dc, 0x76f988da,
    0x983e5152, 0xa831c66d, 0xb00327c8, 0xbf597fc7, 0xc6e00bf3, 0xd5a79147, 0x06ca6351, 0x14292967,
    0x27b70a85, 0x2e1b2138, 0x4d2c6dfc, 0x53380d13, 0x650a7354, 0x766a0abb, 0x81c2c92e, 0x92722c85,
    0xa2bfe8a1, 0xa81a664b, 0xc24b8b70, 0xc76c51a3, 0xd192e819, 0xd6990624, 0xf40e3585, 0x106aa070,
    0x19a4c116, 0x1e376c08, 0x2748774c, 0x34b0bcb5, 0x391c0cb3, 0x4ed8aa4a, 0x5b9cca4f, 0x682e6ff3,
    0x748f82ee, 0x78a5636f, 0x84c87814, 0x8cc70208, 0x90befffa, 0xa4506ceb, 0xbef9a3f7, 0xc67178f2]

/-! ## Word functions -/

/-- The word turned right by `count` bits, `0 < count < 32`. -/
def rotateRight (count word : UInt32) : UInt32 :=
  (word >>> count) ||| (word <<< (32 - count))

def choose (x y z : UInt32) : UInt32 := (x &&& y) ^^^ (~~~x &&& z)

def majority (x y z : UInt32) : UInt32 := (x &&& y) ^^^ (x &&& z) ^^^ (y &&& z)

def mixA (word : UInt32) : UInt32 :=
  rotateRight 2 word ^^^ rotateRight 13 word ^^^ rotateRight 22 word

def mixE (word : UInt32) : UInt32 :=
  rotateRight 6 word ^^^ rotateRight 11 word ^^^ rotateRight 25 word

def mixEarly (word : UInt32) : UInt32 :=
  rotateRight 7 word ^^^ rotateRight 18 word ^^^ (word >>> 3)

def mixLate (word : UInt32) : UInt32 :=
  rotateRight 17 word ^^^ rotateRight 19 word ^^^ (word >>> 10)

/-! ## Blocks -/

def State.round (s : State) (constant word : UInt32) : State :=
  let first := s.h + mixE s.e + choose s.e s.f s.g + constant + word
  let second := mixA s.a + majority s.a s.b s.c
  ⟨first + second, s.a, s.b, s.c, s.d + first, s.e, s.f, s.g⟩

def followingWord (window : List UInt32) : UInt32 :=
  mixLate (window.getD 14 0) + window.getD 9 0 + mixEarly (window.getD 1 0) + window.getD 0 0

def step : State × List UInt32 → UInt32 → State × List UInt32
  | (state, window), constant =>
      (state.round constant (window.headD 0), window.tail ++ [followingWord window])

def State.add (s t : State) : State :=
  ⟨s.a + t.a, s.b + t.b, s.c + t.c, s.d + t.d, s.e + t.e, s.f + t.f, s.g + t.g, s.h + t.h⟩

def words : List UInt8 → List UInt32
  | a :: b :: c :: d :: rest => UInt32.ofNat (BigEndian.ofBytes [a, b, c, d]) :: words rest
  | _ => []

def compress (state : State) (block : List UInt8) : State :=
  state.add (roundConstants.foldl step (state, words block)).1

/-- How many zero bytes complete a message of `length` bytes, the byte `0x80` and the eight bytes
of its length to whole blocks. -/
def zeroCount (length : Nat) : Nat := (119 - length % 64) % 64

def pad (message : List UInt8) : List UInt8 :=
  message ++ 0x80 :: List.replicate (zeroCount message.length) 0 ++
    BigEndian.toBytes 8 (8 * message.length)

def blocks : (count : Nat) → List UInt8 → List (List UInt8)
  | 0, _ => []
  | count + 1, bytes => bytes.take 64 :: blocks count (bytes.drop 64)

def State.toBytes (s : State) : Bytes 32 where
  toList := [s.a, s.b, s.c, s.d, s.e, s.f, s.g, s.h].flatMap fun word =>
    BigEndian.toBytes 4 word.toNat
  length_toList := by simp

end SignedSession.Sha256

namespace SignedSession

def sha256 (message : List UInt8) : Bytes 32 :=
  let padded := Sha256.pad message
  ((Sha256.blocks (padded.length / 64) padded).foldl Sha256.compress Sha256.initial).toBytes

end SignedSession
