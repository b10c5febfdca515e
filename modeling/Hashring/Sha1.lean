import Hashring.Records

/-! The SHA-1 of a byte string, as the `sha1` package computes it. -/
namespace Hashring.Sha1

/-- The chaining value. -/
structure Words where
  a : UInt32
  b : UInt32
  c : UInt32
  d : UInt32
  e : UInt32

def initial : Words := ⟨0x67452301, 0xEFCDAB89, 0x98BADCFE, 0x10325476, 0xC3D2E1F0⟩

def rotateLeft (word shift : UInt32) : UInt32 := (word <<< shift) ||| (word >>> (32 - shift))

/-- Words and blocks are big-endian. -/
def wordOf (data : Bytes) : UInt32 :=
  data.foldl (fun word next => (word <<< 8) ||| UInt32.ofNat next.val) 0

def bytesOf (word : UInt32) : Bytes :=
  [byte (word >>> 24).toNat, byte (word >>> 16).toNat, byte (word >>> 8).toNat, byte word.toNat]

/-- A one bit, zeros up to eight bytes before the end of a block, and the length in bits. -/
def pad (message : Bytes) : Bytes :=
  message ++ byte 0x80 :: List.replicate ((119 - message.length % 64) % 64) (byte 0) ++
    beBytes (message.length * 8)

def pieces (size : Nat) : Nat → Bytes → List Bytes
  | 0, _ => []
  | count + 1, data => data.take size :: pieces size count (data.drop size)

def extend : Nat → List UInt32 → List UInt32
  | 0, words => words
  | count + 1, words =>
      let next := rotateLeft (words.getD 2 0 ^^^ words.getD 7 0 ^^^ words.getD 13 0 ^^^ words.getD 15 0) 1
      extend count (next :: words)

def schedule (block : Bytes) : List UInt32 := (extend 64 ((pieces 4 16 block).map wordOf).reverse).reverse

/-- The function and the constant of a round. -/
def mix (round : Nat) (b c d : UInt32) : UInt32 × UInt32 :=
  if round < 20 then ((b &&& c) ||| (~~~b &&& d), 0x5A827999)
  else if round < 40 then (b ^^^ c ^^^ d, 0x6ED9EBA1)
  else if round < 60 then ((b &&& c) ||| (b &&& d) ||| (c &&& d), 0x8F1BBCDC)
  else (b ^^^ c ^^^ d, 0xCA62C1D6)

def rounds : Nat → List UInt32 → Words → Words
  | _, [], words => words
  | round, next :: rest, ⟨a, b, c, d, e⟩ =>
      let (mixed, constant) := mix round b c d
      rounds (round + 1) rest ⟨rotateLeft a 5 + mixed + e + constant + next, a, rotateLeft b 30, c, d⟩

def compress (words : Words) (block : Bytes) : Words :=
  let after := rounds 0 (schedule block) words
  ⟨words.a + after.a, words.b + after.b, words.c + after.c, words.d + after.d, words.e + after.e⟩

def digest (message : Bytes) : Bytes :=
  let padded := pad message
  let last := (pieces 64 (padded.length / 64) padded).foldl compress initial
  bytesOf last.a ++ bytesOf last.b ++ bytesOf last.c ++ bytesOf last.d ++ bytesOf last.e

theorem digest_length (message : Bytes) : (digest message).length = 20 := rfl

end Hashring.Sha1
