import RuleScan.Text.Hex

/-!
The SHA-256 digest of a byte string: padding to blocks of sixty-four bytes, the message schedule,
and sixty-four rounds for each block.
-/
namespace RuleScan.Sha256

/-- The eight words that each block transforms. -/
structure Words where
  a : UInt32
  b : UInt32
  c : UInt32
  d : UInt32
  e : UInt32
  f : UInt32
  g : UInt32
  h : UInt32
deriving DecidableEq, Repr

def initial : Words :=
  ⟨0x6a09e667, 0xbb67ae85, 0x3c6ef372, 0xa54ff53a,
   0x510e527f, 0x9b05688c, 0x1f83d9ab, 0x5be0cd19⟩

def roundConstants : List UInt32 :=
  [0x428a2f98, 0x71374491, 0xb5c0fbcf, 0xe9b5dba5, 0x3956c25b, 0x59f111f1, 0x923f82a4, 0xab1c5ed5,
   0xd807aa98, 0x12835b01, 0x243185be, 0x550c7dc3, 0x72be5d74, 0x80deb1fe, 0x9bdc06a7, 0xc19bf174,
   0xe49b69c1, 0xefbe4786, 0x0fc19dc6, 0x240ca1cc, 0x2de92c6f, 0x4a7484aa, 0x5cb0a9dc, 0x76f988da,
   0x983e5152, 0xa831c66d, 0xb00327c8, 0xbf597fc7, 0xc6e00bf3, 0xd5a79147, 0x06ca6351, 0x14292967,
   0x27b70a85, 0x2e1b2138, 0x4d2c6dfc, 0x53380d13, 0x650a7354, 0x766a0abb, 0x81c2c92e, 0x92722c85,
   0xa2bfe8a1, 0xa81a664b, 0xc24b8b70, 0xc76c51a3, 0xd192e819, 0xd6990624, 0xf40e3585, 0x106aa070,
   0x19a4c116, 0x1e376c08, 0x2748774c, 0x34b0bcb5, 0x391c0cb3, 0x4ed8aa4a, 0x5b9cca4f, 0x682e6ff3,
   0x748f82ee, 0x78a5636f, 0x84c87814, 0x8cc70208, 0x90befffa, 0xa4506ceb, 0xbef9a3f7, 0xc67178f2]

def rotate (x : UInt32) (n : UInt32) : UInt32 := (x >>> n) ||| (x <<< (32 - n))

/-- The big-endian bytes of the lowest `count` bytes of a number. -/
def bigEndian (count n : Nat) : List UInt8 :=
  (List.range count).map fun i => UInt8.ofNat (n >>> (8 * (count - 1 - i)))

/-- The message, a one bit, zeros up to eight bytes before the end of a block, and the length of
the message in bits. -/
def padded (message : List UInt8) : List UInt8 :=
  let zeros := (119 - message.length % 64) % 64
  message ++ 0x80 :: List.replicate zeros 0 ++ bigEndian 8 (8 * message.length)

/-- The big-endian word at byte `i`. -/
def wordAt (bytes : Array UInt8) (i : Nat) : UInt32 :=
  ((bytes.getD i 0).toUInt32 <<< 24) ||| ((bytes.getD (i + 1) 0).toUInt32 <<< 16) |||
    ((bytes.getD (i + 2) 0).toUInt32 <<< 8) ||| (bytes.getD (i + 3) 0).toUInt32

/-- Appends the next word of the message schedule. -/
def extendSchedule (w : Array UInt32) : Array UInt32 :=
  let back (k : Nat) := w.getD (w.size - k) 0
  let low := rotate (back 15) 7 ^^^ rotate (back 15) 18 ^^^ (back 15 >>> 3)
  let high := rotate (back 2) 17 ^^^ rotate (back 2) 19 ^^^ (back 2 >>> 10)
  w.push (back 16 + low + back 7 + high)

/-- The sixty-four words of the block that starts at byte `start`. -/
def schedule (bytes : Array UInt8) (start : Nat) : Array UInt32 :=
  let first := (List.range 16).foldl (fun w i => w.push (wordAt bytes (start + 4 * i))) #[]
  (List.range 48).foldl (fun w _ => extendSchedule w) first

/-- One round with the sum of its constant and its schedule word. -/
def round (s : Words) (k : UInt32) : Words :=
  let sumE := rotate s.e 6 ^^^ rotate s.e 11 ^^^ rotate s.e 25
  let choice := (s.e &&& s.f) ^^^ (~~~s.e &&& s.g)
  let t := s.h + sumE + choice + k
  let sumA := rotate s.a 2 ^^^ rotate s.a 13 ^^^ rotate s.a 22
  let majority := (s.a &&& s.b) ^^^ (s.a &&& s.c) ^^^ (s.b &&& s.c)
  ⟨t + sumA + majority, s.a, s.b, s.c, s.d + t, s.e, s.f, s.g⟩

/-- The words after one more block. -/
def compress (s : Words) (w : Array UInt32) : Words :=
  let r := (List.zipWith (· + ·) roundConstants w.toList).foldl round s
  ⟨s.a + r.a, s.b + r.b, s.c + r.c, s.d + r.d, s.e + r.e, s.f + r.f, s.g + r.g, s.h + r.h⟩

def digest (message : List UInt8) : List UInt8 :=
  let bytes := (padded message).toArray
  let s := (List.range (bytes.size / 64)).foldl
    (fun s i => compress s (schedule bytes (64 * i))) initial
  [s.a, s.b, s.c, s.d, s.e, s.f, s.g, s.h].flatMap fun w => bigEndian 4 w.toNat

def hexDigest (message : List UInt8) : String :=
  Text.hexBytes (digest message)

end RuleScan.Sha256
