import ImagePipeline.Text.Digits

/-! The hash SHA-256 of a sequence of bytes. -/
namespace ImagePipeline.Sha256

/-- The first 32 bits of the fractional parts of the cube roots of the first 64 primes. -/
def roundConstants : List UInt32 := [
  0x428a2f98, 0x71374491, 0xb5c0fbcf, 0xe9b5dba5, 0x3956c25b, 0x59f111f1, 0x923f82a4, 0xab1c5ed5,
  0xd807aa98, 0x12835b01, 0x243185be, 0x550c7dc3, 0x72be5d74, 0x80deb1fe, 0x9bdc06a7, 0xc19bf174,
  0xe49b69c1, 0xefbe4786, 0x0fc19dc6, 0x240ca1cc, 0x2de92c6f, 0x4a7484aa, 0x5cb0a9dc, 0x76f988da,
  0x983e5152, 0xa831c66d, 0xb00327c8, 0xbf597fc7, 0xc6e00bf3, 0xd5a79147, 0x06ca6351, 0x14292967,
  0x27b70a85, 0x2e1b2138, 0x4d2c6dfc, 0x53380d13, 0x650a7354, 0x766a0abb, 0x81c2c92e, 0x92722c85,
  0xa2bfe8a1, 0xa81a664b, 0xc24b8b70, 0xc76c51a3, 0xd192e819, 0xd6990624, 0xf40e3585, 0x106aa070,
  0x19a4c116, 0x1e376c08, 0x2748774c, 0x34b0bcb5, 0x391c0cb3, 0x4ed8aa4a, 0x5b9cca4f, 0x682e6ff3,
  0x748f82ee, 0x78a5636f, 0x84c87814, 0x8cc70208, 0x90befffa, 0xa4506ceb, 0xbef9a3f7, 0xc67178f2]

structure State where
  a : UInt32
  b : UInt32
  c : UInt32
  d : UInt32
  e : UInt32
  f : UInt32
  g : UInt32
  h : UInt32
  deriving DecidableEq, Repr

/-- The first 32 bits of the fractional parts of the square roots of the first 8 primes. -/
def State.initial : State :=
  ⟨0x6a09e667, 0xbb67ae85, 0x3c6ef372, 0xa54ff53a,
    0x510e527f, 0x9b05688c, 0x1f83d9ab, 0x5be0cd19⟩

def rotateRight (w : UInt32) (n : UInt32) : UInt32 := (w >>> n) ||| (w <<< (32 - n))

def smallSigma0 (w : UInt32) : UInt32 := rotateRight w 7 ^^^ rotateRight w 18 ^^^ (w >>> 3)

def smallSigma1 (w : UInt32) : UInt32 := rotateRight w 17 ^^^ rotateRight w 19 ^^^ (w >>> 10)

def bigSigma0 (w : UInt32) : UInt32 := rotateRight w 2 ^^^ rotateRight w 13 ^^^ rotateRight w 22

def bigSigma1 (w : UInt32) : UInt32 := rotateRight w 6 ^^^ rotateRight w 11 ^^^ rotateRight w 25

/-- The words that the rounds use: sixteen of the message, and each further one from four
before it. The list holds the words so far in reverse. -/
def extend : Nat → List UInt32 → List UInt32
  | 0, ws => ws
  | n + 1, ws =>
    let next := smallSigma1 (ws.getD 1 0) + ws.getD 6 0 + smallSigma0 (ws.getD 14 0) + ws.getD 15 0
    extend n (next :: ws)

def schedule (block : List UInt32) : List UInt32 := (extend 48 block.reverse).reverse

def State.round (s : State) (constant word : UInt32) : State :=
  let choice := (s.e &&& s.f) ^^^ (~~~s.e &&& s.g)
  let majority := (s.a &&& s.b) ^^^ (s.a &&& s.c) ^^^ (s.b &&& s.c)
  let t1 := s.h + bigSigma1 s.e + choice + constant + word
  let t2 := bigSigma0 s.a + majority
  ⟨t1 + t2, s.a, s.b, s.c, s.d + t1, s.e, s.f, s.g⟩

def State.add (s t : State) : State :=
  ⟨s.a + t.a, s.b + t.b, s.c + t.c, s.d + t.d, s.e + t.e, s.f + t.f, s.g + t.g, s.h + t.h⟩

/-- Takes in sixteen words. -/
def State.absorb (s : State) (block : List UInt32) : State :=
  s.add <| (roundConstants.zip (schedule block)).foldl (fun s (k, w) => s.round k w) s

/-- Takes in all words, sixteen at a time. -/
def State.absorbAll (s : State) (ws : List UInt32) : State :=
  if _ : ws.length < 16 then s
  else (s.absorb (ws.take 16)).absorbAll (ws.drop 16)
termination_by ws.length
decreasing_by simp; omega

/-- A number in some bytes, the highest first. -/
def bigEndian (count n : Nat) : List UInt8 :=
  (List.range count).reverse.map fun i => UInt8.ofNat (n / Nat.pow 256 i)

/-- The message, a one bit, zeros, and the number of bits of the message in eight bytes,
in all a multiple of 64 bytes. -/
def pad (message : List UInt8) : List UInt8 :=
  let zeros := (119 - message.length % 64) % 64
  message ++ 0x80 :: (List.replicate zeros 0 ++ bigEndian 8 (8 * message.length))

def wordsOf : List UInt8 → List UInt32
  | a :: b :: c :: d :: rest =>
    (a.toUInt32 <<< 24 ||| b.toUInt32 <<< 16 ||| c.toUInt32 <<< 8 ||| d.toUInt32) :: wordsOf rest
  | _ => []

def State.words (s : State) : List UInt32 := [s.a, s.b, s.c, s.d, s.e, s.f, s.g, s.h]

def hash (message : List UInt8) : State := State.initial.absorbAll (wordsOf (pad message))

/-- The hash in lower-case hexadecimal digits. -/
def hexDigest (message : List UInt8) : String :=
  String.join ((hash message).words.map fun w => Text.padded 16 8 w.toNat)

end ImagePipeline.Sha256
