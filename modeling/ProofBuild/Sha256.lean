import ProofBuild.Text.Bytes

/-!
The SHA-256 digest of a byte sequence: padding to whole blocks, a schedule of 64 words for each
block, 64 rounds over eight working words, and the sum with the words before the block.
-/

namespace ProofBuild.Sha256

structure Words where
  a : UInt32
  b : UInt32
  c : UInt32
  d : UInt32
  e : UInt32
  f : UInt32
  g : UInt32
  h : UInt32
  deriving DecidableEq

def initial : Words :=
  ⟨0x6a09e667, 0xbb67ae85, 0x3c6ef372, 0xa54ff53a, 0x510e527f, 0x9b05688c, 0x1f83d9ab, 0x5be0cd19⟩

def constants : List UInt32 := [
  0x428a2f98, 0x71374491, 0xb5c0fbcf, 0xe9b5dba5, 0x3956c25b, 0x59f111f1, 0x923f82a4, 0xab1c5ed5,
  0xd807aa98, 0x12835b01, 0x243185be, 0x550c7dc3, 0x72be5d74, 0x80deb1fe, 0x9bdc06a7, 0xc19bf174,
  0xe49b69c1, 0xefbe4786, 0x0fc19dc6, 0x240ca1cc, 0x2de92c6f, 0x4a7484aa, 0x5cb0a9dc, 0x76f988da,
  0x983e5152, 0xa831c66d, 0xb00327c8, 0xbf597fc7, 0xc6e00bf3, 0xd5a79147, 0x06ca6351, 0x14292967,
  0x27b70a85, 0x2e1b2138, 0x4d2c6dfc, 0x53380d13, 0x650a7354, 0x766a0abb, 0x81c2c92e, 0x92722c85,
  0xa2bfe8a1, 0xa81a664b, 0xc24b8b70, 0xc76c51a3, 0xd192e819, 0xd6990624, 0xf40e3585, 0x106aa070,
  0x19a4c116, 0x1e376c08, 0x2748774c, 0x34b0bcb5, 0x391c0cb3, 0x4ed8aa4a, 0x5b9cca4f, 0x682e6ff3,
  0x748f82ee, 0x78a5636f, 0x84c87814, 0x8cc70208, 0x90befffa, 0xa4506ceb, 0xbef9a3f7, 0xc67178f2]

def rotate (word : UInt32) (amount : UInt32) : UInt32 :=
  (word >>> amount) ||| (word <<< (32 - amount))

/-- The bytes of a number, most significant first. -/
def bigEndian : Nat → Nat → Bytes
  | 0, _ => []
  | count + 1, value => UInt8.ofNat (value >>> (8 * count)) :: bigEndian count value

/-- A one bit, zero bits up to the last eight bytes of a block, and the length in bits. -/
def pad (message : Bytes) : Bytes :=
  let zeros := (119 - message.length % 64) % 64
  message ++ 0x80 :: (List.replicate zeros 0 ++ bigEndian 8 (8 * message.length))

/-- Four bytes make a word. -/
def toWords : Bytes → List UInt32
  | a :: b :: c :: d :: rest =>
      ((a.toUInt32 <<< 24) ||| (b.toUInt32 <<< 16) ||| (c.toUInt32 <<< 8) ||| d.toUInt32)
        :: toWords rest
  | _ => []

/-- Extend a schedule, kept last word first, by `count` words. -/
def extend : Nat → List UInt32 → List UInt32
  | 0, schedule => schedule
  | count + 1, schedule =>
      let older (distance : Nat) : UInt32 := schedule.getD (distance - 1) 0
      let low := older 15
      let high := older 2
      let lowMix := rotate low 7 ^^^ rotate low 18 ^^^ (low >>> 3)
      let highMix := rotate high 17 ^^^ rotate high 19 ^^^ (high >>> 10)
      extend count ((older 16 + lowMix + older 7 + highMix) :: schedule)

/-- The 64 words of one block's schedule, first word first. -/
def schedule (block : Bytes) : List UInt32 := (extend 48 (toWords block).reverse).reverse

def round (w : Words) (constant word : UInt32) : Words :=
  let mixE := rotate w.e 6 ^^^ rotate w.e 11 ^^^ rotate w.e 25
  let choice := (w.e &&& w.f) ^^^ ((~~~ w.e) &&& w.g)
  let first := w.h + mixE + choice + constant + word
  let mixA := rotate w.a 2 ^^^ rotate w.a 13 ^^^ rotate w.a 22
  let majority := (w.a &&& w.b) ^^^ (w.a &&& w.c) ^^^ (w.b &&& w.c)
  ⟨first + mixA + majority, w.a, w.b, w.c, w.d + first, w.e, w.f, w.g⟩

def rounds : Words → List UInt32 → List UInt32 → Words
  | w, constant :: constants, word :: words => rounds (round w constant word) constants words
  | w, _, _ => w

def compress (w : Words) (block : Bytes) : Words :=
  let mixed := rounds w constants (schedule block)
  ⟨w.a + mixed.a, w.b + mixed.b, w.c + mixed.c, w.d + mixed.d,
    w.e + mixed.e, w.f + mixed.f, w.g + mixed.g, w.h + mixed.h⟩

def compressBlocks : Nat → Words → Bytes → Words
  | 0, w, _ => w
  | count + 1, w, bytes => compressBlocks count (compress w (bytes.take 64)) (bytes.drop 64)

def wordBytes (word : UInt32) : Bytes := bigEndian 4 word.toNat

def Words.bytes (w : Words) : Bytes :=
  wordBytes w.a ++ wordBytes w.b ++ wordBytes w.c ++ wordBytes w.d
    ++ wordBytes w.e ++ wordBytes w.f ++ wordBytes w.g ++ wordBytes w.h

/-- The digest: 32 bytes. -/
def digest (message : Bytes) : Bytes :=
  let padded := pad message
  (compressBlocks (padded.length / 64) initial padded).bytes

/-- Two small hexadecimal digits for each byte. -/
def hex (bytes : Bytes) : String :=
  String.ofList (bytes.flatMap fun byte =>
    [Text.hexDigit (byte.toNat / 16), Text.hexDigit (byte.toNat % 16)])

theorem length_bigEndian (count value : Nat) : (bigEndian count value).length = count := by
  induction count with
  | zero => rfl
  | succ count ih => simp [bigEndian, ih]

@[simp] theorem length_digest (message : Bytes) : (digest message).length = 32 := by
  simp [digest, Words.bytes, wordBytes, length_bigEndian]

end ProofBuild.Sha256
