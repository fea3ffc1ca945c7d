import Agora.Lib.Bytes

namespace Agora

/-!
# SHA-256

The hash function of `hashlib.sha256`, over byte strings.  Nothing about it is proved beyond the
shape of its hexadecimal digest (`hexDigest_shape`): no result relies on collisions being hard.
-/

namespace Sha256

/-- The first 32 bits of the fractional parts of the cube roots of the first 64 primes. -/
def roundConstants : List UInt32 :=
  [0x428a2f98, 0x71374491, 0xb5c0fbcf, 0xe9b5dba5, 0x3956c25b, 0x59f111f1, 0x923f82a4, 0xab1c5ed5,
   0xd807aa98, 0x12835b01, 0x243185be, 0x550c7dc3, 0x72be5d74, 0x80deb1fe, 0x9bdc06a7, 0xc19bf174,
   0xe49b69c1, 0xefbe4786, 0x0fc19dc6, 0x240ca1cc, 0x2de92c6f, 0x4a7484aa, 0x5cb0a9dc, 0x76f988da,
   0x983e5152, 0xa831c66d, 0xb00327c8, 0xbf597fc7, 0xc6e00bf3, 0xd5a79147, 0x06ca6351, 0x14292967,
   0x27b70a85, 0x2e1b2138, 0x4d2c6dfc, 0x53380d13, 0x650a7354, 0x766a0abb, 0x81c2c92e, 0x92722c85,
   0xa2bfe8a1, 0xa81a664b, 0xc24b8b70, 0xc76c51a3, 0xd192e819, 0xd6990624, 0xf40e3585, 0x106aa070,
   0x19a4c116, 0x1e376c08, 0x2748774c, 0x34b0bcb5, 0x391c0cb3, 0x4ed8aa4a, 0x5b9cca4f, 0x682e6ff3,
   0x748f82ee, 0x78a5636f, 0x84c87814, 0x8cc70208, 0x90befffa, 0xa4506ceb, 0xbef9a3f7, 0xc67178f2]

/-- The eight words of the chaining value. -/
structure State where
  a : UInt32
  b : UInt32
  c : UInt32
  d : UInt32
  e : UInt32
  f : UInt32
  g : UInt32
  h : UInt32

def initial : State where
  a := 0x6a09e667
  b := 0xbb67ae85
  c := 0x3c6ef372
  d := 0xa54ff53a
  e := 0x510e527f
  f := 0x9b05688c
  g := 0x1f83d9ab
  h := 0x5be0cd19

def rotr (x n : UInt32) : UInt32 := (x >>> n) ||| (x <<< (32 - n))

/-- One round with its constant and its word of the message schedule. -/
def round (s : State) (k w : UInt32) : State :=
  let s1 := rotr s.e 6 ^^^ rotr s.e 11 ^^^ rotr s.e 25
  let ch := (s.e &&& s.f) ^^^ (~~~s.e &&& s.g)
  let t1 := s.h + s1 + ch + k + w
  let s0 := rotr s.a 2 ^^^ rotr s.a 13 ^^^ rotr s.a 22
  let maj := (s.a &&& s.b) ^^^ (s.a &&& s.c) ^^^ (s.b &&& s.c)
  { a := t1 + (s0 + maj), b := s.a, c := s.b, d := s.c, e := s.d + t1, f := s.e, g := s.f, h := s.g }

/-- The word that follows a window of sixteen in the message schedule. -/
def nextWord (window : List UInt32) : UInt32 :=
  let w1 := window.getD 1 0
  let w14 := window.getD 14 0
  let s0 := rotr w1 7 ^^^ rotr w1 18 ^^^ (w1 >>> 3)
  let s1 := rotr w14 17 ^^^ rotr w14 19 ^^^ (w14 >>> 10)
  window.getD 0 0 + s0 + window.getD 9 0 + s1

/-- The rounds of one block, over a moving window of the message schedule. -/
def rounds : List UInt32 → List UInt32 → State → State
  | [], _, s => s
  | k :: ks, window, s => rounds ks (window.tail ++ [nextWord window]) (round s k (window.getD 0 0))

/-- Four bytes as a big-endian word. -/
def wordOf (b : Bytes) : UInt32 := b.foldl (fun w x => w * 256 + x.toUInt32) 0

/-- The first `n` pieces of `size` bytes. -/
def pieces (size : ℕ) : ℕ → Bytes → List Bytes
  | 0, _ => []
  | n + 1, b => b.take size :: pieces size n (b.drop size)

def compress (s : State) (block : Bytes) : State :=
  let t := rounds roundConstants ((pieces 4 16 block).map wordOf) s
  { a := s.a + t.a, b := s.b + t.b, c := s.c + t.c, d := s.d + t.d
    e := s.e + t.e, f := s.f + t.f, g := s.g + t.g, h := s.h + t.h }

/-- The message with its padding and its length in bits. -/
def pad (b : Bytes) : Bytes :=
  b ++ 0x80 :: (List.replicate ((119 - b.length % 64) % 64) 0
    ++ (List.range 8).map fun i => UInt8.ofNat (8 * b.length / 256 ^ (7 - i)))

def digest (b : Bytes) : State :=
  let padded := pad b
  (pieces 64 (padded.length / 64) padded).foldl compress initial

def hexChar (n : ℕ) : Char := Nat.digitChar (n % 16)

/-- A word as eight hexadecimal digits. -/
def wordHex (w : UInt32) : List Char :=
  (List.range 8).map fun i => hexChar (w.toNat / 16 ^ (7 - i))

/-- `hashlib.sha256(b).hexdigest()`. -/
def hexDigest (b : Bytes) : List Char :=
  let s := digest b
  [s.a, s.b, s.c, s.d, s.e, s.f, s.g, s.h].flatMap wordHex

example : String.ofList (hexDigest [0x61, 0x62, 0x63])
    = "ba7816bf8f01cfea414140de5dae2223b00361a396177a9cb410ff61f20015ad" := by
  decide +kernel

theorem isHexLower_hexChar (n : ℕ) : isHexLower (hexChar n) = true := by
  have h : ∀ m < 16, isHexLower (Nat.digitChar m) = true := by decide
  exact h _ (Nat.mod_lt _ (by decide))

/-- A digest is 64 lower-case hexadecimal digits. -/
theorem hexDigest_shape (b : Bytes) :
    (hexDigest b).length = 64 ∧ ∀ c ∈ hexDigest b, isHexLower c = true := by
  constructor
  · simp [hexDigest, wordHex]
  · intro c hc
    obtain ⟨w, -, hw⟩ := List.mem_flatMap.mp hc
    obtain ⟨i, -, rfl⟩ := List.mem_map.mp hw
    exact isHexLower_hexChar _

end Sha256

end Agora
