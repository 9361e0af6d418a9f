import GuloGulo.Js.Value

/-!
# A host to run on

SHA-256, and a `Host` whose text functions are those of the runtime on ASCII
text. Results about the stores hold for every host; this one evaluates them.
-/

namespace GuloGulo.Js
namespace Sha256

/-- Words of 32 bits. -/
abbrev word : Nat := 4294967296

def rotate (n x : Nat) : Nat := (x >>> n ||| x <<< (32 - n)) % word

/-- Bit-wise choice and majority. -/
def ch (x y z : Nat) : Nat := (x &&& y) ^^^ ((word - 1 - x) &&& z)
def maj (x y z : Nat) : Nat := (x &&& y) ^^^ (x &&& z) ^^^ (y &&& z)

def bigSigma0 (x : Nat) : Nat := rotate 2 x ^^^ rotate 13 x ^^^ rotate 22 x
def bigSigma1 (x : Nat) : Nat := rotate 6 x ^^^ rotate 11 x ^^^ rotate 25 x
def smallSigma0 (x : Nat) : Nat := rotate 7 x ^^^ rotate 18 x ^^^ x >>> 3
def smallSigma1 (x : Nat) : Nat := rotate 17 x ^^^ rotate 19 x ^^^ x >>> 10

def constants : List Nat := [
  0x428a2f98, 0x71374491, 0xb5c0fbcf, 0xe9b5dba5, 0x3956c25b, 0x59f111f1, 0x923f82a4, 0xab1c5ed5,
  0xd807aa98, 0x12835b01, 0x243185be, 0x550c7dc3, 0x72be5d74, 0x80deb1fe, 0x9bdc06a7, 0xc19bf174,
  0xe49b69c1, 0xefbe4786, 0x0fc19dc6, 0x240ca1cc, 0x2de92c6f, 0x4a7484aa, 0x5cb0a9dc, 0x76f988da,
  0x983e5152, 0xa831c66d, 0xb00327c8, 0xbf597fc7, 0xc6e00bf3, 0xd5a79147, 0x06ca6351, 0x14292967,
  0x27b70a85, 0x2e1b2138, 0x4d2c6dfc, 0x53380d13, 0x650a7354, 0x766a0abb, 0x81c2c92e, 0x92722c85,
  0xa2bfe8a1, 0xa81a664b, 0xc24b8b70, 0xc76c51a3, 0xd192e819, 0xd6990624, 0xf40e3585, 0x106aa070,
  0x19a4c116, 0x1e376c08, 0x2748774c, 0x34b0bcb5, 0x391c0cb3, 0x4ed8aa4a, 0x5b9cca4f, 0x682e6ff3,
  0x748f82ee, 0x78a5636f, 0x84c87814, 0x8cc70208, 0x90befffa, 0xa4506ceb, 0xbef9a3f7, 0xc67178f2]

structure Registers where
  a : Nat
  b : Nat
  c : Nat
  d : Nat
  e : Nat
  f : Nat
  g : Nat
  h : Nat

def initial : Registers :=
  ⟨0x6a09e667, 0xbb67ae85, 0x3c6ef372, 0xa54ff53a, 0x510e527f, 0x9b05688c, 0x1f83d9ab, 0x5be0cd19⟩

def Registers.add (r s : Registers) : Registers :=
  ⟨(r.a + s.a) % word, (r.b + s.b) % word, (r.c + s.c) % word, (r.d + s.d) % word,
    (r.e + s.e) % word, (r.f + s.f) % word, (r.g + s.g) % word, (r.h + s.h) % word⟩

def round (r : Registers) (k w : Nat) : Registers :=
  let t1 := r.h + bigSigma1 r.e + ch r.e r.f r.g + k + w
  let t2 := bigSigma0 r.a + maj r.a r.b r.c
  ⟨(t1 + t2) % word, r.a, r.b, r.c, (r.d + t1) % word, r.e, r.f, r.g⟩

/-- One round for each constant; the window holds the next sixteen words of
the schedule. -/
def rounds : List Nat → List Nat → Registers → Registers
  | k :: ks, w :: window, r =>
    let next := (smallSigma1 (window.getD 13 0) + window.getD 8 0 + smallSigma0 (window.getD 0 0) + w) % word
    rounds ks (window ++ [next]) (round r k w)
  | _, _, r => r

def bytesToWord (bytes : List UInt8) : Nat := bytes.foldl (fun n b => n * 256 + b.toNat) 0

/-- The big-endian words of a byte string, four bytes each. -/
def words : List UInt8 → List Nat
  | a :: b :: c :: d :: rest => bytesToWord [a, b, c, d] :: words rest
  | _ => []

def wordToBytes (n : Nat) : List UInt8 :=
  [UInt8.ofNat (n >>> 24), UInt8.ofNat (n >>> 16), UInt8.ofNat (n >>> 8), UInt8.ofNat n]

/-- A one bit, zeros, and the length in bits in eight bytes. -/
def padded (message : List UInt8) : List UInt8 :=
  let bits := message.length * 8
  message ++ [(0x80 : UInt8)] ++ List.replicate ((119 - message.length % 64) % 64) (0 : UInt8) ++
    wordToBytes (bits >>> 32) ++ wordToBytes bits

/-- Blocks of sixteen words, `n` of them. -/
def compress : Nat → List Nat → Registers → Registers
  | 0, _, r => r
  | n + 1, ws, r => compress n (ws.drop 16) (r.add (rounds constants (ws.take 16) r))

def digest (message : List UInt8) : List UInt8 :=
  let ws := words (padded message)
  let r := compress (ws.length / 16) ws initial
  [r.a, r.b, r.c, r.d, r.e, r.f, r.g, r.h].flatMap wordToBytes

/-- `createHmac('sha256', key)`. -/
def hmac (key message : List UInt8) : List UInt8 :=
  let key := if 64 < key.length then digest key else key
  let block := key ++ List.replicate (64 - key.length) 0
  digest (block.map (fun b => b ^^^ 0x5c) ++ digest (block.map (fun b => b ^^^ 0x36) ++ message))

end Sha256

def asciiHost : Host where
  toUpperCase s := s.map asciiUpper
  toLowerCase s := s.map asciiLower
  parseDate _ := none
  dateOfObject _ := none
  sha256 := Sha256.digest
  localeLe a b := decide (a ≤ b)
  toUpperCase_nil := rfl
  toUpperCase_ascii _ _ _ := rfl
  toLowerCase_ascii _ _ := rfl
  parseDate_clip := by simp
  sha256_length _ := rfl

end GuloGulo.Js
