/-!
# The SHA-256 digest

The digest of a byte sequence: the message is padded to blocks of 64 bytes, each block is expanded
to 64 words and mixed into the state in 64 rounds, and the eight words of the final state are
written in hexadecimal.
-/

namespace EntityForge.Digest

/-- The eight working words. -/
structure Sha256State where
  a : UInt32
  b : UInt32
  c : UInt32
  d : UInt32
  e : UInt32
  f : UInt32
  g : UInt32
  h : UInt32

/-- The state before the first block. -/
def Sha256State.start : Sha256State :=
  ⟨0x6a09e667, 0xbb67ae85, 0x3c6ef372, 0xa54ff53a, 0x510e527f, 0x9b05688c, 0x1f83d9ab, 0x5be0cd19⟩

/-- The word-wise sum of two states. -/
def Sha256State.add (s t : Sha256State) : Sha256State :=
  ⟨s.a + t.a, s.b + t.b, s.c + t.c, s.d + t.d, s.e + t.e, s.f + t.f, s.g + t.g, s.h + t.h⟩

/-- The words of a state in order. -/
def Sha256State.words (s : Sha256State) : List UInt32 := [s.a, s.b, s.c, s.d, s.e, s.f, s.g, s.h]

/-- The round constants. -/
def roundConstants : List UInt32 := [
  0x428a2f98, 0x71374491, 0xb5c0fbcf, 0xe9b5dba5, 0x3956c25b, 0x59f111f1, 0x923f82a4, 0xab1c5ed5,
  0xd807aa98, 0x12835b01, 0x243185be, 0x550c7dc3, 0x72be5d74, 0x80deb1fe, 0x9bdc06a7, 0xc19bf174,
  0xe49b69c1, 0xefbe4786, 0x0fc19dc6, 0x240ca1cc, 0x2de92c6f, 0x4a7484aa, 0x5cb0a9dc, 0x76f988da,
  0x983e5152, 0xa831c66d, 0xb00327c8, 0xbf597fc7, 0xc6e00bf3, 0xd5a79147, 0x06ca6351, 0x14292967,
  0x27b70a85, 0x2e1b2138, 0x4d2c6dfc, 0x53380d13, 0x650a7354, 0x766a0abb, 0x81c2c92e, 0x92722c85,
  0xa2bfe8a1, 0xa81a664b, 0xc24b8b70, 0xc76c51a3, 0xd192e819, 0xd6990624, 0xf40e3585, 0x106aa070,
  0x19a4c116, 0x1e376c08, 0x2748774c, 0x34b0bcb5, 0x391c0cb3, 0x4ed8aa4a, 0x5b9cca4f, 0x682e6ff3,
  0x748f82ee, 0x78a5636f, 0x84c87814, 0x8cc70208, 0x90befffa, 0xa4506ceb, 0xbef9a3f7, 0xc67178f2]

/-- Rotation to the right by `n` places, for `0 < n < 32`. -/
def rotateRight (x : UInt32) (n : UInt32) : UInt32 := (x >>> n) ||| (x <<< (32 - n))

/-- One word of the expanded block. -/
def expandStep (w : Array UInt32) (i : Nat) : Array UInt32 :=
  let x := w.getD (i + 1) 0
  let y := w.getD (i + 14) 0
  let s0 := rotateRight x 7 ^^^ rotateRight x 18 ^^^ (x >>> 3)
  let s1 := rotateRight y 17 ^^^ rotateRight y 19 ^^^ (y >>> 10)
  w.push (w.getD i 0 + s0 + w.getD (i + 9) 0 + s1)

/-- One round on the working words. -/
def mixStep (s : Sha256State) (kw : UInt32 × UInt32) : Sha256State :=
  let s1 := rotateRight s.e 6 ^^^ rotateRight s.e 11 ^^^ rotateRight s.e 25
  let choice := (s.e &&& s.f) ^^^ ((~~~ s.e) &&& s.g)
  let t1 := s.h + s1 + choice + kw.1 + kw.2
  let s0 := rotateRight s.a 2 ^^^ rotateRight s.a 13 ^^^ rotateRight s.a 22
  let majority := (s.a &&& s.b) ^^^ (s.a &&& s.c) ^^^ (s.b &&& s.c)
  ⟨t1 + (s0 + majority), s.a, s.b, s.c, s.d + t1, s.e, s.f, s.g⟩

/-- The four bytes from an offset on, as a word with the first byte highest. -/
def wordAt (bytes : ByteArray) (i : Nat) : UInt32 :=
  [0, 1, 2, 3].foldl (fun acc k => (acc <<< 8) ||| (bytes.data.getD (i + k) 0).toUInt32) 0

/-- Mixes the block that starts at an offset into the state. -/
def mixBlock (bytes : ByteArray) (s : Sha256State) (offset : Nat) : Sha256State :=
  let block := ((List.range 16).map fun i => wordAt bytes (offset + 4 * i)).toArray
  let expanded := (List.range 48).foldl expandStep block
  s.add ((roundConstants.zip expanded.toList).foldl mixStep s)

/-- The message with its end mark, zeros up to a whole block, and its length in bits. -/
def padded (bytes : ByteArray) : ByteArray :=
  let zeros := (119 - bytes.size % 64) % 64
  let bits := bytes.size * 8
  let marked := (List.range zeros).foldl (fun b _ => b.push 0) (bytes.push 0x80)
  (List.range 8).foldl (fun b i => b.push (UInt8.ofNat (bits >>> (8 * (7 - i))))) marked

/-- The final state after all blocks. -/
def sha256State (bytes : ByteArray) : Sha256State :=
  let message := padded bytes
  (List.range (message.size / 64)).foldl (fun s i => mixBlock message s (64 * i)) .start

/-- A word in eight hexadecimal digits. -/
def wordHex (w : UInt32) : String :=
  let digits := Nat.toDigits 16 w.toNat
  .ofList (List.replicate (8 - digits.length) '0' ++ digits)

/-- The SHA-256 digest of a byte sequence in hexadecimal. -/
def sha256 (bytes : ByteArray) : String := .join ((sha256State bytes).words.map wordHex)

/-- The SHA-256 digest of a text's UTF-8 form. -/
def sha256Text (s : String) : String := sha256 s.toUTF8

end EntityForge.Digest
