import SecureInbox.Bytes

/-!
# SHA-256

The hash of FIPS 180-4. A message is padded to whole blocks of 64 bytes; each
block is stretched to 64 words and stirred into a state of eight words, which
is the digest at the end.
-/

namespace SecureInbox.Sha256

/-- The eight words of the chaining state. -/
structure State where
  a : UInt32
  b : UInt32
  c : UInt32
  d : UInt32
  e : UInt32
  f : UInt32
  g : UInt32
  h : UInt32

/-- The state before the first block: the fractional parts of the square roots
    of the first eight primes. -/
def State.start : State :=
  ⟨0x6a09e667, 0xbb67ae85, 0x3c6ef372, 0xa54ff53a, 0x510e527f, 0x9b05688c, 0x1f83d9ab, 0x5be0cd19⟩

/-- The round constants: the fractional parts of the cube roots of the first 64
    primes. -/
def constants : List UInt32 :=
  [0x428a2f98, 0x71374491, 0xb5c0fbcf, 0xe9b5dba5, 0x3956c25b, 0x59f111f1, 0x923f82a4, 0xab1c5ed5,
    0xd807aa98, 0x12835b01, 0x243185be, 0x550c7dc3, 0x72be5d74, 0x80deb1fe, 0x9bdc06a7, 0xc19bf174,
    0xe49b69c1, 0xefbe4786, 0x0fc19dc6, 0x240ca1cc, 0x2de92c6f, 0x4a7484aa, 0x5cb0a9dc, 0x76f988da,
    0x983e5152, 0xa831c66d, 0xb00327c8, 0xbf597fc7, 0xc6e00bf3, 0xd5a79147, 0x06ca6351, 0x14292967,
    0x27b70a85, 0x2e1b2138, 0x4d2c6dfc, 0x53380d13, 0x650a7354, 0x766a0abb, 0x81c2c92e, 0x92722c85,
    0xa2bfe8a1, 0xa81a664b, 0xc24b8b70, 0xc76c51a3, 0xd192e819, 0xd6990624, 0xf40e3585, 0x106aa070,
    0x19a4c116, 0x1e376c08, 0x2748774c, 0x34b0bcb5, 0x391c0cb3, 0x4ed8aa4a, 0x5b9cca4f, 0x682e6ff3,
    0x748f82ee, 0x78a5636f, 0x84c87814, 0x8cc70208, 0x90befffa, 0xa4506ceb, 0xbef9a3f7, 0xc67178f2]

/-- A word turned right by `n` bits. -/
def rotate (n : UInt32) (x : UInt32) : UInt32 := (x >>> n) ||| (x <<< (32 - n))

/-- One round with its constant and its word of the schedule. -/
def State.round (s : State) (k w : UInt32) : State :=
  let sum1 := rotate 6 s.e ^^^ rotate 11 s.e ^^^ rotate 25 s.e
  let choice := (s.e &&& s.f) ^^^ (~~~ s.e &&& s.g)
  let t1 := s.h + sum1 + choice + k + w
  let sum0 := rotate 2 s.a ^^^ rotate 13 s.a ^^^ rotate 22 s.a
  let majority := (s.a &&& s.b) ^^^ (s.a &&& s.c) ^^^ (s.b &&& s.c)
  ⟨t1 + (sum0 + majority), s.a, s.b, s.c, s.d + t1, s.e, s.f, s.g⟩

/-- The schedule, newest word first, made `n` words longer. -/
def extend : Nat → List UInt32 → List UInt32
  | 0, words => words
  | n + 1, words =>
    let w2 := words.getD 1 0
    let w15 := words.getD 14 0
    let s1 := rotate 17 w2 ^^^ rotate 19 w2 ^^^ (w2 >>> 10)
    let s0 := rotate 7 w15 ^^^ rotate 18 w15 ^^^ (w15 >>> 3)
    extend n ((words.getD 15 0 + s0 + words.getD 6 0 + s1) :: words)

/-- The words of a byte string; up to three bytes left over are dropped. -/
def words : Bytes → List UInt32
  | a :: b :: c :: d :: rest => Bytes.toWord a b c d :: words rest
  | _ => []

/-- The 64 words a block of 64 bytes is stretched to. -/
def schedule (block : Bytes) : List UInt32 := (extend 48 (words block).reverse).reverse

/-- The state after one more block. -/
def State.absorb (s : State) (block : Bytes) : State :=
  let t := (constants.zip (schedule block)).foldl (fun s kw => s.round kw.1 kw.2) s
  ⟨s.a + t.a, s.b + t.b, s.c + t.c, s.d + t.d, s.e + t.e, s.f + t.f, s.g + t.g, s.h + t.h⟩

/-- The message, a one bit, zeros and the length in bits as eight bytes: a whole
    number of blocks. -/
def padded (message : Bytes) : Bytes :=
  let bits := message.length * 8
  message ++ 0x80 :: List.replicate ((119 - message.length % 64) % 64) 0 ++
    Bytes.ofWord (UInt32.ofNat (bits / 4294967296)) ++ Bytes.ofWord (UInt32.ofNat bits)

/-- The blocks of 64 bytes of a padded message. -/
def blocks (message : Bytes) : List Bytes :=
  (List.range (message.length / 64)).map fun i => (message.drop (64 * i)).take 64

/-- The words of the state as bytes. -/
def State.digest (s : State) : Block 32 :=
  ⟨Bytes.ofWord s.a ++ Bytes.ofWord s.b ++ Bytes.ofWord s.c ++ Bytes.ofWord s.d ++
    Bytes.ofWord s.e ++ Bytes.ofWord s.f ++ Bytes.ofWord s.g ++ Bytes.ofWord s.h, by simp⟩

/-- The digest of a message. -/
def hash (message : Bytes) : Block 32 :=
  ((blocks (padded message)).foldl State.absorb State.start).digest

/-- The keyed hash of RFC 2104, for keys of any length. -/
def keyed (key message : Bytes) : Block 32 :=
  let short := if key.length ≤ 64 then key else (hash key).1
  let full := short ++ List.replicate (64 - short.length) 0
  hash (full.map (· ^^^ 0x5c) ++ (hash (full.map (· ^^^ 0x36) ++ message)).1)

end SecureInbox.Sha256
