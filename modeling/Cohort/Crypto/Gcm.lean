import Cohort.Crypto.Aes

/-!
Authenticated encryption in Galois counter mode, over the block cipher with keys of 256 bits. The
header is authenticated with the body and not encrypted; the tag of sixteen bytes stands behind the
body.
-/

namespace Cohort.Gcm

open Aes (Block)

structure Key where
  cipher : Aes.Key
  point : UInt64 × UInt64
  deriving DecidableEq, Repr

def halves (b : Block) : UInt64 × UInt64 :=
  ((b.c0.toUInt64 <<< 32) ||| b.c1.toUInt64, (b.c2.toUInt64 <<< 32) ||| b.c3.toUInt64)

def ofHalves (h : UInt64 × UInt64) : Block :=
  ⟨(h.1 >>> 32).toUInt32, h.1.toUInt32, (h.2 >>> 32).toUInt32, h.2.toUInt32⟩

def Key.ofBytes (bytes : List UInt8) : Key :=
  let cipher := Aes.Key.ofBytes bytes
  ⟨cipher, halves (Aes.encrypt cipher ⟨0, 0, 0, 0⟩)⟩

/-- Goes on with a product over the bits of one half, the highest first. The product is kept in the
first two words, the factor still to be added in the other two. -/
def multiplyHalf (bits : UInt64) (steps : Nat) (z0 z1 v0 v1 : UInt64) :
    UInt64 × UInt64 × UInt64 × UInt64 :=
  match steps with
  | 0 => (z0, z1, v0, v1)
  | n + 1 =>
    let set := (bits >>> n.toUInt64) &&& 1 = 1
    let z0 := if set then z0 ^^^ v0 else z0
    let z1 := if set then z1 ^^^ v1 else z1
    let odd := v1 &&& 1 = 1
    let w1 := (v1 >>> 1) ||| (v0 <<< 63)
    let w0 := v0 >>> 1
    multiplyHalf bits n z0 z1 (if odd then w0 ^^^ 0xe100000000000000 else w0) w1

def multiply (x y : UInt64 × UInt64) : UInt64 × UInt64 :=
  let (z0, z1, v0, v1) := multiplyHalf x.1 64 0 0 y.1 y.2
  let (z0, z1, _, _) := multiplyHalf x.2 64 z0 z1 v0 v1
  (z0, z1)

/-- Cuts bytes into blocks, the last one filled up with zeros. -/
def blocks : List UInt8 → List Block
  | [] => []
  | first :: rest => Block.ofBytes ((first :: rest).take 16) :: blocks (rest.drop 15)
termination_by data => data.length
decreasing_by simp only [List.length_drop, List.length_cons]; omega

/-- The polynomial with the blocks as coefficients, at the key's point. -/
def evaluate (point : UInt64 × UInt64) (data : List Block) : UInt64 × UInt64 :=
  data.foldl (fun y b =>
    let (b0, b1) := halves b
    multiply (y.1 ^^^ b0, y.2 ^^^ b1) point) (0, 0)

/-- The block that a nonce of twelve bytes and a counter make. -/
def counterBlock (nonce : List UInt8) (counter : UInt32) : Block :=
  { Block.ofBytes nonce with c3 := counter }

/-- Adds the key stream to a text, from the given counter on; this both encrypts and decrypts. -/
def applyStream (key : Key) (nonce : List UInt8) (counter : UInt32) : List UInt8 → List UInt8
  | [] => []
  | first :: rest =>
    let stream := (Aes.encrypt key.cipher (counterBlock nonce counter)).bytes
    List.zipWith (· ^^^ ·) ((first :: rest).take 16) stream
      ++ applyStream key nonce (counter + 1) (rest.drop 15)
termination_by data => data.length
decreasing_by simp only [List.length_drop, List.length_cons]; omega

def tagLength : Nat := 16

def tag (key : Key) (nonce header encrypted : List UInt8) : List UInt8 :=
  let lengths := ofHalves ((header.length * 8).toUInt64, (encrypted.length * 8).toUInt64)
  let sum := ofHalves (evaluate key.point (blocks header ++ blocks encrypted ++ [lengths]))
  (sum.xor (Aes.encrypt key.cipher (counterBlock nonce 1))).bytes

/-- Encrypts a body and puts the tag behind it. -/
def encrypt (key : Key) (nonce header body : List UInt8) : List UInt8 :=
  let encrypted := applyStream key nonce 2 body
  encrypted ++ tag key nonce header encrypted

/-- The body, if tag, header and body belong together. -/
def decrypt (key : Key) (nonce header sealed : List UInt8) : Option (List UInt8) :=
  if sealed.length < tagLength then none
  else
    let encrypted := sealed.take (sealed.length - tagLength)
    if tag key nonce header encrypted = sealed.drop (sealed.length - tagLength)
    then some (applyStream key nonce 2 encrypted) else none

end Cohort.Gcm
