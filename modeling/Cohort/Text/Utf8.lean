/-!
UTF-8: the bytes of a text, and the text of bytes with the exact place of the first fault.
-/

namespace Cohort.Text

/-- Where bytes stop being text: the first byte of the broken character, and how many bytes of it
are wrong. An input that ends inside a character has no such length. -/
structure Utf8Fault where
  start : Nat
  length : Option Nat
  deriving DecidableEq, Repr

namespace Utf8Fault

def message (fault : Utf8Fault) : String :=
  match fault.length with
  | some length =>
    s!"invalid utf-8 sequence of {length} bytes from index {fault.start}"
  | none => s!"incomplete utf-8 byte sequence from index {fault.start}"

end Utf8Fault

/-- The one to four bytes of a character. -/
def encodeChar (c : Char) : List UInt8 :=
  let n := c.toNat
  if n < 0x80 then [n.toUInt8]
  else if n < 0x800 then [(0xC0 + n / 0x40).toUInt8, (0x80 + n % 0x40).toUInt8]
  else if n < 0x10000 then
    [(0xE0 + n / 0x1000).toUInt8, (0x80 + n / 0x40 % 0x40).toUInt8, (0x80 + n % 0x40).toUInt8]
  else
    [(0xF0 + n / 0x40000).toUInt8, (0x80 + n / 0x1000 % 0x40).toUInt8,
      (0x80 + n / 0x40 % 0x40).toUInt8, (0x80 + n % 0x40).toUInt8]

def encode (text : String) : List UInt8 :=
  text.toList.flatMap encodeChar

/-- A continuation byte, with the range that its lead byte leaves for it. -/
def continues (low high : Nat) (byte : UInt8) : Bool :=
  low ≤ byte.toNat && byte.toNat ≤ high

/-- What may follow a lead byte: nothing, or one to three continuation bytes of which the first
lies in the given range. Overlong forms, surrogates and values above the last code point are ruled
out by that range. -/
inductive Lead where
  | single
  | pair
  | triple (low high : Nat)
  | quadruple (low high : Nat)
  | none
  deriving DecidableEq, Repr

def Lead.of (byte : UInt8) : Lead :=
  let b := byte.toNat
  if b < 0x80 then .single
  else if b < 0xC2 then .none
  else if b < 0xE0 then .pair
  else if b = 0xE0 then .triple 0xA0 0xBF
  else if b = 0xED then .triple 0x80 0x9F
  else if b < 0xF0 then .triple 0x80 0xBF
  else if b = 0xF0 then .quadruple 0x90 0xBF
  else if b < 0xF4 then .quadruple 0x80 0xBF
  else if b = 0xF4 then .quadruple 0x80 0x8F
  else .none

/-- Decodes from byte `start` on; the first fault ends it. -/
def decodeFrom (start : Nat) : List UInt8 → Except Utf8Fault (List Char)
  | [] => .ok []
  | a :: rest =>
    match Lead.of a with
    | .single => (Char.ofNat a.toNat :: ·) <$> decodeFrom (start + 1) rest
    | .none => .error ⟨start, some 1⟩
    | .pair =>
      match rest with
      | [] => .error ⟨start, none⟩
      | b :: rest =>
        if continues 0x80 0xBF b then
          (Char.ofNat ((a.toNat - 0xC0) * 0x40 + (b.toNat - 0x80)) :: ·)
            <$> decodeFrom (start + 2) rest
        else .error ⟨start, some 1⟩
    | .triple low high =>
      match rest with
      | [] => .error ⟨start, none⟩
      | [b] => .error ⟨start, if continues low high b then none else some 1⟩
      | b :: c :: rest =>
        if !continues low high b then .error ⟨start, some 1⟩
        else if !continues 0x80 0xBF c then .error ⟨start, some 2⟩
        else
          (Char.ofNat ((a.toNat - 0xE0) * 0x1000 + (b.toNat - 0x80) * 0x40 + (c.toNat - 0x80)) :: ·)
            <$> decodeFrom (start + 3) rest
    | .quadruple low high =>
      match rest with
      | [] => .error ⟨start, none⟩
      | [b] => .error ⟨start, if continues low high b then none else some 1⟩
      | [b, c] =>
        .error ⟨start,
          if !continues low high b then some 1
          else if !continues 0x80 0xBF c then some 2 else none⟩
      | b :: c :: d :: rest =>
        if !continues low high b then .error ⟨start, some 1⟩
        else if !continues 0x80 0xBF c then .error ⟨start, some 2⟩
        else if !continues 0x80 0xBF d then .error ⟨start, some 3⟩
        else
          (Char.ofNat ((a.toNat - 0xF0) * 0x40000 + (b.toNat - 0x80) * 0x1000
              + (c.toNat - 0x80) * 0x40 + (d.toNat - 0x80)) :: ·)
            <$> decodeFrom (start + 4) rest

def decode (bytes : List UInt8) : Except Utf8Fault String :=
  String.ofList <$> decodeFrom 0 bytes

end Cohort.Text
