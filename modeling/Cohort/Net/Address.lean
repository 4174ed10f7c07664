/-!
Internet addresses and endpoints: their order, classes, and text in both directions.

IPv6 text is canonical: lower case, the longest and then leftmost run of at least two zero groups
shortened, and the dotted form for IPv4-mapped addresses only.
-/

namespace Cohort.Net

/-- An address of either family, as one number of 32 bits or two of 64. -/
inductive Ip where
  | v4 (bits : UInt32)
  | v6 (high low : UInt64)
  deriving DecidableEq, Repr, Inhabited

namespace Ip

def ofOctets (a b c d : Nat) : Ip :=
  .v4 (a * 0x1000000 + b * 0x10000 + c * 0x100 + d).toUInt32

/-- An IPv6 address from its eight groups. -/
def ofGroups (groups : List Nat) : Ip :=
  let number (gs : List Nat) : UInt64 := (gs.foldl (fun n g => n * 0x10000 + g) 0).toUInt64
  .v6 (number (groups.take 4)) (number ((groups.drop 4).take 4))

def localhost : Ip := ofOctets 127 0 0 1

def isV4 : Ip → Bool
  | .v4 _ => true
  | .v6 .. => false

/-- The wildcard address of a family. -/
def isUnspecified : Ip → Bool
  | .v4 bits => bits == 0
  | .v6 high low => high == 0 && low == 0

def isLoopback : Ip → Bool
  | .v4 bits => bits >>> 24 == 127
  | .v6 high low => high == 0 && low == 1

def isMulticast : Ip → Bool
  | .v4 bits => bits >>> 28 == 14
  | .v6 high _ => high >>> 56 == 0xFF

/-- IPv4 addresses come before IPv6 addresses; within a family the number decides. -/
def compare : Ip → Ip → Ordering
  | .v4 a, .v4 b => Ord.compare a b
  | .v4 _, .v6 .. => .lt
  | .v6 .., .v4 _ => .gt
  | .v6 a b, .v6 c d => (Ord.compare a c).then (Ord.compare b d)

instance : Ord Ip := ⟨compare⟩

/-- The last of the address' bytes. -/
def lastByte : Ip → UInt8
  | .v4 bits => bits.toUInt8
  | .v6 _ low => low.toUInt8

def octets (bits : UInt32) : List Nat :=
  let n := bits.toNat
  [n / 0x1000000, n / 0x10000 % 0x100, n / 0x100 % 0x100, n % 0x100]

def groups (high low : UInt64) : List Nat :=
  let split (n : Nat) := [n / 0x1000000000000, n / 0x100000000 % 0x10000, n / 0x10000 % 0x10000,
    n % 0x10000]
  split high.toNat ++ split low.toNat

def dotted (bits : UInt32) : String :=
  ".".intercalate ((octets bits).map toString)

def hex (n : Nat) : String := String.ofList (Nat.toDigits 16 n)

/-- Start and length of the longest run of zeros, the leftmost of the longest. -/
def longestZeros (groups : List Nat) : Nat × Nat :=
  let step (state : (Nat × Nat) × Nat × Nat) (g : Nat) : (Nat × Nat) × Nat × Nat :=
    let (best, index, run) := state
    if g = 0 then
      let run := run + 1
      (if run > best.2 then (index + 1 - run, run) else best, index + 1, run)
    else (best, index + 1, 0)
  (groups.foldl step ((0, 0), 0, 0)).1

def render6 (high low : UInt64) : String :=
  if high == 0 && low >>> 32 == 0xFFFF then "::ffff:" ++ dotted low.toUInt32
  else
    let gs := groups high low
    let (start, length) := longestZeros gs
    let join (part : List Nat) := ":".intercalate (part.map hex)
    if length > 1 then join (gs.take start) ++ "::" ++ join (gs.drop (start + length))
    else join gs

def render : Ip → String
  | .v4 bits => dotted bits
  | .v6 high low => render6 high low

instance : ToString Ip := ⟨render⟩

end Ip

/-! ### Reading -/

/-- Reads something off the front of a text and leaves the rest. -/
abbrev Scan (α : Type) := List Char → Option (α × List Char)

namespace Scan

def char (c : Char) : Scan Unit
  | d :: rest => if c = d then some ((), rest) else none
  | [] => none

def digit? (radix : Nat) (c : Char) : Option Nat :=
  let value :=
    if '0' ≤ c ∧ c ≤ '9' then some (c.toNat - '0'.toNat)
    else if 'a' ≤ c ∧ c ≤ 'f' then some (c.toNat - 'a'.toNat + 10)
    else if 'A' ≤ c ∧ c ≤ 'F' then some (c.toNat - 'A'.toNat + 10)
    else none
  value.filter (· < radix)

/-- A number of at least one and at most `width` digits below `bound`. -/
def number (radix : Nat) (width : Option Nat) (leadingZero : Bool) (bound : Nat) : Scan Nat := fun cs =>
  let digits := cs.takeWhile fun c => (digit? radix c).isSome
  let value := digits.foldl (fun n c => n * radix + (digit? radix c).getD 0) 0
  let tooLong := match width with
    | some width => digits.length > width
    | none => false
  if digits.isEmpty || tooLong || value ≥ bound then none
  else if !leadingZero && digits.length > 1 && digits.head? == some '0' then none
  else some (value, cs.drop digits.length)

def octet : Scan Nat := number 10 (some 3) false 0x100

def dottedQuad : Scan (Nat × Nat × Nat × Nat) := fun cs => do
  let (a, cs) ← octet cs
  let ((), cs) ← char '.' cs
  let (b, cs) ← octet cs
  let ((), cs) ← char '.' cs
  let (c, cs) ← octet cs
  let ((), cs) ← char '.' cs
  let (d, cs) ← octet cs
  return ((a, b, c, d), cs)

/-- `part`, after a colon unless it is the first of its list. -/
def afterColon {α : Type} (first : Bool) (part : Scan α) : Scan α := fun cs =>
  if first then part cs
  else match char ':' cs with
    | some ((), cs) => part cs
    | none => none

/-- Up to `limit` groups; a dotted quad may stand for the last two and ends the list. -/
def groups (first : Bool) : Nat → List Char → List Nat × Bool × List Char
  | 0, cs => ([], false, cs)
  | limit + 1, cs =>
    match (if limit > 0 then afterColon first dottedQuad cs else none) with
    | some ((a, b, c, d), cs) => ([a * 0x100 + b, c * 0x100 + d], true, cs)
    | none =>
      match afterColon first (number 16 (some 4) true 0x10000) cs with
      | none => ([], false, cs)
      | some (g, cs) =>
        let (gs, quad, cs) := groups false limit cs
        (g :: gs, quad, cs)

def v6 : Scan Ip := fun cs =>
  let (front, quad, cs) := groups true 8 cs
  if front.length = 8 then some (Ip.ofGroups front, cs)
  else if quad then none
  else do
    let ((), cs) ← char ':' cs
    let ((), cs) ← char ':' cs
    let (back, _, cs) := groups true (7 - front.length) cs
    let zeros := List.replicate (8 - front.length - back.length) 0
    return (Ip.ofGroups (front ++ zeros ++ back), cs)

def v4 : Scan Ip := fun cs => do
  let ((a, b, c, d), cs) ← dottedQuad cs
  return (Ip.ofOctets a b c d, cs)

/-- The whole text, or nothing. -/
def whole {α : Type} (scan : Scan α) (text : String) : Option α :=
  match scan text.toList with
  | some (value, []) => some value
  | _ => none

end Scan

def Ip.parse? (text : String) : Option Ip :=
  Scan.whole (fun cs => Scan.v4 cs <|> Scan.v6 cs) text

/-- The message of a text that is no address. -/
def Ip.syntaxFault : String := "invalid IP address syntax"

/-- An address with a port. One of version 6 may lie in a zone, such as a network interface; zone 0 is
none in particular. -/
structure Endpoint where
  ip : Ip
  port : UInt16
  zone : UInt32 := 0
  deriving DecidableEq, Repr, Inhabited

namespace Endpoint

def compare (a b : Endpoint) : Ordering :=
  ((a.ip.compare b.ip).then (Ord.compare a.port b.port)).then (Ord.compare a.zone b.zone)

instance : Ord Endpoint := ⟨compare⟩

def render (endpoint : Endpoint) : String :=
  match endpoint.ip with
  | .v4 _ => endpoint.ip.render ++ ":" ++ toString endpoint.port
  | .v6 .. =>
    let zone := if endpoint.zone = 0 then "" else "%" ++ toString endpoint.zone
    "[" ++ endpoint.ip.render ++ zone ++ "]:" ++ toString endpoint.port

instance : ToString Endpoint := ⟨render⟩

/-- A zone after a percent sign, if there is one. -/
def scanZone (cs : List Char) : UInt32 × List Char :=
  let zone := do
    let ((), cs) ← Scan.char '%' cs
    Scan.number 10 none true UInt32.size cs
  match zone with
  | some (zone, rest) => (zone.toUInt32, rest)
  | none => (0, cs)

def scan : Scan Endpoint := fun cs => do
  let plain : Option (Ip × UInt32 × List Char) := do
    let (ip, cs) ← Scan.v4 cs
    return (ip, 0, cs)
  let bracketed : Option (Ip × UInt32 × List Char) := do
    let ((), cs) ← Scan.char '[' cs
    let (ip, cs) ← Scan.v6 cs
    let (zone, cs) := scanZone cs
    let ((), cs) ← Scan.char ']' cs
    return (ip, zone, cs)
  let (ip, zone, cs) ← plain <|> bracketed
  let ((), cs) ← Scan.char ':' cs
  let (port, cs) ← Scan.number 10 none true 0x10000 cs
  return ({ ip := ip, port := port.toUInt16, zone := zone }, cs)

def parse? (text : String) : Option Endpoint := Scan.whole scan text

end Endpoint

end Cohort.Net
