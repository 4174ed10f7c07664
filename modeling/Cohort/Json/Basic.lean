/-!
JSON values as scenarios and reports use them: members in any order, numbers whole or with a decimal
fraction.
-/

namespace Cohort

inductive Json where
  | null
  | bool (b : Bool)
  | num (n : Int)
  /-- A number of which `places` digits stand behind the point. -/
  | decimal (digits : Int) (places : Nat)
  | str (s : String)
  | arr (items : List Json)
  | obj (members : List (String × Json))
  deriving Inhabited

namespace Json

/-- A member that is there, null or not. -/
def find? (j : Json) (key : String) : Option Json :=
  match j with
  | .obj members => members.lookup key
  | _ => none

/-- A member that is there and not null. -/
def get? (j : Json) (key : String) : Option Json :=
  match j.find? key with
  | some .null => none
  | found => found

def has (j : Json) (key : String) : Bool := (j.find? key).isSome

def isNull : Json → Bool
  | .null => true
  | _ => false

mutual

/-- Whether two values are written alike. -/
def same : Json → Json → Bool
  | .null, .null => true
  | .bool a, .bool b => a == b
  | .num a, .num b => a == b
  | .decimal a m, .decimal b n => a == b && m == n
  | .str a, .str b => a == b
  | .arr a, .arr b => sameItems a b
  | .obj a, .obj b => sameMembers a b
  | _, _ => false

def sameItems : List Json → List Json → Bool
  | [], [] => true
  | a :: as, b :: bs => same a b && sameItems as bs
  | _, _ => false

def sameMembers : List (String × Json) → List (String × Json) → Bool
  | [], [] => true
  | (k, a) :: as, (l, b) :: bs => k == l && same a b && sameMembers as bs
  | _, _ => false

end

def nat (n : Nat) : Json := .num n

/-- A number of 64 bits is written as text. -/
def wide (n : Nat) : Json := .str (toString n)

def ofOption {α : Type} (f : α → Json) : Option α → Json
  | some a => f a
  | none => .null

def ofList {α : Type} (f : α → Json) (items : List α) : Json := .arr (items.map f)

def hexDigit (n : Nat) : Char := if n < 10 then Char.ofNat (48 + n) else Char.ofNat (87 + n)

/-- Bytes as lower case hexadecimal digits. -/
def hexText (data : List UInt8) : String :=
  String.ofList (data.flatMap fun b => [hexDigit (b.toNat / 16), hexDigit (b.toNat % 16)])

def hex (data : List UInt8) : Json := .str (hexText data)

def hexValue (c : Char) : Nat :=
  if c.isDigit then c.toNat - 48 else if c.toNat ≥ 97 then c.toNat - 87 else c.toNat - 55

def ofHex : List Char → List UInt8
  | a :: b :: rest => (hexValue a * 16 + hexValue b).toUInt8 :: ofHex rest
  | _ => []

end Json

end Cohort
