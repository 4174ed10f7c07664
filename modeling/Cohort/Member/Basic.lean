import Cohort.Net.Address

/-!
Members of a group. A member is one incarnation of a process: its identity is its address, its two
ports, its instance tag and its unique tag, and everything else describes it. Views, reports and
removals compare members by identity, so a description learnt early stands for the complete one
that replaces it later.
-/

namespace Cohort

/-- Versions of the wire schema, in the order in which they came. -/
inductive Version where
  | v1
  | v2
  deriving DecidableEq, Repr, Inhabited

namespace Version

def current : Version := .v2

def ordinal : Version → UInt16
  | .v1 => 1
  | .v2 => 2

def ofOrdinal? (ordinal : UInt16) : Option Version :=
  if ordinal = 1 then some .v1 else if ordinal = 2 then some .v2 else none

def text (version : Version) : String := "V" ++ toString version.ordinal

instance : LE Version := ⟨fun a b => a.ordinal ≤ b.ordinal⟩

instance : LT Version := ⟨fun a b => a.ordinal < b.ordinal⟩

instance (a b : Version) : Decidable (a ≤ b) := inferInstanceAs (Decidable (a.ordinal ≤ b.ordinal))

instance (a b : Version) : Decidable (a < b) := inferInstanceAs (Decidable (a.ordinal < b.ordinal))

/-- The schema that both of two sides understand. -/
def common (a b : Version) : Version := if a ≤ b then a else b

end Version

/-- What a process is in its group. -/
inductive Kind where
  | normal
  | locator
  | adminOnly
  | loner
  deriving DecidableEq, Repr, Inhabited

namespace Kind

def code : Kind → UInt8
  | .normal => 10
  | .locator => 11
  | .adminOnly => 12
  | .loner => 13

def ofCode? (code : UInt8) : Option Kind :=
  if code = 10 then some .normal
  else if code = 11 then some .locator
  else if code = 12 then some .adminOnly
  else if code = 13 then some .loner
  else none

/-- Admin-only and loner processes never coordinate a view. -/
def mayCoordinate : Kind → Bool
  | .normal | .locator => true
  | .adminOnly | .loner => false

/-- The weight of a member whose weight is not set. -/
def defaultWeight : Kind → UInt8
  | .locator => 3
  | _ => 10

theorem ofCode?_code (kind : Kind) : ofCode? kind.code = some kind := by
  cases kind <;> rfl

end Kind

/-- A random tag of 128 bits; both halves zero when there is none. -/
structure InstanceTag where
  high : UInt64
  low : UInt64
  deriving DecidableEq, Repr, Inhabited

namespace InstanceTag

def zero : InstanceTag := ⟨0, 0⟩

def isZero (tag : InstanceTag) : Bool := tag.high == 0 && tag.low == 0

def hexDigits (width n : Nat) : List Char :=
  let digits := Nat.toDigits 16 n
  List.replicate (width - digits.length) '0' ++ digits

/-- Five groups of hexadecimal digits with dashes between them. -/
def text (tag : InstanceTag) : String :=
  let digits := hexDigits 16 tag.high.toNat ++ hexDigits 16 tag.low.toNat
  let cut (start length : Nat) := String.ofList ((digits.drop start).take length)
  "-".intercalate [cut 0 8, cut 8 4, cut 12 4, cut 16 4, cut 20 12]

/-- The version number that the tag's layout states. -/
def layoutVersion (tag : InstanceTag) : Nat := tag.high.toNat / 0x1000 % 0x10

def compare (a b : InstanceTag) : Ordering :=
  (Ord.compare a.high b.high).then (Ord.compare a.low b.low)

end InstanceTag

/-- What tells one incarnation of a process from every other. -/
structure Identity where
  host : Net.Ip
  membershipPort : UInt16
  directPort : UInt16
  instanceTag : InstanceTag
  uniqueTag : Option String
  deriving DecidableEq, Repr, Inhabited

namespace Identity

def compareTags : Option String → Option String → Ordering
  | none, none => .eq
  | none, some _ => .lt
  | some _, none => .gt
  | some a, some b => Ord.compare a b

/-- Lexicographic, in the order of the fields; no unique tag comes before any. -/
def compare (a b : Identity) : Ordering :=
  (a.host.compare b.host).then <|
  (Ord.compare a.membershipPort b.membershipPort).then <|
  (Ord.compare a.directPort b.directPort).then <|
  (a.instanceTag.compare b.instanceTag).then <|
  compareTags a.uniqueTag b.uniqueTag

end Identity

/-- A member with everything that is known of it. -/
structure Member where
  host : Net.Ip
  hostName : String
  membershipPort : UInt16
  directPort : UInt16
  processId : UInt32
  kind : Kind
  /-- The view that took the member in, negative before that. -/
  viewId : Int32
  version : Version
  name : String
  groups : List String
  durableId : Option String
  durableTimeout : UInt32
  /-- Whether the member goes before others when a coordinator is chosen. -/
  preferred : Bool
  partitionDetection : Bool
  weight : UInt8
  instanceTag : InstanceTag
  /-- Whether the description still lacks what only a view settles. -/
  provisional : Bool
  uniqueTag : Option String
  preferred_may : preferred = true → kind.mayCoordinate = true
  deriving DecidableEq, Repr

namespace Member

def identity (m : Member) : Identity where
  host := m.host
  membershipPort := m.membershipPort
  directPort := m.directPort
  instanceTag := m.instanceTag
  uniqueTag := m.uniqueTag

/-- Whether two descriptions are of one incarnation. -/
def same (a b : Member) : Bool := a.identity == b.identity

/-- Whether a list describes this incarnation. -/
def isIn (m : Member) (members : List Member) : Bool := members.any m.same

def compare (a b : Member) : Ordering := a.identity.compare b.identity

/-- Where the member receives datagrams. -/
def membershipAddress (m : Member) : Net.Endpoint :=
  { ip := m.host, port := m.membershipPort }

/-- Where the member accepts connections, if it does. -/
def directAddress? (m : Member) : Option Net.Endpoint :=
  if m.directPort = 0 then none else some { ip := m.host, port := m.directPort }

def mayCoordinate (m : Member) : Bool := m.kind.mayCoordinate

/-- The member as the view `id` took it in. -/
def withViewId (m : Member) (id : Int32) : Member := { m with viewId := id, provisional := false }

/-- The member as a peer of schema `version` knows it: the older schema has neither tag, so the
result is a different identity at the same endpoints. -/
def forVersion (version : Version) (m : Member) : Member :=
  if version < .v2 then { m with instanceTag := .zero, uniqueTag := none } else m

/-- Host, name, process id and kind, then the admitting view if there is one, then the port. -/
def text (m : Member) : String :=
  let view := if m.viewId < 0 then "" else "<v" ++ toString m.viewId ++ ">"
  m.host.render ++ "(" ++ m.name ++ ":" ++ toString m.processId ++ ":" ++ toString m.kind.code
    ++ ")" ++ view ++ ":" ++ toString m.membershipPort

/-- The text with a mark on provisional descriptions. -/
def detail (m : Member) : String :=
  if m.provisional then m.text ++ "(partial)" else m.text

instance : ToString Member := ⟨text⟩

end Member

end Cohort
