import Cohort.View.Basic
import Cohort.Text.Utf8

/-!
The written form of values: little-endian words of fixed width, lengths of 64 bits before texts and
lists, one byte before an optional value, and the fields of a structure one after the other.
-/

namespace Cohort.Wire

/-- The low `width` bytes of a number, the lowest first. -/
def littleEndian : Nat → Nat → List UInt8
  | 0, _ => []
  | width + 1, n => n.toUInt8 :: littleEndian width (n / 0x100)

/-- The low `width` bytes of a number, the highest first. -/
def bigEndian (width n : Nat) : List UInt8 := (littleEndian width n).reverse

def word8 (n : UInt8) : List UInt8 := [n]

def word16 (n : UInt16) : List UInt8 := littleEndian 2 n.toNat

def word32 (n : UInt32) : List UInt8 := littleEndian 4 n.toNat

def word64 (n : UInt64) : List UInt8 := littleEndian 8 n.toNat

def signed32 (n : Int32) : List UInt8 := word32 n.toUInt32

def length (n : Nat) : List UInt8 := littleEndian 8 n

def bool (b : Bool) : List UInt8 := [if b then 1 else 0]

def bytes (data : List UInt8) : List UInt8 := length data.length ++ data

def text (s : String) : List UInt8 := bytes (Text.encode s)

def option {α : Type} (write : α → List UInt8) : Option α → List UInt8
  | none => [0]
  | some value => 1 :: write value

def list {α : Type} (write : α → List UInt8) (values : List α) : List UInt8 :=
  length values.length ++ values.flatMap write

/-- An address is a tag of its family and its bytes, the highest first. -/
def ip : Net.Ip → List UInt8
  | .v4 bits => word32 0 ++ bigEndian 4 bits.toNat
  | .v6 high low => word32 1 ++ bigEndian 8 high.toNat ++ bigEndian 8 low.toNat

/-- An instance tag of zero is written as none. -/
def instanceTag (tag : InstanceTag) : List UInt8 :=
  option (fun tag : InstanceTag => word64 tag.high ++ word64 tag.low)
    (if tag.isZero then none else some tag)

def member (m : Member) : List UInt8 :=
  ip m.host ++ text m.hostName ++ word16 m.membershipPort ++ word16 m.directPort
    ++ word32 m.processId ++ word8 m.kind.code ++ signed32 m.viewId ++ word16 m.version.ordinal
    ++ text m.name ++ list text m.groups ++ option text m.durableId ++ word32 m.durableTimeout
    ++ bool m.preferred ++ bool m.partitionDetection ++ word8 m.weight
    ++ instanceTag m.instanceTag ++ bool m.provisional ++ option text m.uniqueTag

def view (v : View) : List UInt8 :=
  signed32 v.id ++ member v.creator ++ list member v.members ++ list member v.shutdown
    ++ list member v.crashed

end Cohort.Wire
