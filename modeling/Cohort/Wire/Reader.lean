import Cohort.Wire.Fault
import Cohort.View.Basic

/-!
Reading the written form. A reader takes one value off the front and leaves the rest. Words are
refused only when the input is too short for them; what a whole member must satisfy is checked
after all of its fields are read.
-/

namespace Cohort.Wire

/-- Takes a value off the front of some bytes. -/
abbrev Reader (α : Type) := StateT (List UInt8) (Except Fault) α

namespace Reader

def fail {α : Type} (fault : Fault) : Reader α := fun _ => .error fault

/-- The next `count` bytes. -/
def take (count : Nat) (fault : Fault) : Reader (List UInt8) := fun input =>
  if input.length < count then .error fault else .ok (input.take count, input.drop count)

/-- The number that bytes write, the lowest first. -/
def ofLittleEndian : List UInt8 → Nat
  | [] => 0
  | b :: rest => b.toNat + 0x100 * ofLittleEndian rest

def ofBigEndian (bytes : List UInt8) : Nat := ofLittleEndian bytes.reverse

def fixed (width : Nat) : Reader (List UInt8) := take width .truncated

def word8 : Reader UInt8 := fun input =>
  match input with
  | b :: rest => .ok (b, rest)
  | [] => .error .truncated

def word16 : Reader UInt16 := do return (ofLittleEndian (← fixed 2)).toUInt16

def word32 : Reader UInt32 := do return (ofLittleEndian (← fixed 4)).toUInt32

def word64 : Reader UInt64 := do return (ofLittleEndian (← fixed 8)).toUInt64

def signed32 : Reader Int32 := do return (← word32).toInt32

def length : Reader Nat := do return ofLittleEndian (← fixed 8)

def bool : Reader Bool := do
  let byte ← word8
  if byte = 0 then return false
  else if byte = 1 then return true
  else fail (.notBool byte)

def text : Reader String := do
  let count ← length
  let bytes ← take count .truncatedText
  match Text.decode bytes with
  | .ok s => return s
  | .error fault => fail (.notText fault)

def option {α : Type} (read : Reader α) : Reader (Option α) := do
  let byte ← word8
  if byte = 0 then return none
  else if byte = 1 then return some (← read)
  else fail (.notOption byte)

/-- `count` values one after the other. -/
def times {α : Type} (read : Reader α) : Nat → Reader (List α)
  | 0 => return []
  | count + 1 => do
    let value ← read
    return value :: (← times read count)

def list {α : Type} (read : Reader α) : Reader (List α) := do times read (← length)

/-- Byte data, refused like a list of bytes. -/
def bytes : Reader (List UInt8) := do
  let count ← length
  take count .truncated

def ip : Reader Net.Ip := do
  let tag ← word32
  if tag = 0 then return .v4 (ofBigEndian (← fixed 4)).toUInt32
  else if tag = 1 then
    let high ← fixed 8
    let low ← fixed 8
    return .v6 (ofBigEndian high).toUInt64 (ofBigEndian low).toUInt64
  else fail (.unknownAddress tag)

def instanceTag : Reader InstanceTag := do
  let tag ← option do
    let high ← word64
    let low ← word64
    return InstanceTag.mk high low
  return tag.getD .zero

/-- The fields of a member as a draft, with the ordinal of its schema. -/
def draft : Reader (UInt16 × Draft) := do
  let host ← ip
  let hostName ← text
  let membershipPort ← word16
  let directPort ← word16
  let processId ← word32
  let kindCode ← word8
  let viewId ← signed32
  let ordinal ← word16
  let name ← text
  let groups ← list text
  let durableId ← option text
  let durableTimeout ← word32
  let preferred ← bool
  let partitionDetection ← bool
  let weight ← word8
  let tag ← instanceTag
  let provisional ← bool
  let uniqueTag ← option text
  return (ordinal,
    { host := some host
      hostName := some hostName
      membershipPort := membershipPort
      directPort := directPort
      processId := processId
      kindCode := some kindCode
      viewId := viewId
      name := some name
      groups := groups
      durableId := durableId
      durableTimeout := durableTimeout
      preferred := some preferred
      partitionDetection := partitionDetection
      weight := some weight
      instanceTag := tag
      provisional := provisional
      uniqueTag := uniqueTag })

/-- The schema is checked first, then the draft like any other. -/
def checkMember (ordinal : UInt16) (draft : Draft) : Except MemberFault Member := do
  let version ← Version.ofOrdinal ordinal
  { draft with version := version }.build

def member : Reader Member := do
  let (ordinal, draft) ← draft
  match checkMember ordinal draft with
  | .ok m => return m
  | .error fault => fail (.member fault)

def view : Reader View := do
  let id ← signed32
  let creator ← member
  let members ← list member
  let shutdown ← list member
  let crashed ← list member
  return { id, creator, members, shutdown, crashed }

/-- Reads one value and ignores what follows it. -/
def parse {α : Type} (read : Reader α) (input : List UInt8) : Except Fault α :=
  match read input with
  | .ok (value, _) => .ok value
  | .error fault => .error fault

end Reader

end Cohort.Wire
