import Cohort.Message.Basic

/-! Messages as the schemas know them, and the numbers of their kinds: an older schema changes the
members that a message names and nothing else of it, and every message that the service or an
application makes has a number of its own. -/

namespace Cohort

/-- Every member that a view names, replaced. -/
def View.mapMembers (f : Member → Member) (view : View) : View where
  id := view.id
  creator := f view.creator
  members := view.members.map f
  shutdown := view.shutdown.map f
  crashed := view.crashed.map f

/-- Every member that a payload names, replaced. -/
def Payload.mapMembers (f : Member → Member) : Payload → Payload
  | .handshake identity => .handshake (f identity)
  | .heartbeatRequest request target => .heartbeatRequest request (f target)
  | .heartbeatResponse request => .heartbeatResponse request
  | .suspect suspects => .suspect (suspects.map fun s => ⟨f s.suspect, s.reason⟩)
  | .finalCheckRequest request target => .finalCheckRequest request (f target)
  | .finalCheckResponse request => .finalCheckResponse request
  | .joinRequest member => .joinRequest (f member)
  | .joinResponse (.accepted view) => .joinResponse (.accepted (view.mapMembers f))
  | .joinResponse (.redirect coordinator) => .joinResponse (.redirect (f coordinator))
  | .joinResponse (.rejected reason) => .joinResponse (.rejected reason)
  | .leaveRequest member reason => .leaveRequest (f member) reason
  | .removeMember member reason => .removeMember (f member) reason
  | .installView view => .installView (view.mapMembers f)
  | .application type data => .application type data

/-- Every member that a message names, replaced: sender, recipient, and all in the payload. -/
def Message.mapMembers (f : Member → Member) (message : Message) : Message where
  sender := message.sender.map f
  recipient := message.recipient.map f
  payload := message.payload.mapMembers f

theorem Payload.forVersion_eq (version : Version) (payload : Payload) :
    payload.forVersion version = payload.mapMembers (Member.forVersion version) := by
  cases payload with
  | joinResponse answer => cases answer <;> rfl
  | _ => rfl

theorem Message.forVersion_eq (version : Version) (message : Message) :
    message.forVersion version = message.mapMembers (Member.forVersion version) := by
  rw [forVersion, Payload.forVersion_eq]
  rfl

theorem Member.forVersion_current (m : Member) : m.forVersion .current = m := if_neg (by decide)

variable {f : Member → Member}

theorem View.mapMembers_of_fixed (fixed : ∀ m, f m = m) (view : View) : view.mapMembers f = view := by
  obtain rfl : f = fun m => m := funext fixed
  simp only [mapMembers, List.map_id']

theorem Payload.mapMembers_of_fixed (fixed : ∀ m, f m = m) (payload : Payload) :
    payload.mapMembers f = payload := by
  cases payload with
  | joinResponse answer => cases answer <;> simp only [mapMembers, View.mapMembers_of_fixed fixed, fixed]
  | suspect suspects => simp only [mapMembers, fixed, List.map_id']
  | _ => simp only [mapMembers, View.mapMembers_of_fixed fixed, fixed]

/-- The current schema knows all that a message says. -/
theorem Message.forVersion_current (message : Message) : message.forVersion .current = message := by
  have fixed := Member.forVersion_current
  have all : Member.forVersion .current = fun m => m := funext fixed
  rw [forVersion, Payload.forVersion_eq, Payload.mapMembers_of_fixed fixed, all, Option.map_id',
    Option.map_id']

theorem Payload.kind_mapMembers (f : Member → Member) (payload : Payload) :
    (payload.mapMembers f).kind = payload.kind := by
  cases payload with
  | joinResponse answer => cases answer <;> rfl
  | _ => rfl

theorem Message.kind_forVersion (version : Version) (message : Message) :
    (message.forVersion version).kind = message.kind := by
  rw [forVersion_eq]
  exact Payload.kind_mapMembers _ _

/-- A message as the service and its applications make it: of a protocol payload, or of an application's
type and bytes, in either case with any sender and any recipient. -/
inductive Message.Built : Message → Prop
  | protocol {sender recipient : Option Member} {payload : Payload}
      (own : payload.kind.isApplication = false) : Built { sender, recipient, payload }
  | application {sender recipient : Option Member} {type : UInt16} {data : List UInt8}
      {message : Message} (made : Message.application (some type) data = .ok message) :
      Built { message with sender, recipient }

namespace MessageKind

theorem toNat_number_application {type : UInt16} (numbered : type ≤ lastApplication) :
    (number (.application type)).toNat = 1024 + type.toNat := by
  have small : type.toNat ≤ 64511 := numbered
  rw [number, if_neg (UInt16.not_lt.mpr numbered), UInt16.toNat_add]
  exact Nat.mod_eq_of_lt (by change 1024 + type.toNat < 65536; omega)

theorem ofNumber?_of_le {n : UInt16} (large : applicationBase ≤ n) :
    ofNumber? n = some (.application (n - applicationBase)) := by
  have large' : 1024 ≤ n.toNat := large
  unfold ofNumber?
  split
  case h_12 => exact if_pos large
  all_goals exact absurd large' (by decide)

theorem ofNumber?_number {kind : MessageKind}
    (numbered : ∀ type, kind = .application type → type ≤ lastApplication) :
    ofNumber? kind.number = some kind := by
  cases kind with
  | application type =>
    have number := toNat_number_application (numbered type rfl)
    have large : applicationBase ≤ MessageKind.number (.application type) :=
      UInt16.le_iff_toNat_le.mpr (by rw [number]; exact Nat.le_add_right _ _)
    rw [ofNumber?_of_le large]
    congr 2
    apply UInt16.toNat.inj
    rw [UInt16.toNat_sub_of_le _ _ large, number]
    exact Nat.add_sub_cancel_left 1024 type.toNat
  | _ => rfl

/-- A number on the wire that stands for an application type stands for one within the bounds. -/
theorem numbered_of_ofNumber? {n : UInt16} {type : UInt16}
    (known : ofNumber? n = some (.application type)) : type ≤ lastApplication := by
  unfold ofNumber? at known
  split at known
  case h_12 =>
    split at known
    · rename_i large
      cases known
      have large : 1024 ≤ n.toNat := large
      have bound := n.toNat_lt
      rw [UInt16.le_iff_toNat_le, UInt16.toNat_sub_of_le _ _ (by assumption)]
      change n.toNat - 1024 ≤ 64511
      omega
    · cases known
  all_goals cases known

end MessageKind

end Cohort
