import Cohort.Error
import Cohort.Span

/-!
The configuration of a member, what it must satisfy, and the defaults.
-/

namespace Cohort

structure Security where
  /-- Shared by all members; session keys come from it. -/
  secret : List UInt8
  handshakeTimeout : Span := .ofMillis 5000
  idleTimeout : Span := .ofMillis 300000
  deriving DecidableEq, Repr

/-- What may be shown of the protection: not the secret. -/
def Security.text (security : Security) : String :=
  "SecurityConfig \x7b pre_shared_secret: \"<redacted>\", handshake_timeout: "
    ++ security.handshakeTimeout.text ++ ", session_idle_timeout: "
    ++ security.idleTimeout.text ++ " \x7d"

structure Config where
  /-- The name shown for the member; that of the host if none is given. -/
  name : Option String := none
  bind : Net.Ip := .localhost
  membershipPort : UInt16 := 0
  directPort : UInt16 := 0
  roles : String := ""
  groups : String := ""
  kindCode : Option UInt8 := none
  kindRequired : Bool := false
  weight : Option UInt8 := none
  preferred : Option Bool := none
  durableId : Option String := none
  durableTimeout : UInt32 := 0
  heartbeatInterval : Span := .ofMillis 1000
  /-- How long a heartbeat may go unanswered. -/
  memberTimeout : Span := .ofMillis 2000
  finalCheckTimeout : Span := .ofMillis 3000
  /-- How many corroborated suspicions bring a final check. -/
  suspectThreshold : UInt32 := 2
  joinTimeout : Span := .ofMillis 5000
  shutdownTimeout : Span := .ofMillis 5000
  schedulerTick : Span := .ofMillis 10
  partitionDetection : Bool := true
  lossThreshold : UInt8 := 51
  /-- Direct channel endpoints of members to join through. -/
  locators : List Net.Endpoint := []
  multicastEnabled : Bool := false
  multicastGroup : Option Net.Endpoint := none
  /-- Without the direct channel a member stands alone. -/
  channelDisabled : Bool := false
  maxDatagram : Nat := 1400
  security : Option Security := none
  deriving DecidableEq, Repr

namespace Config

def encrypted (config : Config) : Bool := config.security.isSome

def displayName (config : Config) : String := config.name.getD ""

/-- The first of the settings that must not be zero and is. -/
def zeroSetting? (config : Config) : Option String :=
  let settings := [
    ("heartbeat interval", config.heartbeatInterval),
    ("member timeout", config.memberTimeout),
    ("final check timeout", config.finalCheckTimeout),
    ("join timeout", config.joinTimeout),
    ("shutdown timeout", config.shutdownTimeout),
    ("scheduler tick", config.schedulerTick)]
  (settings.find? (·.2.isZero)).map (·.1)

def multicastFault? (config : Config) : Option ConfigFault :=
  if !config.multicastEnabled then none
  else match config.multicastGroup with
    | none => some .noMulticastGroup
    | some group => if group.ip.isMulticast then none else some (.notMulticast group)

def kindFault? (config : Config) : Option ConfigFault :=
  match config.kindCode with
  | some code => if (Kind.ofCode? code).isNone then some (.unknownKind code) else none
  | none => none

def securityFault? (config : Config) : Option ConfigFault :=
  match config.security with
  | none => none
  | some security =>
    if security.secret.isEmpty then some .emptySecret
    else if security.handshakeTimeout.isZero then some (.zero "handshake timeout")
    else if security.idleTimeout.isZero then some (.zero "session idle timeout")
    else none

def fault? (config : Config) : Option ConfigFault :=
  let zero := config.zeroSetting?.map ConfigFault.zero
  let suspicions := if config.suspectThreshold = 0 then some .noSuspicions else none
  let loss := if config.lossThreshold = 0 ∨ config.lossThreshold > 100 then some .lossThreshold
    else none
  let locators := if config.channelDisabled && !config.locators.isEmpty
    then some .locatorsWithoutChannel else none
  let size := if config.maxDatagram = 0 ∨ config.maxDatagram > 65535 then some .datagramSize
    else none
  zero <|> suspicions <|> loss <|> config.multicastFault? <|> locators <|> size
    <|> config.kindFault? <|> config.securityFault?

/-- The configuration with a name, if nothing is wrong with it. -/
def validate (config : Config) (hostName : String) : Except ConfigFault Config :=
  match config.fault? with
  | some fault => .error fault
  | none => .ok { config with name := some (config.name.getD hostName) }

end Config

end Cohort
