import Cohort.Crypto.Gcm
import Cohort.Crypto.Sha256
import Cohort.Text.Utf8
import Cohort.Wire.Reader
import Cohort.Wire.Writer

/-!
Records of sessions, as datagrams carry them, and the cryptography that they rest on.

    client hello   1, client's random bytes (32)
    server hello   2, client's random bytes (32), server's (32), tag (16)
    application    4, sequence number (8), body, tag (16)
    close          5, the closing side's role, tag (16)
    renegotiate    6
-/

namespace Cohort

/-- The two ends of a session: who opened it, and who answered. -/
inductive Role where
  | client
  | server
  deriving DecidableEq, Repr

namespace Role

def byte : Role → UInt8
  | .client => 0
  | .server => 1

def ofByte? : UInt8 → Option Role
  | 0 => some .client
  | 1 => some .server
  | _ => none

def opposite : Role → Role
  | .client => .server
  | .server => .client

end Role

/-- What sessions need of cryptography: a key from a secret and two random values, and authenticated
encryption under it. -/
structure Suite (Key : Type) where
  derive (secret clientRandom serverRandom : List UInt8) : Key
  /-- The encrypted body with its tag. The header is authenticated with it. -/
  encrypt (key : Key) (nonce header body : List UInt8) : List UInt8
  /-- The body, if it was encrypted under this key and nonce with this header. -/
  decrypt (key : Key) (nonce header sealed : List UInt8) : Option (List UInt8)

/-- What tells this use of the shared secret from any other. -/
def Suite.domain : List UInt8 := Text.encode "gms-datagram-session v1"

/-- What a session's key is the hash of. -/
def Suite.keyInput (secret clientRandom serverRandom : List UInt8) : List UInt8 :=
  secret ++ clientRandom ++ serverRandom ++ domain

/-- The bytes of a session's key. -/
def Suite.keyBytes (secret clientRandom serverRandom : List UInt8) : List UInt8 :=
  Sha256.digest (keyInput secret clientRandom serverRandom)

/-- Keys by SHA-256, encryption by AES in Galois counter mode. -/
def Suite.standard : Suite Gcm.Key where
  derive secret clientRandom serverRandom :=
    .ofBytes (keyBytes secret clientRandom serverRandom)
  encrypt := Gcm.encrypt
  decrypt := Gcm.decrypt

namespace Record

def clientHello : UInt8 := 1
def serverHello : UInt8 := 2
def application : UInt8 := 4
def close : UInt8 := 5
def renegotiate : UInt8 := 6

def randomLength : Nat := 32
def tagLength : Nat := 16
def applicationHeaderLength : Nat := 9
def clientHelloLength : Nat := 1 + randomLength
def serverHelloHeaderLength : Nat := 1 + 2 * randomLength
def closeHeaderLength : Nat := 2

/-- By how much an application record is longer than its body. -/
def overhead : Nat := applicationHeaderLength + tagLength

/-- Nonces differ by direction and sequence number. -/
def nonce (direction : UInt8) (number : UInt64) : List UInt8 :=
  direction :: 0 :: 0 :: 0 :: Wire.bigEndian 8 number.toNat

def applicationNonce (number : UInt64) : List UInt8 := nonce 0 number

def helloNonce : List UInt8 := nonce 1 0

/-- The nonce of the close record of one side. -/
def closeNonce (sender : Role) : List UInt8 := nonce (2 + sender.byte) 0

def applicationHeader (number : UInt64) : List UInt8 :=
  application :: Wire.bigEndian 8 number.toNat

def closeHeader (sender : Role) : List UInt8 := [close, sender.byte]

def serverHelloHeader (clientRandom serverRandom : List UInt8) : List UInt8 :=
  serverHello :: clientRandom ++ serverRandom

/-- The server's proof that it holds the key. -/
def serverHelloOf {Key : Type} (suite : Suite Key) (key : Key)
    (clientRandom serverRandom : List UInt8) : List UInt8 :=
  let header := serverHelloHeader clientRandom serverRandom
  header ++ suite.encrypt key helloNonce header []

end Record

end Cohort
