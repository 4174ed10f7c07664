import Cohort.Text.Utf8
import Cohort.Member.Draft

/-!
Why bytes are not a value of the wire format, and the words for it.
-/

namespace Cohort.Wire

inductive Fault where
  /-- The input ends inside a value of fixed width. -/
  | truncated
  /-- The input ends inside the bytes of a text. -/
  | truncatedText
  | notText (fault : Text.Utf8Fault)
  | notBool (byte : UInt8)
  | notOption (byte : UInt8)
  | unknownAddress (tag : UInt32)
  | unknownAnswer (tag : UInt32)
  | member (fault : MemberFault)
  deriving DecidableEq, Repr

def Fault.message : Fault → String
  | .truncated => "io error: unexpected end of file"
  | .truncatedText => "io error: "
  | .notText fault => "string is not valid utf8: " ++ fault.message
  | .notBool byte => s!"invalid u8 while decoding bool, expected 0 or 1, found {byte}"
  | .notOption byte => s!"tag for enum is not valid, found {byte}"
  | .unknownAddress tag => s!"invalid value: integer `{tag}`, expected `V4` or `V6`"
  | .unknownAnswer tag =>
    s!"invalid value: integer `{tag}`, expected variant index 0 <= i < 3"
  | .member fault => fault.message

end Cohort.Wire
