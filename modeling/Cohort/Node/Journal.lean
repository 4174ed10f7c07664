import Cohort.Node.Arguments
import Cohort.View.Basic

/-!
What a node tells whoever started it: how it is used, what is wrong with its command line, and what
happens in its group.
-/

namespace Cohort.Node

def usage : String :=
  "Usage: cohort [--name NAME] [--ip ADDRESS] [--port PORT] [--direct-port PORT]\n" ++
  "              [--locators ADDRESS:PORT,...] [--heartbeat-ms MILLISECONDS] [--secret SECRET]"

def versionLine : String := "cohort " ++ Version.current.text

namespace ArgumentFault

def text : ArgumentFault → String
  | .displayHelp => usage
  | .displayVersion => versionLine
  | .unknownArgument => "unexpected argument"
  | .invalidValue => "an option lacks its value"
  | .valueValidation => "an option's value is not valid"
  | .argumentConflict => "an option is given twice"
  | .tooManyValues => "an option takes no value"

/-- Whether the command line asked for the text, and for nothing else. -/
def isRequest : ArgumentFault → Bool
  | .displayHelp | .displayVersion => true
  | _ => false

end ArgumentFault

namespace Journal

def event : View.Event → String
  | .joined m => "Member " ++ m.text ++ " joined"
  | .left m => "Member " ++ m.text ++ " left"
  | .crashed m => "Member " ++ m.text ++ " crashed"
  | .coordinatorChanged _ current => "Coordinator is now " ++ current.text
  | .installed view =>
    "View " ++ toString view.id ++ " installed with " ++ toString view.size ++ " members"
  | .partitionDetected unreachable lost total =>
    "Possible network partition: " ++ toString unreachable.length ++ " members unreachable, weight " ++
      toString lost ++ "/" ++ toString total
  | .expelled view => "Removed from the group in view " ++ toString view.id

/-- The line for events that came faster than they were read. -/
def missed (count : Nat) : String := "Missed " ++ toString count ++ " view events"

def joined (self : Member) (view : Option View) : List String :=
  ("Local member: " ++ self.text) :: (view.toList.map fun v =>
    "Initial view " ++ toString v.id ++ ": " ++ ", ".intercalate (v.members.map (·.text)))

/-- The last line of a node that left its group. -/
def farewell : String := "Node stopped. Goodbye!"

end Journal

end Cohort.Node
