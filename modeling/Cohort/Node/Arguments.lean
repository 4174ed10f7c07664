import Cohort.Config

/-!
The command line of a node: long options with a value each, and requests for help or the version.
A value stands in the same word after an equals sign or is the next word; a word of its own is
looked at when the option after it is known, or at the end.
-/

namespace Cohort.Node

structure Arguments where
  name : String := "NODE_1"
  ip : Net.Ip := .localhost
  membershipPort : UInt16 := 7948
  directPort : UInt16 := 0
  locators : List Net.Endpoint := []
  heartbeatMillis : UInt64 := 1000
  secret : Option String := none
  deriving DecidableEq, Repr

inductive ArgumentFault where
  | displayHelp
  | displayVersion
  | unknownArgument
  /-- An option without its value. -/
  | invalidValue
  /-- A value that is not of the option's type. -/
  | valueValidation
  | argumentConflict
  /-- A value for something that takes none. -/
  | tooManyValues
  deriving DecidableEq, Repr

inductive Setting where
  | name
  | ip
  | membershipPort
  | directPort
  | locators
  | heartbeat
  | secret
  deriving DecidableEq, Repr

inductive Choice where
  | setting (setting : Setting)
  | help
  | version
  deriving DecidableEq, Repr

def longOption? (word : String) : Option Choice :=
  match word with
  | "name" => some (.setting .name)
  | "ip" => some (.setting .ip)
  | "port" => some (.setting .membershipPort)
  | "direct-port" => some (.setting .directPort)
  | "locators" => some (.setting .locators)
  | "heartbeat-ms" => some (.setting .heartbeat)
  | "secret" => some (.setting .secret)
  | "help" => some .help
  | "version" => some .version
  | _ => none

def digits? (digits : List Char) : Option Nat :=
  if digits.isEmpty || !digits.all Char.isDigit then none
  else some (digits.foldl (fun n c => n * 10 + (c.toNat - '0'.toNat)) 0)

def number? (bound : Nat) (value : String) : Option Nat :=
  let number := match value.toList with
    | '+' :: rest => digits? rest
    | cs => digits? cs
  number.filter (· < bound)

/-- A port: of the numbers with a minus sign zero is one. -/
def port? (value : String) : Option UInt16 :=
  let number := match value.toList with
    | '-' :: rest => (digits? rest).filter (· = 0)
    | _ => number? UInt16.size value
  number.map (·.toUInt16)

def locators? (value : String) : Option (List Net.Endpoint) :=
  ((value.splitOn ",").mapM Net.Endpoint.parse?)

structure Reading where
  arguments : Arguments := {}
  given : List Setting := []
  /-- An option whose value is another word, and that word once it came. -/
  waiting : Option (Setting × Option String) := none

namespace Reading

def store (args : Arguments) (setting : Setting) (value : String) : Option Arguments :=
  match setting with
  | .name => some { args with name := value }
  | .ip => (Net.Ip.parse? value).map fun ip => { args with ip := ip }
  | .membershipPort => (port? value).map fun port => { args with membershipPort := port }
  | .directPort => (port? value).map fun port => { args with directPort := port }
  | .locators => (locators? value).map fun found =>
      { args with locators := args.locators ++ found }
  | .heartbeat => (number? UInt64.size value).map fun n => { args with heartbeatMillis := n.toUInt64 }
  | .secret => some { args with secret := some value }

/-- Takes a value for a setting; only locators may come more than once. -/
def set (r : Reading) (setting : Setting) (value : String) : Except ArgumentFault Reading :=
  if r.given.contains setting && setting != .locators then .error .argumentConflict
  else match store r.arguments setting value with
    | some arguments => .ok { r with arguments := arguments, given := setting :: r.given }
    | none => .error .valueValidation

/-- Settles the option that waits, if one does. -/
def settle (r : Reading) : Except ArgumentFault Reading :=
  match r.waiting with
  | none => .ok r
  | some (_, none) => .error .invalidValue
  | some (setting, some value) => { r with waiting := none }.set setting value

/-- Takes an option, with the value that its word has after an equals sign. -/
def takeOption (r : Reading) (option : Choice) (value : Option String) :
    Except ArgumentFault Reading := do
  match option, value with
  | .setting setting, some value => (← r.settle).set setting value
  | .setting setting, none => return { (← r.settle) with waiting := some (setting, none) }
  | .help, none => let _ ← r.settle; throw .displayHelp
  | .version, none => let _ ← r.settle; throw .displayVersion
  | .help, some _ | .version, some _ => throw .tooManyValues

/-- A word after two dashes, cut at the first equals sign. -/
def splitLong (cs : List Char) : String × Option String :=
  let name := cs.takeWhile (· != '=')
  match cs.drop name.length with
  | _ :: value => (String.ofList name, some (String.ofList value))
  | [] => (String.ofList name, none)

def takeWord (r : Reading) (word : String) : Except ArgumentFault Reading :=
  match word.toList with
  | '-' :: '-' :: cs =>
    let (name, value) := splitLong cs
    match longOption? name with
    | some option => r.takeOption option value
    | none => .error .unknownArgument
  | '-' :: 'h' :: _ => r.takeOption .help none
  | '-' :: 'V' :: _ => r.takeOption .version none
  | '-' :: _ :: _ => .error .unknownArgument
  | _ =>
    match r.waiting with
    | some (setting, none) => .ok { r with waiting := some (setting, some word) }
    | _ => .error .unknownArgument

/-- Takes all words; after two dashes alone no word is expected. -/
def takeWords (r : Reading) : List String → Except ArgumentFault Reading
  | [] => r.settle
  | "--" :: [] => r.settle
  | "--" :: _ :: _ => .error .unknownArgument
  | word :: rest =>
    match r.takeWord word with
    | .ok r => takeWords r rest
    | .error fault => .error fault

end Reading

def Arguments.read (words : List String) : Except ArgumentFault Arguments :=
  (({} : Reading).takeWords words).map (·.arguments)

def Arguments.config (args : Arguments) : Config where
  name := some args.name
  bind := args.ip
  membershipPort := args.membershipPort
  directPort := args.directPort
  heartbeatInterval := .ofMillis args.heartbeatMillis.toNat
  locators := args.locators
  security := args.secret.map fun secret => { secret := Text.encode secret }

end Cohort.Node
