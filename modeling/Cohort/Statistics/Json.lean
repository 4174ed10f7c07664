import Cohort.Statistics.Basic

/-!
Statistics as JSON: one object with every counter, in order and without blanks. An object read back
must have every counter once, in any order, and may have other members, whose values only have to
be JSON; an array of the counters in order is read as well.
-/

namespace Cohort.Statistics

def quoted (s : String) : String := "\"" ++ s ++ "\""

def toJson (s : Statistics) : String :=
  let field (c : Counter) := quoted c.name ++ ":" ++ toString (s.get c)
  "\x7b" ++ ",".intercalate (Counter.all.map field) ++ "\x7d"

namespace Json

/-- Takes something off the front of a text. -/
abbrev Scan (α : Type) := List Char → Option (α × List Char)

def blank (c : Char) : Bool := c == ' ' || c == '\t' || c == '\n' || c == '\r'

def skip (cs : List Char) : List Char := cs.dropWhile blank

/-- The next character after blanks must be `c`. -/
def token (c : Char) (cs : List Char) : Option (List Char) :=
  match skip cs with
  | d :: rest => if c = d then some rest else none
  | [] => none

def digit? (c : Char) : Option Nat :=
  if c.isDigit then some (c.toNat - '0'.toNat) else none

def hexDigit? (c : Char) : Option Nat :=
  if c.isDigit then some (c.toNat - '0'.toNat)
  else if 'a' ≤ c ∧ c ≤ 'f' then some (c.toNat - 'a'.toNat + 10)
  else if 'A' ≤ c ∧ c ≤ 'F' then some (c.toNat - 'A'.toNat + 10)
  else none

def hex4 : Scan Nat
  | a :: b :: c :: d :: rest => do
    let a ← hexDigit? a
    let b ← hexDigit? b
    let c ← hexDigit? c
    let d ← hexDigit? d
    return (a * 0x1000 + b * 0x100 + c * 0x10 + d, rest)
  | _ => none

def simpleEscape? (c : Char) : Option Char :=
  match c with
  | '\x22' => some c
  | '\\' => some c
  | '/' => some c
  | 'b' => some (Char.ofNat 8)
  | 'f' => some (Char.ofNat 12)
  | 'n' => some '\n'
  | 'r' => some '\r'
  | 't' => some '\t'
  | _ => none

/-- What follows a backslash; a high surrogate needs its low one. -/
def escape : Scan Char
  | 'u' :: rest => do
    let (unit, rest) ← hex4 rest
    if 0xD800 ≤ unit ∧ unit < 0xDC00 then
      match rest with
      | '\\' :: 'u' :: rest => do
        let (low, rest) ← hex4 rest
        if 0xDC00 ≤ low ∧ low < 0xE000 then
          return (Char.ofNat (0x10000 + (unit - 0xD800) * 0x400 + (low - 0xDC00)), rest)
        else none
      | _ => none
    else if 0xDC00 ≤ unit ∧ unit < 0xE000 then none
    else return (Char.ofNat unit, rest)
  | c :: rest => (simpleEscape? c).map (·, rest)
  | [] => none

/-- The characters up to the closing quote. Each step takes at least one character, so as many
steps as there are characters suffice. -/
def characters : Nat → Scan (List Char)
  | 0, _ => none
  | steps + 1, cs =>
    match cs with
    | '\x22' :: rest => some ([], rest)
    | '\\' :: rest => do
      let (c, rest) ← escape rest
      let (others, rest) ← characters steps rest
      return (c :: others, rest)
    | c :: rest =>
      if c.toNat < 0x20 then none
      else do
        let (others, rest) ← characters steps rest
        return (c :: others, rest)
    | [] => none

/-- What follows a backslash in a text that is not kept: surrogates need no partner. -/
def skipEscape : List Char → Option (List Char)
  | 'u' :: rest => (hex4 rest).map (·.2)
  | c :: rest => (simpleEscape? c).map fun _ => rest
  | [] => none

def skipCharacters : Nat → List Char → Option (List Char)
  | 0, _ => none
  | steps + 1, cs =>
    match cs with
    | '\x22' :: rest => some rest
    | '\\' :: rest => (skipEscape rest).bind (skipCharacters steps)
    | c :: rest => if c.toNat < 0x20 then none else skipCharacters steps rest
    | [] => none

def skipDigits (cs : List Char) : Option (List Char) :=
  match cs with
  | c :: rest => if c.isDigit then some (rest.dropWhile Char.isDigit) else none
  | [] => none

/-- The digits of a whole number: no zero before others. -/
def skipWhole (cs : List Char) : Option (List Char) :=
  match cs with
  | '0' :: c :: rest => if c.isDigit then none else some (c :: rest)
  | '0' :: [] => some []
  | _ => skipDigits cs

def skipNumber (cs : List Char) : Option (List Char) := do
  let cs ← skipWhole (match cs with | '-' :: rest => rest | _ => cs)
  let cs ← match cs with
    | '.' :: rest => skipDigits rest
    | _ => some cs
  match cs with
  | 'e' :: '+' :: rest | 'e' :: '-' :: rest | 'E' :: '+' :: rest | 'E' :: '-' :: rest =>
    skipDigits rest
  | 'e' :: rest | 'E' :: rest => skipDigits rest
  | _ => some cs

def skipWord (word : String) (cs : List Char) : Option (List Char) :=
  if word.toList.isPrefixOf cs then some (cs.drop word.length) else none

mutual

/-- Skips one value of any form. -/
def skipValue : Nat → List Char → Option (List Char)
  | 0, _ => none
  | steps + 1, cs =>
    match skip cs with
    | 'n' :: rest => skipWord "ull" rest
    | 't' :: rest => skipWord "rue" rest
    | 'f' :: rest => skipWord "alse" rest
    | '\x22' :: rest => skipCharacters (rest.length + 1) rest
    | '[' :: rest =>
      match token ']' rest with
      | some rest => some rest
      | none => skipItems steps rest
    | '\x7b' :: rest =>
      match token '\x7d' rest with
      | some rest => some rest
      | none => skipMembers steps rest
    | cs => skipNumber cs

/-- Skips the items of an array and its end. -/
def skipItems : Nat → List Char → Option (List Char)
  | 0, _ => none
  | steps + 1, cs =>
    match skipValue steps cs with
    | none => none
    | some rest =>
      match skip rest with
      | ',' :: rest => skipItems steps rest
      | ']' :: rest => some rest
      | _ => none

/-- Skips the members of an object and its end. -/
def skipMembers : Nat → List Char → Option (List Char)
  | 0, _ => none
  | steps + 1, cs => do
    let cs ← token '\x22' cs
    let cs ← skipCharacters (cs.length + 1) cs
    let cs ← token ':' cs
    match skipValue steps cs with
    | none => none
    | some rest =>
      match skip rest with
      | ',' :: rest => skipMembers steps rest
      | '\x7d' :: rest => some rest
      | _ => none

end

/-- A counter's value: a whole number of 64 bits, without sign, fraction or exponent. -/
def value : Scan UInt64 := fun cs => do
  let cs := skip cs
  let rest ← skipWhole cs
  let digits := cs.take (cs.length - rest.length)
  let n := digits.foldl (fun n c => n * 10 + (digit? c).getD 0) 0
  let plain := match rest with
    | c :: _ => c != '.' && c != 'e' && c != 'E'
    | [] => true
  if plain && n < UInt64.size then some (n.toUInt64, rest) else none

/-- The members of an object, after the ones read so far. -/
def members : Nat → List (Counter × UInt64) → List Char →
    Option (List (Counter × UInt64) × List Char)
  | 0, _, _ => none
  | steps + 1, found, cs => do
    let cs ← token '\x22' cs
    let (name, cs) ← characters (cs.length + 1) cs
    let cs ← token ':' cs
    let (found, cs) ←
      match Counter.ofName? (String.ofList name) with
      | none => (skipValue (cs.length + 1) cs).map (found, ·)
      | some c =>
        if (found.lookup c).isSome then none
        else (value cs).map fun (n, cs) => (found ++ [(c, n)], cs)
    match skip cs with
    | ',' :: rest => members steps found rest
    | '\x7d' :: rest => return (found, rest)
    | _ => none

/-- The values of an array, one for each of the counters. -/
def items : List Counter → List Char → Option (List (Counter × UInt64) × List Char)
  | [], cs => (token ']' cs).map ([], ·)
  | c :: others, cs => do
    let (n, cs) ← value cs
    let cs ← if others.isEmpty then some cs else token ',' cs
    let (rest, cs) ← items others cs
    return ((c, n) :: rest, cs)

end Json

def ofJson? (text : String) : Option Statistics := do
  let cs := text.toList
  let (found, rest) ←
    match Json.skip cs with
    | '\x7b' :: rest =>
      match Json.token '\x7d' rest with
      | some _ => none
      | none => Json.members (rest.length + 1) [] rest
    | '[' :: rest => Json.items Counter.all rest
    | _ => none
  if (Json.skip rest).isEmpty && Counter.all.all (fun c => (found.lookup c).isSome)
  then some ⟨found⟩ else none

end Cohort.Statistics
