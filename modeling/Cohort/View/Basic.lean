import Cohort.Member.Basic

/-!
Views: the agreed and numbered list of a group's members. A view never changes; a change of
membership makes a successor, which also says who left the view before it and how. All members
find the same coordinator in the same view, so no election is held.
-/

namespace Cohort

structure View where
  id : Int32
  creator : Member
  members : List Member
  /-- Who left the view before this one of their own accord. -/
  shutdown : List Member
  /-- Who was removed from the view before this one. -/
  crashed : List Member
  deriving DecidableEq, Repr

namespace View

def initial (founder : Member) : View :=
  let founder := founder.withViewId 1
  { id := 1, creator := founder, members := [founder], shutdown := [], crashed := [] }

def size (view : View) : Nat := view.members.length

def contains (view : View) (m : Member) : Bool := m.isIn view.members

/-- The view's own description of a member. -/
def get? (view : View) (m : Member) : Option Member := view.members.find? m.same

/-- What the members weigh together, in 32 bits. -/
def totalWeight (view : View) : UInt32 :=
  view.members.foldr (fun m total => m.weight.toUInt32 + total) 0

/-- Whether `a` goes strictly before `b` when a coordinator is chosen: preferred members go first,
then those of an older view. -/
def outranks (a b : Member) : Bool :=
  if a.preferred = b.preferred then decide (a.viewId < b.viewId) else a.preferred

/-- The first of the members that no other outranks. -/
def foremost : List Member → Option Member
  | [] => none
  | m :: rest =>
    match foremost rest with
    | none => some m
    | some best => if outranks best m then some best else some m

/-- Who coordinates once `gone` have left: the foremost of those who may, else the first left. -/
def coordinatorWithout (view : View) (gone : List Member) : Option Member :=
  let left := view.members.filter (!·.isIn gone)
  (foremost (left.filter (·.mayCoordinate))).or left.head?

def coordinator (view : View) : Option Member := view.coordinatorWithout []

/-- Takes a joiner in at the end, unless the list has it already. -/
def enrol (id : Int32) (members : List Member) (joiner : Member) : List Member :=
  if joiner.isIn members then members else members ++ [joiner.withViewId id]

/-- The next view: without those who departed or crashed, and with the joiners at the end, each
stamped with the new view's id. -/
def successor (view : View) (creator : Member) (joined departed crashed : List Member) : View :=
  let id := view.id + 1
  let left := view.members.filter fun m => !m.isIn departed && !m.isIn crashed
  { id := id
    creator := (view.get? creator).getD creator
    members := joined.foldl (enrol id) left
    shutdown := view.members.filter (·.isIn departed)
    crashed := view.members.filter (·.isIn crashed) }

/-- The view as a peer of schema `version` knows it. -/
def forVersion (version : Version) (view : View) : View where
  id := view.id
  creator := view.creator.forVersion version
  members := view.members.map (·.forVersion version)
  shutdown := view.shutdown.map (·.forVersion version)
  crashed := view.crashed.map (·.forVersion version)

def listText (members : List Member) : String :=
  "[" ++ ", ".intercalate (members.map (·.detail)) ++ "]"

def text (view : View) : String :=
  let part (label : String) (members : List Member) :=
    if members.isEmpty then "" else label ++ listText members
  "View[" ++ view.creator.text ++ "|" ++ toString view.id ++ "] members: "
    ++ listText view.members ++ part " shutdown: " view.shutdown ++ part " crashed: " view.crashed

def same (a b : View) : Bool :=
  let all (xs ys : List Member) := xs.map (·.identity) == ys.map (·.identity)
  a.id == b.id && a.creator.same b.creator && all a.members b.members
    && all a.shutdown b.shutdown && all a.crashed b.crashed

inductive Event where
  | joined (m : Member)
  | left (m : Member)
  | crashed (m : Member)
  | coordinatorChanged (previous : Option Member) (current : Member)
  | installed (view : View)
  /-- Too much of the group became unreachable at once, so nobody was removed. -/
  | partitionDetected (unreachable : List Member) (lost total : UInt32)
  /-- The others removed this member from the view. -/
  | expelled (view : View)
  deriving DecidableEq, Repr

def sameCoordinator : Option Member → Option Member → Bool
  | some a, some b => a.same b
  | none, none => true
  | _, _ => false

/-- The announcement of a view's coordinator, if it is not the one before it. -/
def coordinatorEvent (previous current : Option Member) : List Event :=
  match current with
  | some new => if sameCoordinator previous current then [] else [.coordinatorChanged previous new]
  | none => []

/-- What happens when a member of `previous` (of no view yet, if there is none) moves on. -/
def diff (view : View) (previous : Option View) : List Event :=
  match previous with
  | none => coordinatorEvent none view.coordinator ++ [.installed view]
  | some previous =>
    (view.members.filter (!previous.contains ·)).map .joined
      ++ ((previous.members.filter (!view.contains ·)).map fun m =>
        if m.isIn view.crashed then .crashed m else .left m)
      ++ coordinatorEvent previous.coordinator view.coordinator
      ++ [.installed view]

end View

end Cohort
