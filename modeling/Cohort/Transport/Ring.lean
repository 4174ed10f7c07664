/-!
A buffer for one reader that never holds up its writers: when it is full the oldest item goes, and
the reader is told how many it missed.
-/

namespace Cohort

structure Ring (α : Type) where
  capacity : Nat := 1024
  items : List α := []
  /-- How many items went since the reader last looked. -/
  missed : Nat := 0
  deriving Repr

namespace Ring

variable {α : Type}

inductive Entry (α : Type) where
  | item (item : α)
  | lagged (missed : Nat)
  deriving Repr

def push (r : Ring α) (item : α) : Ring α :=
  if r.items.length < r.capacity then { r with items := r.items ++ [item] }
  else { r with items := r.items.drop 1 ++ [item], missed := r.missed + 1 }

/-- The next entry; what was missed is told first. -/
def next? (r : Ring α) : Option (Entry α × Ring α) :=
  if r.missed > 0 then some (.lagged r.missed, { r with missed := 0 })
  else match r.items with
    | item :: rest => some (.item item, { r with items := rest })
    | [] => none

def isEmpty (r : Ring α) : Bool := r.items.isEmpty && r.missed == 0

/-- How many entries there are to read. -/
def length (r : Ring α) : Nat := r.items.length + (if r.missed > 0 then 1 else 0)

end Ring

end Cohort
