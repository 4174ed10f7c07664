import Cohort.View.Basic

/-!
Loss policies: whether losing some members of a view at once means that this side of a network
partition is the wrong one.
-/

namespace Cohort

/-- How the members of a view are weighed, and the share in percent whose loss is too much. -/
inductive LossPolicy where
  /-- Members count with their weights; the lead member carries a bonus. -/
  | weighted (percent : UInt8)
  | count (percent : UInt8)
  deriving DecidableEq, Repr, Inhabited

/-- What was lost of a view, and whether that is too much. -/
structure LossAssessment where
  lost : UInt32
  total : UInt32
  partitioned : Bool
  deriving DecidableEq, Repr

namespace LossPolicy

def leadBonus : UInt32 := 5

def lead? (view : View) : Option Member := view.members.find? (·.kind == .normal)

/-- What a member weighs in a view, the lead's bonus included. -/
def memberWeight (view : View) (m : Member) : UInt32 :=
  let bonus := match lead? view with
    | some lead => if lead.same m then leadBonus else 0
    | none => 0
  m.weight.toUInt32 + bonus

def percent : LossPolicy → UInt8
  | .weighted percent => percent
  | .count percent => percent

def measure (policy : LossPolicy) (view : View) (m : Member) : UInt32 :=
  match policy with
  | .weighted _ => memberWeight view m
  | .count _ => 1

/-- What some members weigh in a view, in 32 bits. -/
def weigh (policy : LossPolicy) (view : View) (members : List Member) : UInt32 :=
  members.foldr (fun m total => policy.measure view m + total) 0

/-- Whether `lost` is more than the share `percent` of a total that is not zero. -/
def exceeds (lost total : UInt32) (percent : UInt8) : Bool :=
  total > 0 && lost.toUInt64 * 100 > percent.toUInt64 * total.toUInt64

def assess (policy : LossPolicy) (view : View) (unreachable : List Member) : LossAssessment :=
  let total := policy.weigh view view.members
  let lost := policy.weigh view (view.members.filter (·.isIn unreachable))
  ⟨lost, total, exceeds lost total policy.percent⟩

end LossPolicy

end Cohort
