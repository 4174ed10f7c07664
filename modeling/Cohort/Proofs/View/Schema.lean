import Mathlib.Data.List.Forall2
import Cohort.Wire.Reader
import Cohort.Proofs.Member.Draft
import Cohort.Proofs.Message.Schema
import Cohort.Proofs.View.Election

/-! Views in an older schema. Whoever is told a view in it reads every member again, and builds it like any
other description. Some tell one incarnation from the next no more, but all elect the same one: whom they
elect depends on nothing that the older schema leaves out. -/

namespace Cohort

/-! ### Members -/

namespace Member

/-- What is written of a member for a peer of schema `version`: the ordinal of the member's own schema,
and the fields that the peer's schema knows. -/
def fields (version : Version) (m : Member) : UInt16 × Draft :=
  let draft := Draft.ofMember m
  (m.version.ordinal,
    if version < .v2 then { draft with instanceTag := .zero, uniqueTag := none } else draft)

/-- The member that a peer of schema `version` makes of these fields, if they describe one. -/
def reread (version : Version) (m : Member) : Except MemberFault Member :=
  if .v2 ≤ version then .ok m
  else Wire.Reader.checkMember (m.fields version).1 (m.fields version).2

/-- What a group goes by is the same in two descriptions, and where the member is reached. -/
structure Retold (m m' : Member) : Prop where
  kind : m'.kind = m.kind
  preferred : m'.preferred = m.preferred
  weight : m'.weight = m.weight
  viewId : m'.viewId = m.viewId
  membershipAddress : m'.membershipAddress = m.membershipAddress
  directAddress : m'.directAddress? = m.directAddress?

theorem retold_forVersion (version : Version) (m : Member) : Retold m (m.forVersion version) := by
  unfold forVersion
  split <;> exact ⟨rfl, rfl, rfl, rfl, rfl, rfl⟩

/-- The fields that an older schema knows are those of the member without its tags. -/
theorem fields_older (m : Member) :
    m.fields .v1 = (m.version.ordinal, Draft.ofMember (m.forVersion .v1)) := rfl

/-- A description is never refused when it is read again. -/
theorem reread_eq (version : Version) (m : Member) : m.reread version = .ok (m.forVersion version) := by
  cases version with
  | v2 => exact congrArg Except.ok (forVersion_current m).symm
  | v1 =>
    have older : ¬ Version.v2 ≤ .v1 := by decide
    have built := Draft.build_ofMember (m.forVersion .v1)
    rw [reread, if_neg older, fields_older, Wire.Reader.checkMember, Version.ofOrdinal_ordinal]
    exact built

theorem forVersion_again (version : Version) (m : Member) :
    (m.forVersion version).forVersion version = m.forVersion version := by
  cases version with
  | v1 => rfl
  | v2 => exact forVersion_current _

end Member

/-! ### Views -/

namespace View

/-- The view that a peer of schema `version` makes of this one, member by member. -/
def reread (version : Version) (view : View) : Except MemberFault View := do
  let creator ← view.creator.reread version
  let members ← view.members.mapM (Member.reread version)
  let shutdown ← view.shutdown.mapM (Member.reread version)
  let crashed ← view.crashed.mapM (Member.reread version)
  return { id := view.id, creator, members, shutdown, crashed }

theorem mapM_reread (version : Version) (members : List Member) :
    members.mapM (Member.reread version) = .ok (members.map (Member.forVersion version)) := by
  have each : Member.reread version = fun m => pure (m.forVersion version) :=
    funext (Member.reread_eq version)
  rw [each, List.mapM_pure]
  rfl

theorem reread_eq (version : Version) (view : View) :
    view.reread version = .ok (view.forVersion version) := by
  rw [reread, Member.reread_eq, mapM_reread, mapM_reread, mapM_reread]
  rfl

section
variable {f : Member → Member} (retold : ∀ m, Member.Retold m (f m))
include retold

theorem outranks_retold (a b : Member) : outranks (f a) (f b) = outranks a b := by
  unfold outranks
  rw [(retold a).preferred, (retold b).preferred, (retold a).viewId, (retold b).viewId]

theorem foremost_retold (members : List Member) :
    foremost (members.map f) = (foremost members).map f := by
  induction members with
  | nil => rfl
  | cons m rest ih =>
    rw [List.map_cons, foremost, foremost, ih]
    cases foremost rest with
    | none => rfl
    | some best =>
      simp only [Option.map_some, outranks_retold retold]
      split <;> rfl

/-- Whoever describes all members anew, but for what a group goes by, has its coordinator in the same
place. -/
theorem coordinator_retold (view : View) :
    (view.mapMembers f).coordinator = view.coordinator.map f := by
  have able : (view.members.map f).filter (·.mayCoordinate) =
      (view.members.filter (·.mayCoordinate)).map f := by
    rw [List.filter_map]
    congr 2
    funext m
    exact congrArg Kind.mayCoordinate (retold m).kind
  rw [coordinator_eq, coordinator_eq, mapMembers, able, foremost_retold retold, List.head?_map]
  exact (Option.map_or).symm

theorem totalWeight_retold (view : View) : (view.mapMembers f).totalWeight = view.totalWeight := by
  simp only [totalWeight, mapMembers, List.foldr_map, (retold _).weight]

end

theorem forVersion_eq (version : Version) (view : View) :
    view.forVersion version = view.mapMembers (Member.forVersion version) := rfl

theorem forVersion_again (version : Version) (view : View) :
    (view.forVersion version).forVersion version = view.forVersion version := by
  have again : Member.forVersion version ∘ Member.forVersion version = Member.forVersion version :=
    funext (Member.forVersion_again version)
  simp only [forVersion, List.map_map, Member.forVersion_again, again]

/-- A peer of any schema can read a view again, and what it reads has the same number, the same members in
the same places as far as a group goes by them, and so the same weight; its coordinator is what the peer
reads of the coordinator. To read it once more changes nothing. -/
theorem reread_elects_same (version : Version) (view : View) :
    ∃ old, view.reread version = .ok old ∧
      view.coordinator.mapM (Member.reread version) = .ok old.coordinator ∧
      old.id = view.id ∧ old.size = view.size ∧ old.totalWeight = view.totalWeight ∧
      List.Forall₂ (fun m m' => m.reread version = .ok m' ∧ Member.Retold m m')
        view.members old.members ∧
      old.reread version = .ok old := by
  have retold := Member.retold_forVersion version
  refine ⟨view.forVersion version, reread_eq version view, ?_, rfl, ?_, ?_, ?_, ?_⟩
  · rw [forVersion_eq, coordinator_retold retold]
    cases view.coordinator with
    | none => rfl
    | some leader =>
      change (some <$> leader.reread version) = _
      rw [Member.reread_eq]
      rfl
  · exact List.length_map _
  · exact totalWeight_retold retold view
  · change List.Forall₂ _ view.members (view.members.map _)
    rw [List.forall₂_map_right_iff, List.forall₂_same]
    intro m _
    exact ⟨Member.reread_eq version m, retold m⟩
  · rw [reread_eq, forVersion_again]

/-- Two incarnations of one process, the second of which is preferred. -/
def reborn : View :=
  let m : Member := { Member.peer 1 with instanceTag := ⟨0, 1⟩ }
  let m' : Member := { m with instanceTag := ⟨0, 2⟩, preferred := true, preferred_may := fun _ => rfl }
  { id := 2, creator := m, members := [m, m'], shutdown := [], crashed := [] }

/-- An older peer does not tell them apart, and still elects the second. -/
example : reborn.Distinct ∧ ¬ (reborn.forVersion .v1).Distinct ∧
    (reborn.forVersion .v1).coordinator.map (·.preferred) = some true := by
  decide

end View

end Cohort
