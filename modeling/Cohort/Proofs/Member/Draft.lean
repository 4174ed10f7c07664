import Cohort.Member.Draft

/-! Drafts and members: everything that a member says describes that member again, and a member that
a draft describes says what the draft did. -/

namespace Cohort

theorem Version.ofOrdinal_ordinal (version : Version) :
    Version.ofOrdinal version.ordinal = .ok version := by
  cases version <;> rfl

namespace InstanceTag

theorem eq_zero_of_isZero {tag : InstanceTag} (zero : tag.isZero = true) : tag = .zero := by
  obtain ⟨high, low⟩ := tag
  simp only [isZero, Bool.and_eq_true, beq_iff_eq] at zero
  rw [zero.1, zero.2]
  rfl

end InstanceTag

namespace Draft

theorem build_ofMember (m : Member) : (ofMember m).build = .ok m := by
  obtain ⟨host, hostName, membershipPort, directPort, processId, kind, viewId, version, name, groups,
    durableId, durableTimeout, preferred, partitionDetection, weight, instanceTag, provisional,
    uniqueTag, may⟩ := m
  -- no kind is preferred against its nature, so building takes nothing away
  have chosen : (kind.mayCoordinate && preferred) = preferred := by
    cases preferred with
    | false => exact Bool.and_false _
    | true => rw [may rfl, Bool.and_true]
  simp only [build, ofMember, Draft.kind, Kind.ofCode?_code, Option.getD_some, chosen]

/-- The parts of a draft whose written form has no fixed length. -/
theorem of_build {draft : Draft} {m : Member} (built : draft.build = .ok m) :
    draft.host = some m.host ∧ m.hostName = draft.hostName.getD m.host.render ∧
      m.name = draft.name.getD m.hostName ∧ m.groups = draft.groups ∧
      m.durableId = draft.durableId ∧ m.instanceTag = draft.instanceTag ∧
      m.uniqueTag = draft.uniqueTag := by
  unfold build at built
  split at built
  · cases built
  split at built
  · cases built
  · cases built
    exact ⟨by assumption, rfl, rfl, rfl, rfl, rfl, rfl⟩

end Draft

end Cohort
