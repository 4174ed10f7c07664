import Cohort.Proofs.View.Schema
import Cohort.Proofs.Wire.Reading

/-! Where members come from: descriptions, edits, admissions to a view, an older schema, and bytes. No way
leads to a member that its own fields do not describe, so a member can be taken apart and made again. -/

namespace Cohort

/-! ### Kinds -/

namespace Kind

theorem code_known (kind : Kind) : 10 ≤ kind.code ∧ kind.code ≤ 13 := by
  cases kind <;> decide

/-- The numbers of the kinds stand next to each other. -/
theorem ofCode?_isSome_iff (code : UInt8) : (ofCode? code).isSome = true ↔ 10 ≤ code ∧ code ≤ 13 := by
  unfold ofCode?
  grind

end Kind

/-! ### Descriptions -/

namespace Draft

/-- One thing that is said of a member in the making. -/
inductive Detail where
  | host (host : Net.Ip)
  | hostName (name : String)
  | membershipPort (port : UInt16)
  | directPort (port : UInt16)
  | processId (id : UInt32)
  | kind (code : UInt8)
  | viewId (id : Int32)
  | version (version : Version)
  | name (name : String)
  | rolesAndGroups (roles groups : String)
  | groups (groups : List String)
  | durableClient (id : Option String) (timeout : UInt32)
  | preferred (preferred : Bool)
  | partitionDetection (enabled : Bool)
  | weight (weight : UInt8)
  | instanceTag (tag : InstanceTag)
  | provisional (provisional : Bool)
  | uniqueTag (tag : String)
  | kindRequired (required : Bool)
  deriving DecidableEq, Repr

def say (draft : Draft) : Detail → Draft
  | .host host => { draft with host := some host }
  | .hostName name => { draft with hostName := some name }
  | .membershipPort port => { draft with membershipPort := port }
  | .directPort port => { draft with directPort := port }
  | .processId id => { draft with processId := id }
  | .kind code => { draft with kindCode := some code }
  | .viewId id => { draft with viewId := id }
  | .version version => { draft with version := version }
  | .name name => { draft with name := some name }
  | .rolesAndGroups roles groups => draft.mergeGroups roles groups
  | .groups groups => { draft with groups := groups }
  | .durableClient id timeout => { draft with durableId := id, durableTimeout := timeout }
  | .preferred preferred => { draft with preferred := some preferred }
  | .partitionDetection enabled => { draft with partitionDetection := enabled }
  | .weight weight => { draft with weight := some weight }
  | .instanceTag tag => { draft with instanceTag := tag }
  | .provisional provisional => { draft with provisional := provisional }
  | .uniqueTag tag => { draft with uniqueTag := some tag }
  | .kindRequired required => { draft with kindRequired := required }

def sayAll (draft : Draft) (details : List Detail) : Draft := details.foldl say draft

theorem sayAll_append (draft : Draft) (first second : List Detail) :
    draft.sayAll (first ++ second) = (draft.sayAll first).sayAll second :=
  List.foldl_append

/-- A draft describes a member exactly if it names a host, and a known kind or none where none is
required. -/
theorem build_isOk_iff (draft : Draft) :
    (∃ m, draft.build = .ok m) ↔ draft.host.isSome = true ∧
      (draft.kindCode = none ∧ draft.kindRequired = false ∨
        ∃ code, draft.kindCode = some code ∧ 10 ≤ code ∧ code ≤ 13) := by
  unfold build kind
  cases draft.host with
  | none => simp
  | some host =>
    cases draft.kindCode with
    | none => cases draft.kindRequired <;> simp
    | some code =>
      have known := Kind.ofCode?_isSome_iff code
      cases named : Kind.ofCode? code with
      | none => simpa [named] using known
      | some kind => simpa [named] using known

theorem host_sayAll {draft : Draft} (hosted : draft.host.isSome = true) (details : List Detail) :
    (draft.sayAll details).host.isSome = true := by
  induction details generalizing draft with
  | nil => exact hosted
  | cons detail details ih =>
    refine ih ?_
    cases detail with
    | host host => rfl
    | _ => exact hosted

/-- The kind that one thing states. -/
def Detail.kind? : Detail → Option UInt8
  | .kind code => some code
  | _ => none

/-- The kind that was stated last. -/
def statedKind (details : List Detail) : Option UInt8 := (details.filterMap Detail.kind?).getLast?

theorem kindCode_sayAll (draft : Draft) (details : List Detail) :
    (draft.sayAll details).kindCode = (statedKind details).or draft.kindCode := by
  induction details generalizing draft with
  | nil => rfl
  | cons detail details ih =>
    have rest : (draft.sayAll (detail :: details)).kindCode = _ := ih (draft.say detail)
    rw [rest]
    cases detail with
    | kind code =>
      change _ = (statedKind (.kind code :: details)).or _
      rw [statedKind, statedKind, List.filterMap_cons, Detail.kind?]
      simp only [List.getLast?_cons, say]
      cases (details.filterMap Detail.kind?).getLast? <;> rfl
    | _ => rfl

/-- A member that is edited is one again, unless it was at last said to be of an unknown kind. -/
theorem build_edit_isOk_iff (m : Member) (details : List Detail) :
    (∃ n, ((ofMember m).sayAll details).build = .ok n) ↔
      ∀ code, statedKind details = some code → 10 ≤ code ∧ code ≤ 13 := by
  have kept : ((ofMember m).sayAll details).kindCode = (statedKind details).or (some m.kind.code) :=
    kindCode_sayAll (ofMember m) details
  rw [build_isOk_iff, kept, and_iff_right (host_sayAll rfl details)]
  cases statedKind details <;> simp [Kind.code_known]

/-- A draft that says all there is to say of a member, and nothing against its kind. -/
structure Complete (draft : Draft) : Prop where
  host : draft.host.isSome = true
  hostName : draft.hostName.isSome = true
  name : draft.name.isSome = true
  weight : draft.weight.isSome = true
  preferred : draft.preferred.isSome = true
  kind : ∃ kind : Kind, draft.kindCode = some kind.code ∧
    (draft.preferred = some true → kind.mayCoordinate = true)
  kindRequired : draft.kindRequired = false

theorem complete_ofMember (m : Member) : (ofMember m).Complete where
  host := rfl
  hostName := rfl
  name := rfl
  weight := rfl
  preferred := rfl
  kind := ⟨m.kind, rfl, fun asked => m.preferred_may (Option.some.inj asked)⟩
  kindRequired := rfl

/-- Building a complete draft adds nothing to what it says and takes nothing from it. -/
theorem build_of_complete {draft : Draft} (complete : draft.Complete) :
    ∃ m, draft.build = .ok m ∧ ofMember m = draft := by
  obtain ⟨kind, stated, may⟩ := complete.kind
  obtain ⟨host, hosted⟩ := Option.isSome_iff_exists.mp complete.host
  obtain ⟨hostName, hostNamed⟩ := Option.isSome_iff_exists.mp complete.hostName
  obtain ⟨name, named⟩ := Option.isSome_iff_exists.mp complete.name
  obtain ⟨weight, weighed⟩ := Option.isSome_iff_exists.mp complete.weight
  obtain ⟨preferred, asked⟩ := Option.isSome_iff_exists.mp complete.preferred
  have chosen : (kind.mayCoordinate && preferred) = preferred :=
    Bool.and_eq_right_iff_imp.mpr fun given => may (asked.trans (congrArg some given))
  unfold build Draft.kind
  simp only [hosted, stated, Kind.ofCode?_code, hostNamed, named, weighed, asked, Option.getD_some, chosen]
  refine ⟨_, rfl, ?_⟩
  unfold ofMember
  simp only [← hosted, ← stated, ← hostNamed, ← named, ← weighed, ← asked, ← complete.kindRequired]

/-- How a description begins: with nothing, with a host, or with the process that runs here. -/
inductive Begun : Draft → Prop
  | blank : Begun {}
  | onHost (host : Net.Ip) (hostName : String) : Begun (.forHost host hostName)
  | here (host : Net.Ip) (hostName : String) (processId : UInt32) (tag : InstanceTag) :
      Begun (.forLocal host hostName processId tag)

end Draft

/-! ### Members -/

namespace Member

/-- The members there can be, by the ways in which one is made. -/
inductive Obtained : Member → Prop
  | described {draft : Draft} {m : Member} (begun : draft.Begun) (details : List Draft.Detail)
      (built : (draft.sayAll details).build = .ok m) : Obtained m
  | edited {m n : Member} (obtained : Obtained m) (details : List Draft.Detail)
      (built : ((Draft.ofMember m).sayAll details).build = .ok n) : Obtained n
  | admitted {m : Member} (obtained : Obtained m) (id : Int32) : Obtained (m.withViewId id)
  | converted {m : Member} (obtained : Obtained m) (version : Version) : Obtained (m.forVersion version)
  | decoded {input rest : List UInt8} {m : Member} (read : Wire.Reader.member input = .ok (m, rest)) :
      Obtained m

/-- All that a member says but for where it is. -/
def details (m : Member) : List Draft.Detail :=
  [.membershipPort m.membershipPort, .directPort m.directPort, .processId m.processId, .kind m.kind.code,
    .viewId m.viewId, .version m.version, .name m.name, .groups m.groups,
    .durableClient m.durableId m.durableTimeout, .preferred m.preferred,
    .partitionDetection m.partitionDetection, .weight m.weight, .instanceTag m.instanceTag,
    .provisional m.provisional] ++ m.uniqueTag.toList.map .uniqueTag

/-- There is nothing in a member that cannot be said of it. -/
theorem sayAll_details (m : Member) :
    (Draft.forHost m.host m.hostName).sayAll m.details = Draft.ofMember m := by
  rw [details, Draft.sayAll_append]
  unfold Draft.ofMember
  cases m.uniqueTag <;> rfl

theorem obtained (m : Member) : Obtained m :=
  .described (.onHost m.host m.hostName) m.details (by rw [sayAll_details, Draft.build_ofMember])

theorem checkMember_fields (version : Version) (m : Member) :
    Wire.Reader.checkMember (m.fields version).1 (m.fields version).2 = .ok (m.forVersion version) := by
  cases version with
  | v1 => exact reread_eq .v1 m
  | v2 => exact (Wire.Reader.checkMember_ofMember m).trans (congrArg Except.ok (forVersion_current m).symm)

theorem build_withViewId (m : Member) (id : Int32) :
    ((Draft.ofMember m).sayAll [.viewId id, .provisional false]).build = .ok (m.withViewId id) :=
  Draft.build_ofMember (m.withViewId id)

/-- The members that can be had are those whose fields are a complete draft. Each is made again by building
all that it says; admission to a view changes only the number of the view, and that the description is no
longer provisional; and each is read again from what is written of it, whole in the current schema and
without its two tags in the older one. -/
theorem obtained_remade :
    (∀ draft : Draft, (∃ m, Obtained m ∧ Draft.ofMember m = draft) ↔ draft.Complete) ∧
    ∀ m : Member,
      (Draft.ofMember m).build = .ok m ∧
      (∀ id, ((Draft.ofMember m).sayAll [.viewId id, .provisional false]).build = .ok (m.withViewId id) ∧
        Draft.ofMember (m.withViewId id) = { Draft.ofMember m with viewId := id, provisional := false }) ∧
      (∀ version,
        Wire.Reader.checkMember (m.fields version).1 (m.fields version).2 = .ok (m.forVersion version) ∧
        Wire.Reader.Gives Wire.Reader.member (Wire.member (m.forVersion version)) (m.forVersion version)) ∧
      m.forVersion .v2 = m ∧
      Draft.ofMember (m.forVersion .v1) =
        { Draft.ofMember m with instanceTag := .zero, uniqueTag := none } := by
  refine ⟨fun draft => ⟨?_, ?_⟩, fun m => ⟨Draft.build_ofMember m, fun id => ⟨?_, rfl⟩, fun version =>
    ⟨checkMember_fields version m, Wire.Reader.gives_member _⟩, forVersion_current m, rfl⟩⟩
  · rintro ⟨m, -, rfl⟩
    exact Draft.complete_ofMember m
  · intro complete
    obtain ⟨m, -, said⟩ := Draft.build_of_complete complete
    exact ⟨m, obtained m, said⟩
  · exact build_withViewId m id

/-- A process that was to be preferred, and then turned out to be one that never coordinates. -/
example : ((Draft.ofMember (peer 7)).sayAll [.preferred true, .kind 13]).build.map (·.preferred) =
    .ok false := by
  decide

end Member

end Cohort
