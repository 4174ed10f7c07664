import Cohort.Membership.Joining
import Cohort.Proofs.Membership.Pieces

/-! How a member that seeks admission takes turns with those whom it asks: it looks for an answer only
after a request, and only for one; and when it was admitted it asks nobody any more. -/

namespace Cohort.Manager

/-- What a member that asked everybody has to show for it: the view that it was admitted to, if any. -/
abbrev Found := Except ServiceError (Option View)

/-- How far a member is with the request that it made last. -/
inductive Stage where
  /-- There is none whose answer it would look for. -/
  | free
  | asked
  | admitted (view : View)
  deriving DecidableEq

def Stage.after : JoinOutcome → Stage
  | .answered (.accepted view) => .admitted view
  | _ => .free

/-- What may be found at the end: the view, after an admission, and else none. -/
def Stage.Ends : Stage → Found → Prop
  | .admitted view, found => found = .ok (some view)
  | _, found => ∀ view, found ≠ .ok (some view)

/-- What is left of a piece of seeking that has come to a stage and to a state, and all the pieces after
it, whatever state they begin in. -/
inductive Seeks : Stage → Manager → Act Found → Prop where
  | done {stage : Stage} {m : Manager} {found : Found} : stage.Ends found → Seeks stage m (.done found)
  | read {stage : Stage} {m : Manager} {next : Manager → Act Found} :
      Seeks stage m (next m) → Seeks stage m (.read next)
  | ask {stage : Stage} {m : Manager} {target : Net.Endpoint} {self : Member}
      {next : List (Except ServiceError Unit) → Act Found} :
      (∀ view, stage ≠ .admitted view) → (∀ results n, Seeks .asked n (next results)) →
      Seeks stage m (.await (.deliver [⟨.address target, .of (.joinRequest self)⟩]) next)
  | listen {m : Manager} {patience : Span} {next : JoinOutcome → Act Found} :
      (∀ outcome n, Seeks (.after outcome) n (next outcome)) →
      Seeks .asked m (.await (.joinAnswer patience) next)

section
variable {stage : Stage} {m : Manager}

/-- Nothing found, at a stage at which nothing is to be found. -/
theorem Stage.ends_of_none {found : Found} (seeking : ∀ view, stage ≠ .admitted view)
    (none : ∀ view, found ≠ .ok (some view)) : stage.Ends found := by
  cases stage with
  | admitted view => exact absurd rfl (seeking view)
  | free | asked => exact none

theorem seeks_pure {found : Found} (ends : stage.Ends found) : Seeks stage m (pure found) := .done ends

theorem seeks_get_bind {f : Manager → Act Found} (next : Seeks stage m (f m)) :
    Seeks stage m (get >>= f) := by
  change Seeks stage m (.read fun s => f s)
  exact .read next

theorem seeks_bind {p : Act Found} {f : Found → Act Found} (first : Seeks stage m p)
    (later : ∀ (stage : Stage) n found, stage.Ends found → Seeks stage n (f found)) :
    Seeks stage m (p >>= f) := by
  change Seeks stage m (p.bind f)
  induction first with
  | done ends => exact later _ _ _ ends
  | read _ ih => exact .read ih
  | ask seeking _ ih => exact .ask seeking ih
  | listen _ ih => exact .listen ih

/-- A request is made, unless the member has no channel for it. -/
theorem seeks_deliver_bind {target : Net.Endpoint} {self : Member}
    {f : Except ServiceError Unit → Act Found} (seeking : ∀ view, stage ≠ .admitted view)
    (failed : ∀ e n, Seeks stage n (f (.error e))) (made : ∀ result n, Seeks .asked n (f result)) :
    Seeks stage m (deliver (.address target) (.of (.joinRequest self)) >>= f) := by
  refine .read ?_
  dsimp only [Procedure.bind]
  by_cases none : m.channel.isNone = true
  · rw [if_pos none]
    exact failed _ m
  · rw [if_neg none]
    refine .ask seeking fun results n => ?_
    cases results with
    | nil => exact made _ n
    | cons result rest => exact made result n

theorem seeks_listen_bind {patience : Span} {f : JoinOutcome → Act Found}
    (next : ∀ outcome n, Seeks (.after outcome) n (f outcome)) :
    Seeks .asked m (Procedure.perform (.joinAnswer patience) >>= f) := .listen next

theorem seeks_joinThrough_of (redirects : Nat) (target : Net.Endpoint)
    (seeking : ∀ view, stage ≠ .admitted view)
    (follow : ∀ n rest next, redirects = rest + 1 → Seeks .free n (joinThrough rest next)) :
    Seeks stage m (joinThrough redirects target) := by
  have nothing : ∀ e (stage : Stage) n, (∀ view, stage ≠ .admitted view) →
      Seeks stage n (pure (.error e : Found)) := fun e stage n seeking =>
    seeks_pure (Stage.ends_of_none seeking (by simp))
  unfold joinThrough
  refine seeks_get_bind (seeks_deliver_bind seeking (fun e n => nothing e stage n seeking) ?_)
  intro delivered n
  cases delivered with
  | error e => exact nothing e .asked n (by simp)
  | ok _ =>
    refine seeks_listen_bind fun outcome n => ?_
    cases outcome with
    | closed | silence => exact seeks_pure (by simp [Stage.after, Stage.Ends])
    | answered answer =>
      cases answer with
      | accepted view | rejected reason => exact seeks_pure (by simp [Stage.after, Stage.Ends])
      | redirect coordinator =>
        dsimp only
        cases coordinator.directAddress? with
        | none => exact seeks_pure (by simp [Stage.after, Stage.Ends])
        | some next =>
          cases redirects with
          | zero => exact seeks_pure (by simp [Stage.after, Stage.Ends])
          | succ rest => exact follow n rest next rfl

theorem seeks_joinThrough (redirects : Nat) (target : Net.Endpoint)
    (seeking : ∀ view, stage ≠ .admitted view) : Seeks stage m (joinThrough redirects target) := by
  induction redirects generalizing stage m target with
  | zero => exact seeks_joinThrough_of 0 target seeking fun n rest next none => by simp at none
  | succ redirects ih =>
    refine seeks_joinThrough_of (redirects + 1) target seeking fun n rest next same => ?_
    rw [← Nat.succ.inj same]
    exact ih next (by simp)

theorem seeks_joinThroughEach (locators : List Net.Endpoint)
    (seeking : ∀ view, stage ≠ .admitted view) : Seeks stage m (joinThroughEach locators) := by
  induction locators generalizing stage m with
  | nil => exact seeks_pure (Stage.ends_of_none seeking (by simp))
  | cons locator rest ih =>
    unfold joinThroughEach
    refine seeks_bind (seeks_joinThrough maxRedirects locator seeking) fun stage n found ends => ?_
    -- after an admission only the view itself can have been found, and the others are not asked
    have onward : (∀ view, found ≠ .ok (some view)) → ∀ view, stage ≠ .admitted view := by
      rintro none view rfl
      exact none view ends
    split
    · exact seeks_pure ends
    · exact seeks_pure ends
    · exact ih (onward (by simp))
    · exact ih (onward (by simp))

/-- A piece of seeking comes to an end, makes a request, or begins to look for the answer to one; it
leaves the answers alone. -/
theorem run_seeks {p : Act Found} (seeks : Seeks stage m p) : (p.run m).1 = m ∧
    ((∃ found, (p.run m).2 = .done found ∧ stage.Ends found) ∨
      (∀ view, stage ≠ .admitted view) ∧ (∃ target self next,
        (p.run m).2 = .waiting (.deliver [⟨.address target, .of (.joinRequest self)⟩]) next ∧
        ∀ results n, Seeks .asked n (next results)) ∨
      stage = .asked ∧ ∃ patience next, (p.run m).2 = .waiting (.joinAnswer patience) next ∧
        ∀ outcome n, Seeks (.after outcome) n (next outcome)) := by
  induction seeks with
  | done ends => exact ⟨rfl, Or.inl ⟨_, rfl, ends⟩⟩
  | read _ ih => exact ih
  | ask seeking goesOn => exact ⟨rfl, Or.inr (Or.inl ⟨seeking, _, _, _, rfl, goesOn⟩)⟩
  | listen goesOn => exact ⟨rfl, Or.inr (Or.inr ⟨rfl, _, _, rfl, goesOn⟩)⟩

end

end Cohort.Manager
