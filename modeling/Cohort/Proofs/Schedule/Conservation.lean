import Cohort.Proofs.Schedule.Execution

/-! Nothing is lost. In every state that a schedule can come to, also in the middle of a pass, what
the queues hold, what the states say, and what the schedule reports of itself agree; and a pass,
whichever way it ends, takes out what it ran and nothing else. -/

namespace Cohort.Schedule

variable {σ α ε : Type} {s : Schedule α}

/-- What the schedule holds, what it knows of its tasks and what it reports are the same. -/
structure Exact (s : Schedule α) : Prop where
  /-- A task is pending if it is in one of the queues and was not cancelled. -/
  pending_iff : ∀ id, s.isPending id = true ↔
    (∃ t ∈ s.intake ++ s.lobby, t.id = id) ∧ s.states[id]? ≠ some .cancelled
  /-- Of all tasks ever armed, exactly the pending are counted. -/
  pending : s.pending = (List.range s.nextId).countP s.isPending
  /-- The time reported is the least that is left to a pending task. -/
  nextDueIn : s.nextDueIn.map Span.nanos = (s.waiting.map fun t => t.due - s.now).min?

namespace Coherent

theorem waiting_ids (coherent : s.Coherent) :
    (s.waiting.map (·.id)).Perm ((List.range s.nextId).filter s.isPending) := by
  have distinct : (s.waiting.map (·.id)).Nodup :=
    coherent.distinct.sublist (List.filter_sublist.map _)
  refine (List.perm_ext_iff_of_nodup distinct (List.nodup_range.filter _)).mpr fun id => ?_
  rw [List.mem_filter, List.mem_range, List.mem_map]
  constructor
  · rintro ⟨t, there, rfl⟩
    exact ⟨lt_of_waiting there, (mem_waiting.mp there).2⟩
  · exact fun ⟨_, pending⟩ => coherent.exists_waiting pending

theorem pending_eq (coherent : s.Coherent) :
    s.pending = (List.range s.nextId).countP s.isPending := by
  calc s.pending = s.stored.countP fun t => s.isPending t.id := (gather_perm s).countP_eq _
    _ = s.waiting.length := List.countP_eq_length_filter
    _ = (s.waiting.map (·.id)).length := (List.length_map _).symm
    _ = ((List.range s.nextId).filter s.isPending).length := coherent.waiting_ids.length_eq
    _ = (List.range s.nextId).countP s.isPending := List.countP_eq_length_filter.symm

theorem nextDueIn_eq (coherent : s.Coherent) :
    s.nextDueIn.map Span.nanos = (s.waiting.map fun t => t.due - s.now).min? := by
  have same : s.look.1.lobby.Perm s.waiting := (gather_perm s).filter _
  have sorted := coherent.look.sorted
  have reported : s.nextDueIn = s.look.1.lobby.head?.map fun t => ⟨t.due - s.now⟩ := rfl
  rw [reported]
  cases lobby : s.look.1.lobby with
  | nil =>
    rw [lobby] at same
    rw [same.nil_eq.symm]
    rfl
  | cons first rest =>
    rw [lobby] at same sorted
    refine Eq.symm (List.min?_eq_some_iff.mpr ⟨?_, fun time member => ?_⟩)
    · exact List.mem_map.mpr ⟨first, same.mem_iff.mp List.mem_cons_self, rfl⟩
    · obtain ⟨t, there, rfl⟩ := List.mem_map.mp member
      rcases List.mem_cons.mp (same.mem_iff.mpr there) with rfl | later
      · exact Nat.le_refl _
      · exact Nat.sub_le_sub_right (List.rel_of_pairwise_cons sorted later).due_le s.now

theorem toExact (coherent : s.Coherent) : s.Exact where
  pending_iff := coherent.isPending_iff
  pending := coherent.pending_eq
  nextDueIn := coherent.nextDueIn_eq

end Coherent

/-- In any run of calls, all accounts agree at every step. In each pass of the run, the pending tasks
afterwards are those from before and those armed meanwhile, less those that ran and those cancelled
meanwhile. If the pass ends well, it returns how many ran, nothing pending is due at its reading,
and whatever waited at any time before and is due by then has run since or was cancelled. If it
fails, the task that failed ran last. -/
theorem nothing_lost
    (run : σ → Schedule α → α → σ × List (Move α) × Option ε) (start : UInt64)
    (calls : List (Call σ α)) :
    let s : Schedule α := { now := start.toNat }
    (∀ part rest, s.calledSteps run calls = part ++ rest → (s.through part).Exact) ∧
    ∀ before world steps after, calls = before ++ .pass world steps :: after →
      let met := s.called run before
      let pass := met.runDue run steps world
      let log := met.log (met.callSteps run (.pass world steps))
      (∀ t, t ∈ pass.schedule.waiting ↔
        (t ∈ met.waiting ∨ .armed t ∈ log) ∧ t ∉ pass.ran ∧ .cancelled t.id ∉ log) ∧
      (∀ count, pass.outcome = .done count →
        count = pass.ran.length ∧ (∀ t ∈ pass.schedule.waiting, met.now < t.due) ∧
        ∀ first more, before = first ++ more → ∀ t ∈ (s.called run first).waiting,
          t.due ≤ met.now →
            Left t ((s.called run first).log ((s.called run first).calledSteps run
              (more ++ [.pass world steps])))) ∧
      (∀ id failure, pass.outcome = .failed id failure →
        ∃ t, pass.ran.getLast? = some t ∧ t.id = id) := by
  intro s
  have coherent : s.Coherent := coherent_start start
  refine ⟨fun part rest _ => (coherent.through part).toExact, ?_⟩
  intro before world steps after _ met pass log
  have kept : met.Coherent := coherent.called before
  have spec := passSteps_spec run met.now steps 0 world met
  have ended : met.through (met.callSteps run (.pass world steps)) = pass.schedule := spec.1
  have ran : ∀ t, t ∈ pass.ran ↔ .ran t ∈ log := fun t => by
    rw [show pass.ran = ranIn log from spec.2.symm, mem_ranIn]
  refine ⟨fun t => ?_, fun count done => ?_, fun id failure failed => of_failed failed⟩
  · rw [← ended, waiting_through kept, ran, Left, not_or]
  · obtain ⟨counted, none⟩ := of_done kept done
    have later : ∀ t ∈ pass.schedule.waiting, met.now < t.due :=
      fun t there => none t (mem_waiting.mp there).1
    refine ⟨counted.trans (Nat.zero_add _), later, fun first more split t there due => ?_⟩
    -- a task that stayed would be pending after the pass, where nothing is due any more
    by_contra stays
    have reached : (s.called run first).through ((s.called run first).calledSteps run
        (more ++ [.pass world steps])) = pass.schedule := by
      rw [through_calledSteps, ← called_append, ← List.append_assoc, ← split, called_append]
      rfl
    have still : t ∈ pass.schedule.waiting := by
      rw [← reached]
      exact (waiting_through (coherent.called first) _ t).mpr ⟨Or.inl there, stays⟩
    exact absurd due (Nat.not_le.mpr (later t still))

/-- A task that is not due waits while a pass fails, and runs in a later one. -/
theorem relay_runs_later :
    let met := ({ now := (0 : UInt64).toNat } : Schedule Nat).called relay relayCalls
    (met.runDue relay 9 ()).outcome = .failed 3 "failure" ∧
      Left ⟨1, 20, 2⟩ ((met.runDue relay 9 ()).schedule.log
        ((met.runDue relay 9 ()).schedule.calledSteps relay [.move (.advance ⟨5⟩), .pass () 9])) := by
  have kept := nothing_lost relay 0 (relayCalls ++ [.pass () 9, .move (.advance ⟨5⟩), .pass () 9])
  have second := kept.2 (relayCalls ++ [.pass () 9, .move (.advance ⟨5⟩)]) () 9 [] rfl
  have later := (second.2.1 1 rfl).2.2 (relayCalls ++ [.pass () 9]) [.move (.advance ⟨5⟩)] rfl
  exact ⟨rfl, later ⟨1, 20, 2⟩ (List.mem_cons_self) (by decide)⟩

end Cohort.Schedule
