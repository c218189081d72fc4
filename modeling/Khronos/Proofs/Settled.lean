import Khronos.Proofs.Backed
import Khronos.Server.Replays

namespace Khronos.Proofs
open Time Lib Db.Activities Db.Workflows Server

/-- A failed step holds no result. -/
def Resultless (db : Db) : Prop := ∀ s ∈ db.workflowSteps, s.state = .failed → s.resultJson = none

theorem failedStep_result (counted : UInt32) (policy : RetryPolicy) (due : Option DateTime)
    (s : WorkflowStepRow) :
    (failedStep counted policy due s).resultJson = none ∨ failedStep counted policy due s = s := by
  unfold failedStep
  split
  · cases due with
    | some d => exact .inl rfl
    | none => exact .inr rfl
  · exact .inl rfl

theorem moved_resultless {crates : Crates} (hw : WellFormed db) (hr : Resultless db)
    (hm : Moved crates env op db db') : Resultless db' := by
  intro s' hs' hstate
  cases hm with
  | still hs ha => exact hr s' (hs ▸ hs') hstate
  | beaten id hs ha => exact hr s' (hs ▸ hs') hstate
  | started new hop hnew hs ha =>
    rw [hs] at hs'
    rcases List.mem_append.mp hs' with hold | hold
    · exact hr s' hold hstate
    · exact (hnew.waits s' hold).2.2.1
  | dispatched s hc hs ha =>
    rw [hs, mem_dispatched_steps hw (chosen_mem hc).1] at hs'
    rcases hs' with rfl | ⟨hold, _⟩
    · cases hstate
    · exact hr s' hold hstate
  | reported id rep hop a s hact hstep hh hs ha =>
    have hmem := (stepOf_mem hstep).1
    rw [hs, mem_reported_steps hw hmem] at hs'
    rcases hs' with rfl | ⟨hold, _⟩
    · cases rep with
      | result json => cases hstate
      | failure message =>
        rcases failedStep_result _ _ _ s with h | h
        · exact h
        · simp only [Report.write, h] at hstate ⊢
          exact hr s hmem hstate
      | timeout =>
        rcases failedStep_result _ _ _ s with h | h
        · exact h
        · simp only [Report.write, h] at hstate ⊢
          exact hr s hmem hstate
    · exact hr s' hold hstate

/-- The report says of a settled step what has been said of it already. -/
def Report.repeats (a : ActivityRow) (s : WorkflowStepRow) : Report → Prop
  | .result json => s.state = .completed ∧ s.resultJson = some json
  | rep => s.state = .failed ∧ rep.final a.attempt s.retryPolicyJson = true

/-- A report or a timeout is heard on an activity of a settled step, and says something else
than the outcome the step has. -/
def Unsettles (crates : Crates) (db : Db) (op : Op) : Prop :=
  ∃ id rep a s, reportOf crates op = some (id, rep) ∧ activityOf db id = some a ∧
    stepOf db a.stepId = some s ∧ rep.heard a ∧ s.state.settled = true ∧ ¬ rep.repeats a s

/-- Every settled step keeps its state and its result. -/
def KeepsSettled (τ : ServerStep) : Prop :=
  ∀ s ∈ τ.before.db.workflowSteps, s.state.settled = true →
    ∃ s' ∈ τ.after.db.workflowSteps, s'.id = s.id ∧ s'.state = s.state ∧
      s'.resultJson = s.resultJson

/-- A report leaves state and result of a settled step alone exactly when it repeats them. -/
theorem write_settled_iff (hp : s.retryPolicyJson ∈ builtInPolicies)
    (hr : s.state = .failed → s.resultJson = none) (hset : s.state.settled = true) (env : Env)
    (rep : Report) (a : ActivityRow) :
    ((rep.write env a.attempt s.retryPolicyJson s).state = s.state ∧
      (rep.write env a.attempt s.retryPolicyJson s).resultJson = s.resultJson) ↔
      rep.repeats a s := by
  have hfailed : ∀ rep : Report,
      ((failedStep (rep.counted a.attempt) s.retryPolicyJson
        (rep.due env a.attempt s.retryPolicyJson) s).state = s.state ∧
      (failedStep (rep.counted a.attempt) s.retryPolicyJson
        (rep.due env a.attempt s.retryPolicyJson) s).resultJson = s.resultJson) ↔
      (s.state = .failed ∧
        (!decide (rep.counted a.attempt < s.retryPolicyJson.maximumAttempts)) = true) := by
    intro rep
    by_cases hlt : rep.counted a.attempt < s.retryPolicyJson.maximumAttempts
    · obtain ⟨due, hdue⟩ := Option.isSome_iff_exists.mp (builtIn_due hp hlt env)
      have hn : StepState.pending ≠ s.state := by
        intro h
        rw [← h] at hset
        cases hset
      simp [failedStep, hlt, hdue, setStep, hn]
    · simp only [failedStep, if_neg hlt, setStep]
      simp only [hlt, decide_false, Bool.not_false, and_true]
      constructor
      · exact fun h => h.1.symm
      · exact fun h => ⟨h.symm, (hr h).symm⟩
  cases rep with
  | result json =>
    simp only [Report.write, setStep, Report.repeats]
    exact and_congr eq_comm eq_comm
  | failure message => exact hfailed (.failure message)
  | timeout => exact hfailed .timeout

/-- An operation keeps the settled steps exactly when it unsettles none. -/
theorem step_settled_iff (hw : WellFormed w.db) (hp : BuiltIn w.db) (hr : Resultless w.db)
    {call : Call} (hc : (server crates).admits w call) :
    KeepsSettled ((server crates).transition w call) ↔ ¬ Unsettles crates w.db call.op := by
  constructor
  · rintro h ⟨id, rep, a, s, hop, hact, hstep, hh, hset, hn⟩
    have hs := (stepOf_mem hstep).1
    obtain ⟨s', hs', hid, hsame⟩ := h s hs hset
    have hsteps := exec_reported hop hact hstep hh call.env
    change s' ∈ ((exec crates call.env call.op).after w).db.workflowSteps at hs'
    rw [hsteps, mem_reported_steps hw hs] at hs'
    rcases hs' with rfl | ⟨_, hne⟩
    · exact hn ((write_settled_iff (hp s hs) (hr s hs) hset call.env rep a).mp hsame)
    · exact hne hid
  · intro h s hs hset
    have hm := step_moved hw crates hc
    rcases hm.follow hw hs with hs' | ⟨hch, _⟩ | ⟨id, rep, a, hop, hact, hstep, hh, hs'⟩
    · exact ⟨s, hs', rfl, rfl, rfl⟩
    · rw [chosen_pending hw hch] at hset
      cases hset
    · have hrep : rep.repeats a s := by
        by_contra hn
        exact h ⟨id, rep, a, s, hop, hact, hstep, hh, hset, hn⟩
      have hsame := (write_settled_iff (hp s hs) (hr s hs) hset call.env rep a).mpr hrep
      exact ⟨_, hs', (write_fixed _ _ _ _ _).id, hsame⟩

theorem run_resultless {ts : List ServerStep} (hr : (server crates).Run .empty ts w) :
    WellFormed w.db ∧ BuiltIn w.db ∧ Resultless w.db := by
  refine run_moved (P := fun db => BuiltIn db ∧ Resultless db) ?_ hr .empty
    ⟨builtIn_empty, ?_⟩
  · intro db db' env op hw _ hp hm
    exact ⟨moved_builtIn hw hp.1 hm, moved_resultless hw hp.2 hm⟩
  · intro s hs
    cases hs

/-- In a run of the server the settled steps keep their state and their result at every step
exactly when no step of the run unsettles one. -/
theorem run_settled_iff {ts : List ServerStep} (hr : (server crates).Run .empty ts w) :
    (∀ τ ∈ ts, KeepsSettled τ) ↔ ∀ τ ∈ ts, ¬ Unsettles crates τ.before.db τ.input.op := by
  refine forall₂_congr (fun τ hτ => ?_)
  obtain ⟨us, vs, rfl⟩ := List.append_of_mem hτ
  obtain ⟨hu, hi, he, _⟩ := hr.at
  obtain ⟨hw, hp, hres⟩ := run_resultless hu
  rw [he]
  exact step_settled_iff hw hp hres hi

/-- A worker reports a result, and then a failure of the same activity. -/
def lateFailure : List Op :=
  [.startWorkflow ⟨"x", [], "", "", none, ""⟩, .pollActivity ⟨"", ["x"]⟩,
    .reportActivityResult ⟨"id-10", ""⟩, .reportActivityFailure ⟨"id-10", "late"⟩]

theorem late_failure_settled_iff :
    (server plainCrates).Run .empty ((server plainCrates).replay .empty (script lateFailure))
        ((server plainCrates).ending .empty (script lateFailure)) ∧
      ((∀ τ ∈ (server plainCrates).replay .empty (script lateFailure), KeepsSettled τ) ↔
        ∀ τ ∈ (server plainCrates).replay .empty (script lateFailure),
          ¬ Unsettles plainCrates τ.before.db τ.input.op) :=
  have hr := script_run lateFailure (by decide +kernel)
  ⟨hr, run_settled_iff hr⟩

theorem late_failure_unsettles :
    ¬ ∀ (crates : Crates) (ts : List ServerStep) (w : World),
      (server crates).Run .empty ts w → ∀ τ ∈ ts, KeepsSettled τ := by
  intro h
  have hlost : ∃ τ ∈ (server plainCrates).replay .empty (script lateFailure),
      ∃ s ∈ τ.before.db.workflowSteps, s.state.settled = true ∧
        ∀ s' ∈ τ.after.db.workflowSteps, s'.id = s.id → s'.state ≠ s.state := by
    decide +kernel
  obtain ⟨τ, hτ, s, hs, hset, hn⟩ := hlost
  obtain ⟨s', hs', hid, hstate, _⟩ :=
    h plainCrates _ _ (script_run lateFailure (by decide +kernel)) τ hτ s hs hset
  exact hn s' hs' hid hstate

end Khronos.Proofs
