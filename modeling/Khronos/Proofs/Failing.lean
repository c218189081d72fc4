import Khronos.Proofs.Backoff
import Khronos.Proofs.Ended

namespace Khronos.Proofs
open Time Lib Db.Activities Db.Workflows Server Engine

theorem after_handleStepCompleted (env : Env) (runId : String) (w : World) :
    (handleStepCompleted env runId).after w =
      { w with db := processed (env.part 0) runId w.db } := by
  change ((advanceRun env runId).run w).2 = _
  rw [run_advanceRun]

/-- With a failed step in the run, the engine's verdict is failure as soon as no step waits. -/
theorem decided_failed_iff {u : Uuid} {db : Db}
    (hfailed : ∃ s ∈ db.workflowSteps, s.workflowRunId = u ∧ s.state = .failed) :
    decided u.text db = some .failed ↔
      ∀ s ∈ db.workflowSteps, s.workflowRunId = u → waiting s = false := by
  rw [decided_iff]
  exact and_iff_left hfailed

theorem advancedState_failed_iff {db : Db} {r : WorkflowRow} (hactive : active r = true) :
    advancedState db r = .failed ↔ decided r.runId.text db = some .failed := by
  unfold active at hactive
  unfold advancedState runKey
  cases decided r.runId.text db with
  | some state => simp
  | none => cases hs : r.state <;> simp_all

/-- A report has the engine fail an active run with a failed step exactly when no step of the
run waits for a worker. -/
theorem stepCompleted_fails_iff (env : Env) {w : World} {r : WorkflowRow}
    (hr : r ∈ w.db.workflows) (hactive : active r = true)
    (hfailed : ∃ s ∈ w.db.workflowSteps, s.workflowRunId = r.runId ∧ s.state = .failed) :
    (∀ r' ∈ ((handleStepCompleted env r.runId.text).after w).db.workflows,
      r'.runId = r.runId → r'.state = .failed) ↔
      ∀ s ∈ w.db.workflowSteps, s.workflowRunId = r.runId → waiting s = false := by
  rw [after_handleStepCompleted, ← decided_failed_iff hfailed]
  obtain ⟨f, hf, hfr⟩ := processed_runs (env.part 0) r.runId.text w.db
  dsimp only
  rw [hf]
  constructor
  · intro h
    have hstate := h (f r) (List.mem_map_of_mem hr) (hfr r).1
    rw [(hfr r).2, if_pos (show runKey r = r.runId.text from rfl)] at hstate
    exact (advancedState_failed_iff hactive).mp hstate
  · intro hd r' hr' hid
    obtain ⟨q, -, rfl⟩ := List.mem_map.mp hr'
    rw [(hfr q).1] at hid
    have hkey : runKey q = r.runId.text := congrArg Uuid.text hid
    rw [(hfr q).2, if_pos hkey, advancedState, hkey, hd]
    rfl

/-- The first step of a workflow fails as often as it may. -/
def failedFirst (name activity : String) : World :=
  worldAfter [.startWorkflow ⟨name, [], "", "", none, ""⟩, .pollActivity ⟨"", [activity]⟩,
    .reportActivityFailure ⟨"id-10", "boom"⟩, .pollActivity ⟨"", [activity]⟩,
    .reportActivityFailure ⟨"id-30", "boom"⟩]

/-- The only step of a run has failed, and so has the run. -/
theorem failed_only_fails :
    ∃ r ∈ (failedFirst "x" "x").db.workflows, r.state = .running ∧
      ∀ r' ∈ ((handleStepCompleted (turn 5) r.runId.text).after
          (failedFirst "x" "x")).db.workflows, r'.runId = r.runId → r'.state = .failed := by
  have hrow : ∃ r ∈ (failedFirst "x" "x").db.workflows, r.state = .running ∧
      (∃ s ∈ (failedFirst "x" "x").db.workflowSteps,
        s.workflowRunId = r.runId ∧ s.state = .failed) ∧
      ∀ s ∈ (failedFirst "x" "x").db.workflowSteps,
        s.workflowRunId = r.runId → waiting s = false := by decide +kernel
  obtain ⟨r, hr, hstate, hfailed, hnone⟩ := hrow
  exact ⟨r, hr, hstate, (stepCompleted_fails_iff (turn 5) hr (by simp [active, hstate])
    hfailed).mpr hnone⟩

/-- The first step of the cron pipeline has failed for good, and the run goes on waiting for a
worker of its second one. -/
theorem failed_first_waits :
    ¬ ∀ (crates : Crates) (env : Env) (w : World) (r : WorkflowRow),
      (server crates).Reachable w → r ∈ w.db.workflows →
        (r.state = .pending ∨ r.state = .running) →
        (∃ s ∈ w.db.workflowSteps, s.workflowRunId = r.runId ∧ s.state = .failed) →
        (∀ s ∈ w.db.workflowSteps, s.workflowRunId = r.runId → s.state ≠ .running) →
        ∀ r' ∈ ((handleStepCompleted env r.runId.text).after w).db.workflows,
          r'.runId = r.runId → r'.state = .failed := by
  intro h
  have hrow : ∃ r ∈ (failedFirst "cron_job_workflow" "execute_cron_job").db.workflows,
      r.state = .running ∧
      (∃ s ∈ (failedFirst "cron_job_workflow" "execute_cron_job").db.workflowSteps,
        s.workflowRunId = r.runId ∧ s.state = .failed) ∧
      (∀ s ∈ (failedFirst "cron_job_workflow" "execute_cron_job").db.workflowSteps,
        s.workflowRunId = r.runId → s.state ≠ .running) ∧
      ∃ r' ∈ ((handleStepCompleted (turn 5) r.runId.text).after
          (failedFirst "cron_job_workflow" "execute_cron_job")).db.workflows,
        r'.runId = r.runId ∧ r'.state = .running := by decide +kernel
  obtain ⟨r, hr, hstate, hfailed, hidle, r', hr', hid, hrunning⟩ := hrow
  have hreach : (server plainCrates).Reachable
      (failedFirst "cron_job_workflow" "execute_cron_job") :=
    ⟨_, _, rfl, script_run _ (by decide +kernel)⟩
  have hstop := h plainCrates (turn 5) _ r hreach hr (.inr hstate) hfailed hidle r' hr' hid
  rw [hrunning] at hstop
  cases hstop

end Khronos.Proofs
