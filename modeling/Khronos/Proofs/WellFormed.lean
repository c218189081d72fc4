import Khronos.Proofs.Writes

namespace Khronos.Proofs
open Time Lib Db.Activities Db.Workflows Server

/-- What the schema promises of the tables: one row for each id, no step without its run and
no activity without its step. No statement of the server writes `retried`. -/
structure WellFormed (db : Db) : Prop where
  runs : Table.Keyed runKey db.workflows
  steps : Table.Keyed stepKey db.workflowSteps
  activities : Table.Keyed activityKey db.activities
  ofRun : ∀ s ∈ db.workflowSteps, ∃ r ∈ db.workflows, r.runId = s.workflowRunId
  ofStep : ∀ a ∈ db.activities, ∃ s ∈ db.workflowSteps, s.id = a.stepId
  noRetried : ∀ s ∈ db.workflowSteps, s.state ≠ .retried

theorem key_iff {u v : Uuid} : u.text = v.text ↔ u = v := by
  cases u
  cases v
  simp

theorem WellFormed.empty : WellFormed .empty := by
  refine ⟨?_, ?_, ?_, ?_, ?_, ?_⟩ <;> simp [Db.empty, Table.Keyed]

theorem WellFormed.updateRuns (h : WellFormed db) (p : WorkflowRow → Bool)
    {f : WorkflowRow → WorkflowRow} (hf : ∀ r, (f r).runId = r.runId) :
    WellFormed { db with workflows := Table.update p f db.workflows } where
  runs := h.runs.update p f (fun r _ _ => by simp [runKey, hf])
  steps := h.steps
  activities := h.activities
  ofRun := by
    intro s hs
    obtain ⟨r, hr, he⟩ := h.ofRun s hs
    refine ⟨_, Table.update_mem hr, ?_⟩
    split
    · rw [hf, he]
    · exact he
  ofStep := h.ofStep
  noRetried := h.noRetried

theorem WellFormed.updateSteps (h : WellFormed db) (p : WorkflowStepRow → Bool)
    {f : WorkflowStepRow → WorkflowStepRow}
    (hf : ∀ r, (f r).id = r.id ∧ (f r).workflowRunId = r.workflowRunId ∧ (f r).state ≠ .retried) :
    WellFormed { db with workflowSteps := Table.update p f db.workflowSteps } where
  runs := h.runs
  steps := h.steps.update p f (fun r _ _ => by simp [stepKey, hf])
  activities := h.activities
  ofRun := by
    intro s hs
    obtain ⟨r, hr, rfl⟩ := Table.mem_update.mp hs
    split
    · rw [(hf r).2.1]
      exact h.ofRun r hr
    · exact h.ofRun r hr
  ofStep := by
    intro a ha
    obtain ⟨r, hr, he⟩ := h.ofStep a ha
    refine ⟨_, Table.update_mem hr, ?_⟩
    split
    · rw [(hf r).1, he]
    · exact he
  noRetried := by
    intro s hs
    obtain ⟨r, hr, rfl⟩ := Table.mem_update.mp hs
    split
    · exact (hf r).2.2
    · exact h.noRetried r hr

theorem WellFormed.updateActivities (h : WellFormed db) (p : ActivityRow → Bool)
    {f : ActivityRow → ActivityRow} (hf : ∀ r, (f r).id = r.id ∧ (f r).stepId = r.stepId) :
    WellFormed { db with activities := Table.update p f db.activities } where
  runs := h.runs
  steps := h.steps
  activities := h.activities.update p f (fun r _ _ => by simp [activityKey, hf])
  ofRun := h.ofRun
  ofStep := by
    intro a ha
    obtain ⟨r, hr, rfl⟩ := Table.mem_update.mp ha
    split
    · rw [(hf r).2]
      exact h.ofStep r hr
    · exact h.ofStep r hr
  noRetried := h.noRetried

theorem WellFormed.addRun (h : WellFormed db) (r : WorkflowRow)
    (hn : ¬ ∃ q ∈ db.workflows, q.runId = r.runId) :
    WellFormed { db with workflows := db.workflows ++ [r] } where
  runs := h.runs.append r (fun q hq he => hn ⟨q, hq, key_iff.mp he⟩)
  steps := h.steps
  activities := h.activities
  ofRun := by
    intro s hs
    obtain ⟨q, hq, he⟩ := h.ofRun s hs
    exact ⟨q, List.mem_append_left _ hq, he⟩
  ofStep := h.ofStep
  noRetried := h.noRetried

theorem WellFormed.addStep (h : WellFormed db) (s : WorkflowStepRow)
    (hn : ¬ ∃ q ∈ db.workflowSteps, q.id = s.id)
    (hr : ∃ r ∈ db.workflows, r.runId = s.workflowRunId) (hs : s.state ≠ .retried) :
    WellFormed { db with workflowSteps := db.workflowSteps ++ [s] } where
  runs := h.runs
  steps := h.steps.append s (fun q hq he => hn ⟨q, hq, key_iff.mp he⟩)
  activities := h.activities
  ofRun := by
    intro q hq
    rcases List.mem_append.mp hq with hq | hq
    · exact h.ofRun q hq
    · rw [List.mem_singleton.mp hq]
      exact hr
  ofStep := by
    intro a ha
    obtain ⟨q, hq, he⟩ := h.ofStep a ha
    exact ⟨q, List.mem_append_left _ hq, he⟩
  noRetried := by
    intro q hq
    rcases List.mem_append.mp hq with hq | hq
    · exact h.noRetried q hq
    · rw [List.mem_singleton.mp hq]
      exact hs

theorem WellFormed.addActivity (h : WellFormed db) (a : ActivityRow)
    (hn : ¬ ∃ q ∈ db.activities, q.id = a.id)
    (hs : ∃ s ∈ db.workflowSteps, s.id = a.stepId) :
    WellFormed { db with activities := db.activities ++ [a] } where
  runs := h.runs
  steps := h.steps
  activities := h.activities.append a (fun q hq he => hn ⟨q, hq, key_iff.mp he⟩)
  ofRun := h.ofRun
  ofStep := by
    intro q hq
    rcases List.mem_append.mp hq with hq | hq
    · exact h.ofStep q hq
    · rw [List.mem_singleton.mp hq]
      exact hs
  noRetried := h.noRetried

/-- No write breaks the schema. -/
theorem Write.wellFormed (h : Write db db') (hd : WellFormed db) : WellFormed db' := by
  cases h with
  | still => exact hd
  | insertRun r hid => exact hd.addRun r hid
  | updateRun runId state done => exact hd.updateRuns _ (fun _ => rfl)
  | cancelRun runId now => exact hd.updateRuns _ (fun _ => rfl)
  | startRun runId now => exact hd.updateRuns _ (fun _ => rfl)
  | insertStep s hid hrun hstate => exact hd.addStep s hid hrun (by simp [hstate])
  | updateStep stepId state attempt result retryAt hstate =>
    exact hd.updateSteps _ (fun _ => ⟨rfl, rfl, hstate⟩)
  | resetStep stepId => exact hd.updateSteps _ (fun _ => ⟨rfl, rfl, by simp [Engine.resetStep]⟩)
  | insertActivity a hid hstep => exact hd.addActivity a hid hstep
  | updateActivity id state now result message => exact hd.updateActivities _ (fun _ => ⟨rfl, rfl⟩)
  | heartbeat id now => exact hd.updateActivities _ (fun _ => ⟨rfl, rfl⟩)
  | writeSchedules rows => exact ⟨hd.1, hd.2, hd.3, hd.4, hd.5, hd.6⟩

theorem step_wellFormed (crates : Crates) (call : Call) (h : WellFormed w.db) :
    WellFormed ((server crates).step w call).2.db :=
  (exec_writes crates call.env call.op).after Write.wellFormed h

end Khronos.Proofs
