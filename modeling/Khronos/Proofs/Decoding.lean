import Khronos.Core.Readings
import Khronos.Lib.Batches
import Khronos.Proofs.Backed
import Khronos.Server.Listings
import Khronos.Server.Texts

namespace Khronos.Proofs
open Time Lib Db.Activities Db.Workflows Server

theorem runs_parseDatetime {d : DateTime} (h : d.Representable) :
    Db.Workflows.parseDatetime d.format = .ok d.trunc := by
  unfold Db.Workflows.parseDatetime
  rw [List.findSome?_cons, parse_format h]
  rfl

/-- No format has an offset, so none gives an instant where one is needed. -/
theorem steps_zoned_none (s : String) : ["%Y-%m-%d %H:%M:%S", "%Y-%m-%dT%H:%M:%S%.fZ",
    "%Y-%m-%dT%H:%M:%SZ", "%Y-%m-%dT%H:%M:%S"].findSome? (DateTime.parseFromStr s) = none :=
  findSome?_without_offset (by decide) s

theorem runs_zoned_none (s : String) :
    ["%Y-%m-%dT%H:%M:%S%.fZ", "%Y-%m-%dT%H:%M:%SZ"].findSome? (DateTime.parseFromStr s) = none :=
  findSome?_without_offset (by decide) s

/-- The first naive format reads it. -/
theorem steps_parseDatetime {d : DateTime} (h : d.Representable) :
    Db.Activities.parseDatetime d.format = .ok d.trunc := by
  unfold Db.Activities.parseDatetime
  rw [steps_zoned_none, List.findSome?_cons, parse_format h]
  rfl

/-- What the decoders of rows need of the tables: the policies are those of the built-in
definitions, and every time was written of an instant that exists. -/
structure Readable (db : Db) : Prop where
  builtIn : BuiltIn db
  retries : ∀ s ∈ db.workflowSteps, ∀ t ∈ s.nextRetryAt, Stamp t
  started : ∀ r ∈ db.workflows, ∀ t ∈ r.startedAt, Stamp t
  completed : ∀ r ∈ db.workflows, ∀ t ∈ r.completedAt, Stamp t

theorem Readable.empty : Readable .empty := by
  refine ⟨?_, ?_, ?_, ?_⟩ <;> simp [BuiltIn, Db.empty]

theorem Readable.updateRuns (h : Readable db) (p : WorkflowRow → Bool)
    {f : WorkflowRow → WorkflowRow}
    (hs : ∀ r, (∀ t ∈ r.startedAt, Stamp t) → ∀ t ∈ (f r).startedAt, Stamp t)
    (hc : ∀ r, (∀ t ∈ r.completedAt, Stamp t) → ∀ t ∈ (f r).completedAt, Stamp t) :
    Readable { db with workflows := Table.update p f db.workflows } where
  builtIn := h.builtIn
  retries := h.retries
  started := by
    intro r hr
    obtain ⟨q, hq, rfl⟩ := Table.mem_update.mp hr
    split
    · exact hs q (h.started q hq)
    · exact h.started q hq
  completed := by
    intro r hr
    obtain ⟨q, hq, rfl⟩ := Table.mem_update.mp hr
    split
    · exact hc q (h.completed q hq)
    · exact h.completed q hq

theorem Readable.updateSteps (h : Readable db) (p : WorkflowStepRow → Bool)
    {f : WorkflowStepRow → WorkflowStepRow}
    (hp : ∀ s, (f s).retryPolicyJson = s.retryPolicyJson)
    (hr : ∀ s, ∀ t ∈ (f s).nextRetryAt, Stamp t) :
    Readable { db with workflowSteps := Table.update p f db.workflowSteps } where
  builtIn := by
    intro s hs
    obtain ⟨q, hq, rfl⟩ := Table.mem_update.mp hs
    split
    · rw [hp]
      exact h.builtIn q hq
    · exact h.builtIn q hq
  retries := by
    intro s hs
    obtain ⟨q, hq, rfl⟩ := Table.mem_update.mp hs
    split
    · exact hr q
    · exact h.retries q hq
  started := h.started
  completed := h.completed

theorem stamp_some (now : Clock) : ∀ t ∈ some now.datetime, Stamp t := by
  intro t ht
  cases ht
  exact clock_stamp now

theorem startRun_stamp (now : Clock) (r : WorkflowRow) (h : ∀ t ∈ r.startedAt, Stamp t) :
    ∀ t ∈ (Engine.startRun now r).startedAt, Stamp t := by
  unfold Engine.startRun
  cases hs : r.startedAt with
  | none => exact stamp_some now
  | some t => simpa [hs] using h

/-- Every write leaves the tables readable. -/
theorem Write.readable (h : Write db db') (hd : Readable db) : Readable db' := by
  cases h with
  | still => exact hd
  | insertRun r hid hstate hstarted hcompleted =>
    refine ⟨hd.builtIn, hd.retries, ?_, ?_⟩
    · intro q hq
      rcases List.mem_append.mp hq with hq | hq
      · exact hd.started q hq
      · rw [List.mem_singleton.mp hq]
        exact hstarted
    · intro q hq
      rcases List.mem_append.mp hq with hq | hq
      · exact hd.completed q hq
      · rw [List.mem_singleton.mp hq, hcompleted]
        simp
  | updateRun runId state done =>
    exact hd.updateRuns _ (fun _ h => h) (fun _ _ => stamp_some done)
  | cancelRun runId now => exact hd.updateRuns _ (fun _ h => h) (fun _ _ => stamp_some now)
  | startRun runId now => exact hd.updateRuns _ (startRun_stamp now) (fun _ h => h)
  | insertStep s hid hrun hstate hpolicy hretry =>
    refine ⟨?_, ?_, hd.started, hd.completed⟩
    · intro q hq
      rcases List.mem_append.mp hq with hq | hq
      · exact hd.builtIn q hq
      · rw [List.mem_singleton.mp hq]
        exact hpolicy
    · intro q hq
      rcases List.mem_append.mp hq with hq | hq
      · exact hd.retries q hq
      · rw [List.mem_singleton.mp hq, hretry]
        simp
  | updateStep stepId state attempt result retryAt hstate hretry =>
    exact hd.updateSteps _ (fun _ => rfl) (fun _ => hretry)
  | resetStep stepId => exact hd.updateSteps _ (fun _ => rfl) (by simp [Engine.resetStep])
  | insertActivity a hid hstep => exact ⟨hd.1, hd.2, hd.3, hd.4⟩
  | updateActivity id state now result message => exact ⟨hd.1, hd.2, hd.3, hd.4⟩
  | heartbeat id now => exact ⟨hd.1, hd.2, hd.3, hd.4⟩
  | writeSchedules rows => exact ⟨hd.1, hd.2, hd.3, hd.4⟩

theorem reachable_readable (hw : (server crates).Reachable w) : Readable w.db ∧ WellFormed w.db := by
  apply hw.keeps (P := fun w => Readable w.db ∧ WellFormed w.db)
  · rintro w rfl
    exact ⟨Readable.empty, WellFormed.empty⟩
  · rintro w call ⟨hr, hw⟩ _
    exact ⟨(exec_writes crates call.env call.op).after Write.readable hr,
      step_wellFormed crates call hw⟩

theorem mapM_stamp {f : String → Except DbError DateTime}
    (hf : ∀ d : DateTime, d.Representable → f d.format = .ok d.trunc) {o : Option String}
    (ho : ∀ t ∈ o, Stamp t) : ∃ d, o.mapM f = .ok d := by
  cases o with
  | none => exact ⟨none, rfl⟩
  | some t =>
    obtain ⟨d, hd, rfl⟩ := ho t rfl
    exact ⟨some d.trunc, by simp [Option.mapM_some, hf d hd]⟩

section
variable {crates : Crates} {codec : Db.Codec} (hcodec : codec.ReadsBack crates builtInPolicies)
include hcodec

theorem run_decodes (hd : Readable db) (hr : r ∈ db.workflows) :
    ∃ wf, rowToWorkflow crates codec (workflowColumns crates r) = .ok wf := by
  obtain ⟨startedAt, hs⟩ := mapM_stamp (fun _ => runs_parseDatetime) (hd.started r hr)
  obtain ⟨completedAt, hc⟩ := mapM_stamp (fun _ => runs_parseDatetime) (hd.completed r hr)
  unfold rowToWorkflow workflowColumns
  simp only [hcodec.uuid, hcodec.json, Db.strToWorkflowState_toStr, hcodec.optional, hs, hc,
    Db.parsed_some]
  exact ⟨_, rfl⟩

/-- A step that a poll selects is decoded, also on the columns themselves. -/
theorem step_decodes (hd : Readable db) (hw : WellFormed db) (hs : s ∈ db.workflowSteps) :
    ∃ step, columnsToStep crates codec (stepColumns crates codec s) = .ok step ∧
      rowToStep s = .ok step := by
  obtain ⟨next, hnext⟩ := mapM_stamp (fun _ => steps_parseDatetime) (hd.retries s hs)
  have hstate : ∃ state, strToWorkflowState s.state = .ok state := by
    have hn := hw.noRetried s hs
    cases he : s.state with
    | retried => exact absurd he hn
    | pending => exact ⟨_, rfl⟩
    | running => exact ⟨_, rfl⟩
    | completed => exact ⟨_, rfl⟩
    | failed => exact ⟨_, rfl⟩
  obtain ⟨state, hstate⟩ := hstate
  rw [columnsToStep_stepColumns hcodec (hd.builtIn s hs)]
  unfold rowToStep
  simp only [hstate, hnext]
  exact ⟨_, rfl, rfl⟩

theorem getWorkflow_read (hd : Readable w.db) (req : GetWorkflowRequest) :
    ((Server.getWorkflow crates codec req).run w).1 = .error ⟨.notFound, "Workflow not found"⟩ ∨
      ∃ info, ((Server.getWorkflow crates codec req).run w).1 = .ok info := by
  unfold Server.getWorkflow Db.Workflows.getWorkflow
  rw [Prog.run_bind, Prog.run_mapError, run_query]
  cases hf : w.db.workflows.filter (fun r => runKey r = req.workflowRunId) with
  | nil => exact .inl rfl
  | cons r rest =>
    have hr : r ∈ w.db.workflows := (List.mem_filter.mp (hf ▸ List.mem_cons_self)).1
    obtain ⟨wf, hwf⟩ := run_decodes hcodec hd hr
    simp only [hwf]
    exact .inr ⟨_, rfl⟩

theorem listWorkflows_read (hd : Readable w.db) (req : ListWorkflowsRequest) :
    ∃ infos, ((Server.listWorkflows crates codec req).run w).1 = .ok infos := by
  have hrows : ∀ r ∈ newestFirst (w.db.workflows.filter (inNamespace (orDefault req.nameSpace) none)),
      ∃ wf, rowToWorkflow crates codec (workflowColumns crates r) = .ok wf ∧ True := by
    intro r hr
    rw [newestFirst, List.mem_insertionSort] at hr
    obtain ⟨wf, hwf⟩ := run_decodes hcodec hd (List.mem_filter.mp hr).1
    exact ⟨wf, hwf, trivial⟩
  obtain ⟨wfs, hwfs, _⟩ := mapM_ok hrows
  unfold Server.listWorkflows Db.Workflows.listWorkflows
  rw [Prog.run_bind, Prog.run_mapError, run_query, hwfs]
  exact ⟨_, rfl⟩

omit hcodec in
theorem pendingSteps_read (now : Clock) (hd : Readable db) (hw : WellFormed db) :
    ∃ steps, pendingSteps now db = .ok steps := by
  have hrows : ∀ s ∈ byCreation (db.workflowSteps.filter (ready now)),
      ∃ step, rowToStep s = .ok step ∧ True := by
    intro s hs
    rw [byCreation, List.mem_insertionSort] at hs
    obtain ⟨step, _, hstep⟩ := step_decodes reading hd hw (List.mem_filter.mp hs).1
    exact ⟨step, hstep, trivial⟩
  obtain ⟨steps, hsteps, _⟩ := mapM_ok hrows
  exact ⟨steps, hsteps⟩

/-- In every reachable state, every row of a run and every step that a poll selects is decoded,
and no poll and no request for runs fails over one that is not. -/
theorem rows_decode (hw : (server crates).Reachable w) :
    (∀ r ∈ w.db.workflows,
      ∃ wf, rowToWorkflow crates codec (workflowColumns crates r) = .ok wf) ∧
    (∀ now, ∀ s ∈ w.db.workflowSteps, ready now s = true →
      ∃ step, columnsToStep crates codec (stepColumns crates codec s) = .ok step ∧
        rowToStep s = .ok step) ∧
    (∀ env, Fresh w.db env →
      (∀ req status, ((pollActivity env req).run w).1 ≠ .error status) ∧
      ∀ req status, ((pollActivityTaskQueue crates env req).run w).1 ≠ .error status) ∧
    (∀ req, ((Server.getWorkflow crates codec req).run w).1 = .error ⟨.notFound, "Workflow not found"⟩ ∨
      ∃ info, ((Server.getWorkflow crates codec req).run w).1 = .ok info) ∧
    ∀ req, ∃ infos, ((Server.listWorkflows crates codec req).run w).1 = .ok infos := by
  obtain ⟨hd, hwf⟩ := reachable_readable hw
  refine ⟨fun r hr => run_decodes hcodec hd hr, fun _ s hs _ => step_decodes hcodec hd hwf hs,
    fun env hf => ⟨?_, ?_⟩, getWorkflow_read hcodec hd, listWorkflows_read hcodec hd⟩
  · intro req status he
    obtain ⟨⟨e, hp⟩, _⟩ := pollActivity_error hf he
    obtain ⟨steps, hs⟩ := pendingSteps_read (env.now 0) hd hwf
    rw [hs] at hp
    cases hp
  · intro req status he
    obtain ⟨⟨e, hp⟩, _⟩ := pollActivityTaskQueue_error hf he
    obtain ⟨steps, hs⟩ := pendingSteps_read (env.now 0) hd hwf
    rw [hs] at hp
    cases hp

end

/-- A run is started, its step is handed out and fails, and waits to be retried. -/
def failedOnce : List Op :=
  [.startWorkflow ⟨"x", [], "", "", none, ""⟩, .pollActivity ⟨"", ["x"]⟩,
    .reportActivityFailure ⟨"id-10", "failed"⟩]

theorem failedOnce_decodes :
    (∃ s ∈ ((server readingCrates).ending .empty (script failedOnce)).db.workflowSteps,
      s.nextRetryAt.isSome = true) ∧
    ∀ req, ∃ infos, ((Server.listWorkflows readingCrates readingCodec req).run
      ((server readingCrates).ending .empty (script failedOnce))).1 = .ok infos := by
  have hadmitted : (server readingCrates).Admitted .empty (script failedOnce) := by decide +kernel
  have hw : (server readingCrates).Reachable ((server readingCrates).ending .empty
      (script failedOnce)) := ⟨.empty, _, rfl, Machine.run_replay _ _ hadmitted⟩
  exact ⟨by decide +kernel, (rows_decode reading hw).2.2.2.2⟩

end Khronos.Proofs
