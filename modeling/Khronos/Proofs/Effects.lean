import Khronos.Proofs.Starts

namespace Khronos.Proofs
open Time Lib Db.Activities Db.Workflows Server

/-- The report an operation makes, and the id of the activity it is about. -/
def reportOf (crates : Crates) : Op → Option (String × Report)
  | .reportActivityResult req => match parsedResult crates req.resultJson with
    | .ok json => some (req.activityId, .result json)
    | .error _ => none
  | .respondActivityTaskCompleted req =>
    some (fromUtf8Lossy crates req.taskToken, .result (respondedResult crates req.result))
  | .reportActivityFailure req => some (req.activityId, .failure req.errorMessage)
  | .respondActivityTaskFailed req =>
    some (fromUtf8Lossy crates req.taskToken, .failure (req.failure.getD ""))
  | .handle (.heartbeatTimeout activityId) => some (activityId, .timeout)
  | _ => none

/-- A timer is only heard for an activity that runs. -/
def Report.heard (a : ActivityRow) : Report → Prop
  | .timeout => a.state = .running
  | _ => True

instance (rep : Report) (a : ActivityRow) : Decidable (rep.heard a) :=
  match rep with
  | .timeout => inferInstanceAs (Decidable (a.state = .running))
  | .result _ => .isTrue trivial
  | .failure _ => .isTrue trivial

def Report.failing : Report → Bool
  | .result _ => false
  | _ => true

/-- Whether a report on an attempt is its step's last. -/
def Report.final (attempt : UInt32) (policy : RetryPolicy) : Report → Bool
  | .result _ => true
  | rep => !(rep.counted attempt < policy.maximumAttempts)

theorem counted_lt {rep : Report} (h : rep.final n policy = false) :
    rep.counted n < policy.maximumAttempts := by
  cases rep with
  | result json => cases h
  | failure message => simpa [Report.final] using h
  | timeout => simpa [Report.final] using h

/-- A step is left pending by a report that is not its last, or was so before. -/
theorem write_retries (h : (Report.write env n policy rep s).state = .pending) :
    rep.final n policy = false ∨ rep.write env n policy s = s := by
  refine (write_pending h).imp (fun ⟨hlt, _⟩ => ?_) id
  cases rep with
  | result json => cases h
  | failure message => simpa [Report.final] using hlt
  | timeout => simpa [Report.final] using hlt

/-- Whether a report tells the engine of its step's end. The native failure report does not. -/
def announces (op : Op) (rep : Report) (attempt : UInt32) (policy : RetryPolicy) : Bool :=
  match op with
  | .reportActivityFailure _ => false
  | _ => rep.final attempt policy

/-- What an operation of the server does to the world. -/
inductive Effect (crates : Crates) (env : Env) (op : Op) (w : World) : World → Prop
  | still : Effect crates env op w w
  | schedules (rows : List ScheduleRow) (notify : Bool) (hop : op = .writeSchedules rows notify)
      (queue : List EngineEvent)
      (hq : queue = if notify then enqueue w.queue .scheduleChange else w.queue) :
      Effect crates env op w { w with db := { w.db with schedules := rows }, queue }
  | started (run : WorkflowRow) (new : List WorkflowStepRow) (queue : List EngineEvent)
      (hop : (∃ req, op = .startWorkflow req ∧
        queue = enqueue w.queue (.workflowCreated (env.uuid 0).text)) ∨
        ∃ req, op = .startWorkflowExecution req ∧ queue = w.queue)
      (hid : run.runId = env.uuid 0) (hstate : run.state = .pending)
      (hnew : FreshSteps env env.now w.db new) :
      Effect crates env op w { w with db := started run new w.db, queue }
  | fired (scheduleId : String) (hop : op = .scheduleFire scheduleId) (w' : World)
      (h : Fired crates env scheduleId w w') : Effect crates env op w w'
  | dispatched (s : WorkflowStepRow) (hs : chosen env op w.db = some s) :
      Effect crates env op w { w with db := dispatched env s w.db }
  | reported (id : String) (rep : Report) (hop : reportOf crates op = some (id, rep))
      (ht : rep ≠ .timeout) (a : ActivityRow) (s : WorkflowStepRow)
      (ha : activityOf w.db id = some a) (hs : stepOf w.db a.stepId = some s)
      (queue : List EngineEvent)
      (hq : queue = if announces op rep a.attempt s.retryPolicyJson
        then enqueue w.queue (.stepCompleted s.workflowRunId.text) else w.queue) :
      Effect crates env op w { w with db := reported env rep a s w.db, queue }
  | retimed (id : String) (hop : op = .handle (.heartbeatTimeout id)) (a : ActivityRow)
      (s : WorkflowStepRow) (ha : activityOf w.db id = some a)
      (hs : stepOf w.db a.stepId = some s) (hr : a.state = .running)
      (hlt : a.attempt < s.retryPolicyJson.maximumAttempts) :
      Effect crates env op w { w with
        db := reported env .timeout a s w.db
        timers := w.timers ++ retryTimers env a s }
  | expired (id : String) (hop : op = .handle (.heartbeatTimeout id)) (a : ActivityRow)
      (s : WorkflowStepRow) (ha : activityOf w.db id = some a)
      (hs : stepOf w.db a.stepId = some s) (hr : a.state = .running)
      (hlt : ¬ a.attempt < s.retryPolicyJson.maximumAttempts) :
      Effect crates env op w { w with
        db := processed (env.part 3) s.workflowRunId.text (reported env .timeout a s w.db) }
  | beaten (id : String) (t : List ActivityRow)
      (ht : t = Table.update (beats id) (beat (env.now 0)) w.db.activities) :
      Effect crates env op w { w with db := { w.db with activities := t } }
  | cancelled (req : CancelWorkflowRequest) (hop : op = .cancelWorkflow req) :
      Effect crates env op w (withRuns w
        (Table.update (cancellable req.workflowRunId) (cancelRun (env.now 0)) w.db.workflows))
  | advanced (runId : String)
      (hop : op = .handle (.workflowCreated runId) ∨ op = .handle (.stepCompleted runId)) :
      Effect crates env op w { w with db := processed (env.part 0) runId w.db }
  | swept (hop : op = .handle .scheduleChange) :
      Effect crates env op w { w with
        db := swept env w.db (Engine.activeRuns w.db).zipIdx }

theorem Polled.effect (h : Polled crates env op w r) : Effect crates env op w r.2 := by
  cases h with
  | idle out hn => exact .still
  | task reply s hs hr => exact .dispatched s hs

theorem after_handle (env : Env) (event : EngineEvent) (w : World) :
    (exec crates env (.handle event)).after w = (Engine.handler env event).after w := by
  change ((Engine.handle env event >>= fun _ => pure Reply.other) :
    Prog World Status Reply).after w = _
  rw [Prog.after_bind_pure]
  unfold Engine.handle
  rw [Prog.after_bind_pure]
  unfold Prog.after
  rw [Prog.run_attempt]

theorem after_scheduleFire (env : Env) (scheduleId : String) (w : World) :
    (exec crates env (.scheduleFire scheduleId)).after w =
      (Scheduler.processSchedule crates env scheduleId).after w := by
  unfold exec
  rw [Prog.after_bind_pure]
  unfold Prog.after
  rw [Prog.run_attempt]

theorem reportResult_effect (hw : WellFormed w.db) (crates : Crates) (env : Env) (op : Op)
    (id : String) (json : Json) (text : String)
    (hop : reportOf crates op = some (id, .result json))
    (hn : ∀ n policy, announces op (.result json) n policy = true) :
    Effect crates env op w ((reportResult env id json text).after w) := by
  cases ha : activityOf w.db id with
  | none =>
    rw [reportResult_unknown ha]
    exact .still
  | some a =>
    obtain ⟨s, hs⟩ := hw.stepOf (activityOf_mem ha).1
    unfold Prog.after
    rw [reportResult_known ha hs]
    exact .reported id _ hop (by simp) a s ha hs _ (by rw [if_pos (hn _ _)])

theorem reportFailure_effect (hw : WellFormed w.db) (crates : Crates) (env : Env) (op : Op)
    (id message : String) (exhausted : Uuid → Prog World Status Unit)
    (hop : reportOf crates op = some (id, .failure message))
    (hn : ∀ n policy, n + 1 < policy.maximumAttempts →
      announces op (.failure message) n policy = false)
    (he : ∀ a s, stepOf w.db a.stepId = some s →
      ¬ a.attempt + 1 < s.retryPolicyJson.maximumAttempts →
      ((exhausted s.id).run { w with db := reported env (.failure message) a s w.db }).2 =
        { w with
          db := reported env (.failure message) a s w.db
          queue := if announces op (.failure message) a.attempt s.retryPolicyJson
            then enqueue w.queue (.stepCompleted s.workflowRunId.text) else w.queue }) :
    Effect crates env op w ((reportFailure env id message exhausted).after w) := by
  cases ha : activityOf w.db id with
  | none =>
    rw [reportFailure_unknown ha]
    exact .still
  | some a =>
    obtain ⟨s, hs⟩ := hw.stepOf (activityOf_mem ha).1
    unfold Prog.after
    rw [reportFailure_known ha hs]
    by_cases hlt : a.attempt + 1 < s.retryPolicyJson.maximumAttempts
    · rw [if_pos hlt]
      exact .reported id _ hop (by simp) a s ha hs _ (by simp [hn _ _ hlt])
    · rw [if_neg hlt, he a s hs hlt]
      exact .reported id _ hop (by simp) a s ha hs _ rfl

/-- Each operation has one of these effects. -/
theorem exec_effect (hw : WellFormed w.db) (hf : Fresh w.db env) (crates : Crates) (op : Op) :
    Effect crates env op w ((exec crates env op).after w) := by
  cases op with
  | startWorkflow req =>
    unfold exec
    rw [Prog.after_bind_pure]
    unfold Prog.after
    rw [run_startWorkflow hf]
    exact .started _ _ _ (.inl ⟨req, rfl, rfl⟩) rfl rfl
      (freshSteps hf _ (definition_nonempty _) (definition_length _) (definition_policies _) _ rfl)
  | startWorkflowExecution req =>
    unfold exec
    rw [Prog.after_bind_pure]
    unfold Prog.after
    rw [run_startWorkflowExecution hf]
    exact .started _ _ _ (.inr ⟨req, rfl, rfl⟩) rfl rfl
      (freshSteps hf _ (definition_nonempty _) (definition_length _) (definition_policies _) _ rfl)
  | scheduleFire scheduleId =>
    rw [after_scheduleFire]
    exact .fired scheduleId rfl _ (processSchedule_fired hw hf crates scheduleId)
  | pollActivity req => exact (pollActivity_polled hf crates req).effect
  | pollActivityTaskQueue req => exact (pollActivityTaskQueue_polled hf crates req).effect
  | reportActivityResult req =>
    unfold exec
    rw [Prog.after_bind_pure]
    unfold reportActivityResult
    cases hp : parsedResult crates req.resultJson with
    | error status => exact .still
    | ok json =>
      dsimp only
      rw [Prog.after_bind_pure]
      exact reportResult_effect hw crates env _ _ _ _ (by simp [reportOf, hp])
        (fun _ _ => rfl)
  | reportActivityFailure req =>
    unfold exec
    rw [Prog.after_bind_pure]
    unfold reportActivityFailure
    rw [Prog.after_bind_pure]
    exact reportFailure_effect hw crates env _ _ _ _ rfl (fun _ _ _ => rfl)
      (fun _ _ _ _ => rfl)
  | respondActivityTaskCompleted req =>
    unfold exec
    rw [Prog.after_bind_pure]
    exact reportResult_effect hw crates env _ _ _ _ rfl (fun _ _ => rfl)
  | respondActivityTaskFailed req =>
    unfold exec
    rw [Prog.after_bind_pure]
    refine reportFailure_effect hw crates env _ _ _ _ rfl
      (fun n policy h => by simp [announces, Report.final, Report.counted, h]) ?_
    intro a s hs hlt
    unfold notifyRun
    rw [Prog.run_bind, Prog.run_mapError, run_query, stepRunId_reported hs]
    simp [Outcome.ofExcept, Outcome.mapError, announces, Report.final, Report.counted, hlt]
  | heartbeat req =>
    unfold exec
    rw [Prog.after_bind_pure]
    unfold heartbeat
    rw [Prog.after_bind_pure]
    unfold Prog.after
    rw [Prog.run_mapError, run_heartbeatUpdate]
    exact .beaten req.activityId _ rfl
  | cancelWorkflow req =>
    unfold exec
    rw [Prog.after_bind_pure]
    unfold Server.cancelWorkflow
    rw [Prog.after_bind_pure]
    unfold Prog.after
    rw [Prog.run_mapError, run_cancelWorkflow]
    exact .cancelled req rfl
  | handle event =>
    rw [after_handle]
    cases event with
    | workflowCreated runId =>
      unfold Prog.after
      rw [show Engine.handler env (.workflowCreated runId) = Engine.advanceRun env runId from rfl,
        run_advanceRun]
      exact .advanced runId (.inl rfl)
    | stepCompleted runId =>
      unfold Prog.after
      rw [show Engine.handler env (.stepCompleted runId) = Engine.advanceRun env runId from rfl,
        run_advanceRun]
      exact .advanced runId (.inr rfl)
    | scheduleChange =>
      unfold Prog.after
      rw [show Engine.handler env .scheduleChange = Engine.processWorkflows env from rfl,
        run_processWorkflows]
      exact .swept rfl
    | retryDue stepId =>
      rw [show Engine.handler env (.retryDue stepId) = Engine.handleRetryDue env stepId from rfl,
        after_handleRetryDue hw]
      exact .still
    | heartbeatTimeout id =>
      rw [show Engine.handler env (.heartbeatTimeout id) =
        Engine.handleHeartbeatTimeout env id from rfl]
      by_cases h : ∃ a, activityOf w.db id = some a ∧ a.state = .running
      · obtain ⟨a, ha, hr⟩ := h
        obtain ⟨s, hs⟩ := hw.stepOf (activityOf_mem ha).1
        rw [timeout_running ha hs hr]
        split
        · exact .retimed id rfl a s ha hs hr ‹_›
        · exact .expired id rfl a s ha hs hr ‹_›
      · rw [timeout_idle (fun a ha hr => h ⟨a, ha, hr⟩)]
        exact .still
  | writeSchedules rows notify =>
    unfold exec
    rw [Prog.after_bind_pure]
    unfold Server.writeSchedules Prog.after
    rw [Prog.run_bind, Prog.run_modify, Prog.resume_ok]
    cases notify with
    | false => exact .schedules rows false rfl _ (if_neg Bool.false_ne_true).symm
    | true => exact .schedules rows true rfl _ (if_pos rfl).symm

theorem reportFailure_reported (ha : activityOf w.db activityId = some a)
    (hs : stepOf w.db a.stepId = some s) (env : Env) (message : String)
    {exhausted : Uuid → Prog World Status Unit} (he : ∀ v, ((exhausted s.id).after v).db = v.db) :
    ((reportFailure env activityId message exhausted).after w).db =
      reported env (.failure message) a s w.db := by
  unfold Prog.after
  rw [reportFailure_known ha hs]
  split
  · rfl
  · exact he _

/-- A report that is heard is carried out. -/
theorem exec_reported (hop : reportOf crates op = some (activityId, rep))
    (ha : activityOf w.db activityId = some a) (hs : stepOf w.db a.stepId = some s) (hh : rep.heard a)
    (env : Env) :
    ((exec crates env op).after w).db.workflowSteps = (reported env rep a s w.db).workflowSteps := by
  cases op with
  | reportActivityResult req =>
    unfold reportOf at hop
    unfold exec
    rw [Prog.after_bind_pure]
    unfold reportActivityResult
    cases hp : parsedResult crates req.resultJson with
    | error status => simp [hp] at hop
    | ok json =>
      simp only [hp, Option.some.injEq, Prod.mk.injEq] at hop
      obtain ⟨rfl, rfl⟩ := hop
      dsimp only
      rw [Prog.after_bind_pure]
      unfold Prog.after
      rw [reportResult_known ha hs]
  | respondActivityTaskCompleted req =>
    cases hop
    unfold exec
    rw [Prog.after_bind_pure]
    unfold respondActivityTaskCompleted Prog.after
    rw [reportResult_known ha hs]
  | reportActivityFailure req =>
    cases hop
    unfold exec
    rw [Prog.after_bind_pure]
    unfold reportActivityFailure
    rw [Prog.after_bind_pure, reportFailure_reported ha hs env _ (fun _ => rfl)]
  | respondActivityTaskFailed req =>
    cases hop
    unfold exec
    rw [Prog.after_bind_pure]
    unfold respondActivityTaskFailed
    rw [reportFailure_reported ha hs env]
    intro v
    unfold Prog.after notifyRun
    rw [Prog.run_bind, Prog.run_mapError, run_query]
    cases stepRunId s.id.text v.db with
    | ok runId => simp [Outcome.ofExcept, Outcome.mapError]
    | error e => simp [Outcome.ofExcept, Outcome.mapError]
  | handle event =>
    cases event with
    | heartbeatTimeout id =>
      cases hop
      rw [after_handle]
      change ((Engine.handleHeartbeatTimeout env activityId).after w).db.workflowSteps = _
      rw [timeout_running ha hs hh]
      split
      · rfl
      · simp
    | workflowCreated runId => cases hop
    | stepCompleted runId => cases hop
    | scheduleChange => cases hop
    | retryDue stepId => cases hop
  | startWorkflow req => cases hop
  | startWorkflowExecution req => cases hop
  | scheduleFire scheduleId => cases hop
  | pollActivity req => cases hop
  | pollActivityTaskQueue req => cases hop
  | heartbeat req => cases hop
  | cancelWorkflow req => cases hop
  | writeSchedules rows notify => cases hop

end Khronos.Proofs
