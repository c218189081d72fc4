import Khronos.Proofs.Advance

namespace Khronos.Proofs
open Time Lib Db.Activities Db.Workflows Server Engine

/-- What is said of an activity: by a worker through either API, or by its timer. -/
inductive Report where
  | result (json : Json)
  | failure (message : String)
  | timeout

/-- What a report writes on its activity. -/
def Report.mark (env : Env) : Report → ActivityRow → ActivityRow
  | .result json => setActivity .completed (env.now 0) (some json) none
  | .failure message => setActivity .failed (env.now 0) none (some message)
  | .timeout => setActivity .failed (env.now 1) none (some "Heartbeat timeout")

/-- The attempts a failure counts: a worker's counts one more than a timer's. -/
def Report.counted : Report → UInt32 → UInt32
  | .timeout, attempt => attempt
  | _, attempt => attempt + 1

/-- When a failed step may be tried again. -/
def Report.due (env : Env) : Report → UInt32 → RetryPolicy → Option DateTime
  | .timeout, attempt, policy => retryTime (env.now 0) policy (predecessor attempt)
  | _, attempt, policy => retryTime (env.now 1) policy (attempt + 1 - 1)

/-- What a failed attempt writes on its step; nothing where the retry time panics. -/
def failedStep (counted : UInt32) (policy : RetryPolicy) (due : Option DateTime) :
    WorkflowStepRow → WorkflowStepRow :=
  if counted < policy.maximumAttempts then
    match due with
    | some d => setStep .pending (some counted) none (some d.format)
    | none => id
  else setStep .failed (some counted) none none

/-- What a report writes on the step of its activity. -/
def Report.write (env : Env) (attempt : UInt32) (policy : RetryPolicy) :
    Report → WorkflowStepRow → WorkflowStepRow
  | .result json => setStep .completed none (some json) none
  | rep => failedStep (rep.counted attempt) policy (rep.due env attempt policy)

/-- The tables after an update of the step of an id. -/
def onStep (stepId : String) (f : WorkflowStepRow → WorkflowStepRow) (db : Db) : Db :=
  let workflowSteps := Table.update (fun r => stepKey r = stepId) f db.workflowSteps
  { db with workflowSteps }

/-- The tables after an update of the activity of an id. -/
def onActivity (activityId : String) (f : ActivityRow → ActivityRow) (db : Db) : Db :=
  let activities := Table.update (fun r => activityKey r = activityId) f db.activities
  { db with activities }

/-- The tables after a report on an activity of a step. -/
def reported (env : Env) (rep : Report) (a : ActivityRow) (s : WorkflowStepRow) (db : Db) : Db :=
  onStep s.id.text (rep.write env a.attempt s.retryPolicyJson)
    (onActivity a.id.text (rep.mark env) db)

@[simp] theorem mark_id (env : Env) (rep : Report) (a : ActivityRow) :
    (rep.mark env a).id = a.id := by
  cases rep <;> rfl

@[simp] theorem mark_stepId (env : Env) (rep : Report) (a : ActivityRow) :
    (rep.mark env a).stepId = a.stepId := by
  cases rep <;> rfl

@[simp] theorem mark_attempt (env : Env) (rep : Report) (a : ActivityRow) :
    (rep.mark env a).attempt = a.attempt := by
  cases rep <;> rfl

theorem mark_not_running (env : Env) (rep : Report) (a : ActivityRow) :
    (rep.mark env a).state ≠ .running := by
  cases rep <;> simp [Report.mark, setActivity]

/-- The columns of a step that are written once and for all. -/
structure Fixed (s' s : WorkflowStepRow) : Prop where
  id : s'.id = s.id
  run : s'.workflowRunId = s.workflowRunId
  index : s'.stepIndex = s.stepIndex
  name : s'.activityName = s.activityName
  policy : s'.retryPolicyJson = s.retryPolicyJson
  created : s'.createdAt = s.createdAt

theorem Fixed.refl (s : WorkflowStepRow) : Fixed s s := ⟨rfl, rfl, rfl, rfl, rfl, rfl⟩

theorem setStep_fixed (state : StepState) (n : Option UInt32) (result : Option Json)
    (next : Option String) (s : WorkflowStepRow) : Fixed (setStep state n result next s) s :=
  ⟨rfl, rfl, rfl, rfl, rfl, rfl⟩

theorem failedStep_fixed (counted : UInt32) (policy : RetryPolicy) (due : Option DateTime)
    (s : WorkflowStepRow) : Fixed (failedStep counted policy due s) s := by
  unfold failedStep
  split
  · cases due with
    | some d => exact setStep_fixed _ _ _ _ _
    | none => exact Fixed.refl s
  · exact setStep_fixed _ _ _ _ _

theorem write_fixed (env : Env) (n : UInt32) (policy : RetryPolicy) (rep : Report)
    (s : WorkflowStepRow) : Fixed (rep.write env n policy s) s := by
  cases rep with
  | result json => exact setStep_fixed _ _ _ _ _
  | failure message => exact failedStep_fixed _ _ _ _
  | timeout => exact failedStep_fixed _ _ _ _

/-- A failure counts to less than the maximum when it leaves its step pending. -/
theorem failedStep_pending {counted : UInt32} (h : (failedStep counted policy due s).state = .pending) :
    (counted < policy.maximumAttempts ∧ (failedStep counted policy due s).attempt = counted) ∨
      failedStep counted policy due s = s := by
  unfold failedStep at h ⊢
  by_cases hlt : counted < policy.maximumAttempts
  · rw [if_pos hlt] at h ⊢
    cases due with
    | some d => exact .inl ⟨hlt, rfl⟩
    | none => exact .inr rfl
  · rw [if_neg hlt] at h
    cases h

theorem write_pending (h : (Report.write env n policy rep s).state = .pending) :
    (rep.counted n < policy.maximumAttempts ∧ (rep.write env n policy s).attempt = rep.counted n) ∨
      rep.write env n policy s = s := by
  cases rep with
  | result json => cases h
  | failure message => exact failedStep_pending h
  | timeout => exact failedStep_pending h

theorem find_key {α : Type} {key : α → Uuid} {t : List α} {u : Uuid} :
    t.find? (fun r => decide ((key r).text = u.text)) = t.find? (fun r => decide (key r = u)) := by
  simp only [key_iff]

theorem stepOf_mem (h : stepOf db u = some s) : s ∈ db.workflowSteps ∧ s.id = u :=
  ⟨List.mem_of_find?_eq_some h, by simpa using List.find?_some h⟩

theorem activityOf_mem (h : activityOf db activityId = some a) :
    a ∈ db.activities ∧ a.id.text = activityId := by
  refine ⟨List.mem_of_find?_eq_some h, ?_⟩
  have hk : activityKey a = activityId := by simpa using List.find?_some h
  exact hk

theorem WellFormed.stepOf (h : WellFormed db) (ha : a ∈ db.activities) :
    ∃ s, Server.stepOf db a.stepId = some s := by
  obtain ⟨s, hs, he⟩ := h.ofStep a ha
  exact Option.isSome_iff_exists.mp (List.find?_isSome.mpr ⟨s, hs, by simp [he]⟩)

theorem WellFormed.stepOf_self (h : WellFormed db) (hs : s ∈ db.workflowSteps) :
    Server.stepOf db s.id = some s := by
  have hk := h.steps.find_iff (k := stepKey s) (r := s)
  rw [show Server.stepOf db s.id = db.workflowSteps.find? (fun r => decide (stepKey r = stepKey s))
    from find_key.symm]
  exact hk.mpr ⟨hs, rfl⟩

theorem WellFormed.activityOf_self (h : WellFormed db) (ha : a ∈ db.activities) :
    Server.activityOf db (activityKey a) = some a :=
  (h.activities.find_iff (k := activityKey a) (r := a)).mpr ⟨ha, rfl⟩

theorem run_updateActivityState (state : ActivityState) (state' : AttemptState)
    (hs : attemptState state = some state') (now : Clock) (activityId : String)
    (result : Option Json) (message : Option String) (w : World) :
    (updateActivityState now activityId state result message).run w =
      (.ok (), { w with
        db := onActivity activityId (setActivity state' now result message) w.db }) := by
  rw [updateActivityState, run_execute, hs]
  rfl

theorem run_updateStepState (state : WorkflowState) (state' : StepState)
    (hs : stepState state = some state') (stepId : String) (n : Option UInt32)
    (result : Option Json) (next : Option DateTime) (w : World) :
    (updateStepState stepId state n result next).run w =
      (.ok (), { w with
        db := onStep stepId (setStep state' n result (next.map DateTime.format)) w.db }) := by
  rw [updateStepState, run_execute, hs]
  rfl

theorem stepRunId_known (hs : stepOf db u = some s) : stepRunId u.text db = .ok s.workflowRunId := by
  rw [stepRunId, queryRow_filter, show db.workflowSteps.find? (fun r => stepKey r = u.text) = some s
    from find_key.trans hs]

theorem stepOf_onStep (hs : stepOf db u = some s) {f : WorkflowStepRow → WorkflowStepRow}
    (hf : ∀ r, (f r).id = r.id) : stepOf (onStep u.text f db) u = some (f s) := by
  have hk : stepKey s = u.text := key_iff.mpr (stepOf_mem hs).2
  unfold stepOf at hs ⊢
  rw [show (onStep u.text f db).workflowSteps = Table.update _ f db.workflowSteps from rfl,
    Table.find_update _ _ _ _ (fun r => by rw [hf]), hs]
  simp [hk]

/-- What a report leaves of its step. -/
theorem stepOf_reported (hs : stepOf db a.stepId = some s) (env : Env) (rep : Report) :
    stepOf (reported env rep a s db) s.id =
      some (rep.write env a.attempt s.retryPolicyJson s) := by
  obtain ⟨_, he⟩ := stepOf_mem hs
  have hs' : stepOf (onActivity a.id.text (rep.mark env) db) s.id = some s := by
    rw [he]
    exact hs
  exact stepOf_onStep hs' (fun r => (write_fixed env a.attempt s.retryPolicyJson rep r).id)

/-- A report leaves its step in the same run. -/
theorem stepRunId_reported (hs : stepOf db a.stepId = some s) (env : Env) (rep : Report) :
    stepRunId s.id.text (reported env rep a s db) = .ok s.workflowRunId := by
  rw [stepRunId_known (stepOf_reported hs env rep), (write_fixed _ _ _ _ s).run]

theorem activityOf_onActivity (ha : activityOf db activityId = some a)
    {f : ActivityRow → ActivityRow} (hf : ∀ r, (f r).id = r.id) :
    activityOf (onActivity activityId f db) activityId = some (f a) := by
  have hk : activityKey a = activityId := (activityOf_mem ha).2
  unfold activityOf at ha ⊢
  rw [show (onActivity activityId f db).activities = Table.update _ f db.activities from rfl,
    Table.find_update _ _ _ _ (fun r => by unfold activityKey; rw [hf]), ha]
  simp [hk]

/-- A report on an id that names no activity finds nothing to write on. -/
theorem onActivity_unknown (ha : activityOf db activityId = none)
    (f : ActivityRow → ActivityRow) : onActivity activityId f db = db := by
  unfold onActivity
  rw [Table.update_none (fun r hr => by simpa using List.find?_eq_none.mp ha r hr)]

theorem onStep_id (stepId : String) (db : Db) : onStep stepId id db = db := by
  unfold onStep Table.update
  simp

theorem reportResult_unknown (ha : activityOf w.db activityId = none) (env : Env) (json : Json)
    (text : String) : (reportResult env activityId json text).after w = w := by
  unfold Prog.after reportResult
  simp only [Prog.run_bind, Prog.run_mapError, run_updateActivityState .completed .completed rfl,
    onActivity_unknown ha, Outcome.mapError, Prog.resume_ok, run_query]
  rw [activityStepId, queryRow_filter, show w.db.activities.find? _ = none from ha]
  rfl

theorem reportResult_known (ha : activityOf w.db activityId = some a)
    (hs : stepOf w.db a.stepId = some s) (env : Env) (json : Json) (text : String) :
    (reportResult env activityId json text).run w = (.ok (), { w with
      db := reported env (.result json) a s w.db
      queue := enqueue w.queue (.stepCompleted s.workflowRunId.text) }) := by
  obtain ⟨_, rfl⟩ := activityOf_mem ha
  obtain ⟨_, he⟩ := stepOf_mem hs
  have hstep : activityStepId a.id.text
      (onActivity a.id.text (Report.mark env (.result json)) w.db) = .ok a.stepId := by
    have hf := activityOf_onActivity ha (mark_id env (.result json))
    rw [activityStepId, queryRow_filter,
      show List.find? _ (onActivity a.id.text _ w.db).activities = some _ from hf]
    exact congrArg Except.ok (mark_stepId env (.result json) a)
  have hrun : stepRunId a.stepId.text (reported env (.result json) a s w.db) =
      .ok s.workflowRunId := he ▸ stepRunId_reported hs env (.result json)
  unfold reportResult
  simp only [Prog.run_bind, Prog.run_mapError, run_updateActivityState .completed .completed rfl,
    Outcome.mapError, Prog.resume_ok, run_query]
  rw [show setActivity .completed (env.now 0) (some json) none = Report.mark env (.result json)
    from rfl, hstep]
  simp only [Outcome.ofExcept, Outcome.mapError, Prog.resume_ok, Prog.run_bind, Prog.run_mapError,
    run_updateStepState .completed .completed rfl, run_query]
  rw [show onStep a.stepId.text _ _ = reported env (.result json) a s w.db by
    rw [reported, he]; rfl, hrun]
  rfl

theorem reportFailure_unknown (ha : activityOf w.db activityId = none) (env : Env)
    (message : String) (exhausted : Uuid → Prog World Status Unit) :
    (reportFailure env activityId message exhausted).after w = w := by
  unfold Prog.after reportFailure
  simp only [Prog.run_bind, Prog.run_mapError, run_query]
  rw [activityAttempt, queryRow_filter, show w.db.activities.find? _ = none from ha]
  rfl

theorem reportFailure_known (ha : activityOf w.db activityId = some a)
    (hs : stepOf w.db a.stepId = some s) (env : Env) (message : String)
    (exhausted : Uuid → Prog World Status Unit) :
    (reportFailure env activityId message exhausted).run w =
      if a.attempt + 1 < s.retryPolicyJson.maximumAttempts then
        (if (Report.due env (.failure message) a.attempt s.retryPolicyJson).isSome then .ok ()
          else .panicked, { w with db := reported env (.failure message) a s w.db })
      else (exhausted s.id).run { w with db := reported env (.failure message) a s w.db } := by
  obtain ⟨_, rfl⟩ := activityOf_mem ha
  obtain ⟨_, he⟩ := stepOf_mem hs
  have hattempt : activityAttempt a.id.text w.db = .ok (a.stepId, a.attempt) := by
    rw [activityAttempt, queryRow_filter, show w.db.activities.find? _ = some a from ha]
  have hpolicy : stepRetryPolicy a.stepId.text w.db = .ok s.retryPolicyJson := by
    rw [stepRetryPolicy, queryRow_filter,
      show w.db.workflowSteps.find? (fun r => stepKey r = a.stepId.text) = some s
        from find_key.trans hs]
  unfold reportFailure
  simp only [Prog.run_bind, Prog.run_mapError, run_query, hattempt, hpolicy, Outcome.ofExcept,
    Outcome.mapError, Prog.resume_ok, run_updateActivityState .failed .failed rfl]
  split
  · rename_i hlt
    have hdue : retryTime (env.now 1) s.retryPolicyJson (a.attempt + 1 - 1) =
        Report.due env (.failure message) a.attempt s.retryPolicyJson := rfl
    rw [hdue]
    cases hd : Report.due env (.failure message) a.attempt s.retryPolicyJson with
    | none =>
      simp [reported, Report.write, failedStep, Report.counted, hlt, hd, onStep_id, Report.mark]
    | some due =>
      simp [reported, Report.write, failedStep, Report.counted, hlt, hd, Report.mark, he,
        run_updateStepState .pending .pending rfl, Outcome.mapError]
  · rename_i hlt
    simp [reported, Report.write, failedStep, Report.counted, hlt, Report.mark, he,
      run_updateStepState .failed .failed rfl, Outcome.mapError]

/-- A timer for an activity that is not running changes nothing. -/
theorem run_timeout_idle (ha : activityOf w.db activityId = some a) (hn : a.state ≠ .running)
    (env : Env) : (handleHeartbeatTimeout env activityId).run w = (.ok (), w) := by
  unfold handleHeartbeatTimeout
  rw [Prog.run_bind, run_query, activityStatus, queryRow_filter,
    show w.db.activities.find? _ = some a from ha]
  change Prog.run (if a.state = .running then _ else _) w = _
  rw [if_neg hn]
  rfl

theorem timeout_idle (h : ∀ a, activityOf w.db activityId = some a → a.state ≠ .running)
    (env : Env) : (handleHeartbeatTimeout env activityId).after w = w := by
  cases ha : activityOf w.db activityId with
  | none =>
    unfold Prog.after handleHeartbeatTimeout
    rw [Prog.run_bind, run_query, activityStatus, queryRow_filter,
      show w.db.activities.find? _ = none from ha]
    rfl
  | some a => rw [Prog.after, run_timeout_idle ha (h a ha)]

/-- The timers after a timeout: a retry arms one. -/
def retryTimers (env : Env) (a : ActivityRow) (s : WorkflowStepRow) : List Timer :=
  match Report.due env .timeout a.attempt s.retryPolicyJson with
  | some due => [⟨deadline (env.now 2) due, .retryDue s.id.text⟩]
  | none => []

theorem run_timeout (ha : activityOf w.db activityId = some a)
    (hs : stepOf w.db a.stepId = some s) (hr : a.state = .running) (env : Env) :
    (handleHeartbeatTimeout env activityId).run w =
      if a.attempt < s.retryPolicyJson.maximumAttempts then
        (if (Report.due env .timeout a.attempt s.retryPolicyJson).isSome then .ok ()
          else .panicked, { w with
          db := reported env .timeout a s w.db
          timers := w.timers ++ retryTimers env a s })
      else (.ok (), { w with
        db := processed (env.part 3) s.workflowRunId.text (reported env .timeout a s w.db) }) := by
  obtain ⟨_, rfl⟩ := activityOf_mem ha
  obtain ⟨_, he⟩ := stepOf_mem hs
  have hstatus : activityStatus a.id.text w.db = .ok (a.state, a.stepId) := by
    rw [activityStatus, queryRow_filter, show w.db.activities.find? _ = some a from ha]
  have hpolicy : stepRetryPolicy a.stepId.text w.db = .ok s.retryPolicyJson := by
    rw [stepRetryPolicy, queryRow_filter,
      show w.db.workflowSteps.find? (fun r => stepKey r = a.stepId.text) = some s
        from find_key.trans hs]
  have hattempt : currentAttempt a.id.text w.db = .ok a.attempt := by
    rw [currentAttempt, queryRow_filter, show w.db.activities.find? _ = some a from ha]
  unfold handleHeartbeatTimeout
  simp only [Prog.run_bind, run_query, Prog.run_attempt, hstatus, hpolicy, hattempt,
    Outcome.ofExcept, Outcome.caught, Prog.resume_ok, hr, if_true, unwrapOr_ok,
    run_updateActivityState .failed .failed rfl]
  change Prog.run (if a.attempt < s.retryPolicyJson.maximumAttempts then _ else _) _ = _
  by_cases hlt : a.attempt < s.retryPolicyJson.maximumAttempts
  · rw [if_pos hlt, if_pos hlt]
    have hdue : retryTime (env.now 0) s.retryPolicyJson (predecessor a.attempt) =
        Report.due env .timeout a.attempt s.retryPolicyJson := rfl
    rw [hdue]
    unfold retryTimers
    cases hd : Report.due env .timeout a.attempt s.retryPolicyJson with
    | none =>
      simp [reported, Report.write, failedStep, Report.counted, hlt, hd, onStep_id, Report.mark]
    | some due =>
      simp [reported, Report.write, failedStep, Report.counted, hlt, hd, Report.mark, he,
        run_updateStepState .pending .pending rfl]
  · rw [if_neg hlt, if_neg hlt]
    have hw : Report.write env a.attempt s.retryPolicyJson .timeout =
        setStep .failed (some a.attempt) none none := by
      simp [Report.write, failedStep, Report.counted, hlt]
    have hrun : stepRunId a.stepId.text (reported env .timeout a s w.db) =
        .ok s.workflowRunId := he ▸ stepRunId_reported hs env .timeout
    rw [Prog.run_bind, run_updateStepState .failed .failed rfl, Prog.resume_ok, Prog.run_bind,
      run_query]
    rw [show onStep a.stepId.text _ _ = reported env .timeout a s w.db by
      rw [reported, he, hw]; rfl, hrun]
    change (processSingleWorkflow (env.part 3) s.workflowRunId.text).run _ = _
    rw [run_processSingleWorkflow]

theorem timeout_running (ha : activityOf w.db activityId = some a)
    (hs : stepOf w.db a.stepId = some s) (hr : a.state = .running) (env : Env) :
    (handleHeartbeatTimeout env activityId).after w =
      if a.attempt < s.retryPolicyJson.maximumAttempts then
        { w with
          db := reported env .timeout a s w.db
          timers := w.timers ++ retryTimers env a s }
      else { w with
        db := processed (env.part 3) s.workflowRunId.text (reported env .timeout a s w.db) } := by
  rw [Prog.after, run_timeout ha hs hr]
  split <;> rfl

theorem run_heartbeatUpdate (now : Clock) (activityId : String) (w : World) :
    (heartbeatUpdate now activityId).run w =
      (if (w.db.activities.filter (beats activityId)).length = 0 then
        .error (.other "Activity not found or not in running state") else .ok (), { w with
      db.activities := Table.update (beats activityId) (beat now) w.db.activities }) := by
  unfold heartbeatUpdate
  rw [Prog.run_bind, run_execute]
  simp only [Prog.resume_ok]
  split <;> rfl

end Khronos.Proofs
