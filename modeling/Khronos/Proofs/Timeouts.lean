import Khronos.Proofs.Backoff

namespace Khronos.Proofs
open Time Lib Db.Activities Db.Workflows Server Engine

theorem activityOf_reported (ha : activityOf db a.id.text = some a) (env : Env) (rep : Report)
    (s : WorkflowStepRow) :
    activityOf (reported env rep a s db) a.id.text = some (rep.mark env a) :=
  activityOf_onActivity ha (mark_id env rep)

theorem activityOf_processed (env : Env) (runId activityId : String) (db : Db) :
    activityOf (processed env runId db) activityId = activityOf db activityId := by
  simp only [activityOf, processed_activities]

theorem stepOf_processed (env : Env) (runId : String) (u : Uuid) (db : Db) :
    stepOf (processed env runId db) u = stepOf db u := by
  simp only [stepOf, processed_steps]

/-- What a timer leaves of a running activity and of its step, whichever way it decides. -/
theorem after_timeout (ha : activityOf w.db a.id.text = some a)
    (hs : stepOf w.db a.stepId = some s) (hr : a.state = .running) (env : Env) :
    activityOf ((handleHeartbeatTimeout env a.id.text).after w).db a.id.text =
        some (Report.mark env .timeout a) ∧
      stepOf ((handleHeartbeatTimeout env a.id.text).after w).db s.id =
        some (Report.write env a.attempt s.retryPolicyJson .timeout s) := by
  have hact := activityOf_reported ha env .timeout s
  have hstep := stepOf_reported hs env .timeout
  rw [timeout_running ha hs hr]
  split
  · exact ⟨hact, hstep⟩
  · rw [activityOf_processed, stepOf_processed]
    exact ⟨hact, hstep⟩

/-- The last heartbeat of an activity is not further back than its step allows. -/
def InTime (now : DateTime) (a : ActivityRow) (s : WorkflowStepRow) : Prop :=
  ∃ t : DateTime, ∃ h : Int64, a.lastHeartbeatAt = some t.format ∧
    s.heartbeatTimeoutSecs = some h ∧ now.nanos ≤ t.nanos + h.toInt * second

/-- A timer spares an activity that has been heard of in time. -/
def SparesTimely (env : Env) (w : World) (a : ActivityRow) (s : WorkflowStepRow) : Prop :=
  InTime (env.now 0) a s →
    activityOf ((handleHeartbeatTimeout env a.id.text).after w).db a.id.text = some a ∧
      stepOf ((handleHeartbeatTimeout env a.id.text).after w).db s.id = some s

/-- The handler of a timer does not look at the last heartbeat: no running activity that has been
heard of in time is spared. -/
theorem timeout_never_spares (ha : activityOf w.db a.id.text = some a)
    (hs : stepOf w.db a.stepId = some s) (hr : a.state = .running) (env : Env)
    (hin : InTime (env.now 0) a s) : ¬ SparesTimely env w a s := by
  intro hspared
  have hkept := (hspared hin).1
  rw [(after_timeout ha hs hr env).1] at hkept
  have hstate : AttemptState.failed = a.state := congrArg ActivityRow.state (Option.some.inj hkept)
  rw [hr] at hstate
  cases hstate

/-- A worker has been handed a step, and sends a heartbeat a minute later. -/
def heartbeating : World :=
  worldAfter [.startWorkflow ⟨"x", [], "", "", none, ""⟩, .pollActivity ⟨"", ["x"]⟩,
    .heartbeat ⟨"id-10"⟩]

/-- Its activity, and the step of that, one minute after the heartbeat. -/
theorem heartbeating_in_time :
    ∃ a s, activityOf heartbeating.db a.id.text = some a ∧ a.id.text = "id-10" ∧
      stepOf heartbeating.db a.stepId = some s ∧ a.state = .running ∧
      InTime ((turn 3).now 0) a s := by
  have hrows : (activityOf heartbeating.db "id-10").any (fun a =>
      (stepOf heartbeating.db a.stepId).any (fun s => a.state = .running ∧
        a.lastHeartbeatAt = some (DateTime.format ⟨120 * second⟩) ∧
        s.heartbeatTimeoutSecs = some 60)) = true := by decide +kernel
  obtain ⟨a, ha, hrows⟩ := (Option.any_eq_true _ _).mp hrows
  obtain ⟨s, hs, hrows⟩ := (Option.any_eq_true _ _).mp hrows
  obtain ⟨hr, hbeat, htimeout⟩ := of_decide_eq_true hrows
  have hid := (activityOf_mem ha).2
  exact ⟨a, s, hid.symm ▸ ha, hid, hs, hr, ⟨120 * second⟩, 60, hbeat, htimeout, by decide +kernel⟩

theorem heartbeating_not_spared :
    ∃ a s, InTime ((turn 3).now 0) a s ∧ ¬ SparesTimely (turn 3) heartbeating a s := by
  obtain ⟨a, s, ha, -, hs, hr, hin⟩ := heartbeating_in_time
  exact ⟨a, s, hin, timeout_never_spares ha hs hr (turn 3) hin⟩

/-- The attempt of a worker that has sent its heartbeat in time is failed. -/
theorem heartbeating_failed :
    ¬ ∀ (crates : Crates) (env : Env) (w : World) (a : ActivityRow) (s : WorkflowStepRow),
      (server crates).Reachable w → activityOf w.db a.id.text = some a →
        stepOf w.db a.stepId = some s → a.state = .running → SparesTimely env w a s := by
  intro h
  have hreach : (server plainCrates).Reachable heartbeating :=
    ⟨_, _, rfl, script_run _ (by decide +kernel)⟩
  obtain ⟨a, s, ha, hid, hs, hr, hin⟩ := heartbeating_in_time
  have hkept := (h plainCrates (turn 3) _ a s hreach ha hs hr hin).1
  have hfailed : ((activityOf ((handleHeartbeatTimeout (turn 3) "id-10").after heartbeating).db
      "id-10").map (·.state)) = some .failed := by decide +kernel
  rw [hid] at hkept
  rw [hkept, Option.map_some, hr] at hfailed
  cases hfailed

/-- What a report of a worker leaves of the step, and that it has come to an end. -/
theorem reportActivityFailure_ok (ha : activityOf w.db a.id.text = some a)
    (hs : stepOf w.db a.stepId = some s) {env : Env} {message : String}
    (hok : ((reportActivityFailure env ⟨a.id.text, message⟩).run w).1 = .ok true) :
    ∃ q, stepOf ((reportActivityFailure env ⟨a.id.text, message⟩).after w).db s.id = some q ∧
      q.attempt = a.attempt + 1 := by
  unfold Prog.after
  unfold reportActivityFailure at hok ⊢
  rw [Prog.run_bind_pure, reportFailure_known ha hs] at hok ⊢
  have hstep := stepOf_reported hs env (.failure message)
  by_cases hlt : a.attempt + 1 < s.retryPolicyJson.maximumAttempts
  · simp only [if_pos hlt] at hok ⊢
    cases hd : Report.due env (.failure message) a.attempt s.retryPolicyJson with
    | none => simp [hd, Outcome.map] at hok
    | some d =>
      refine ⟨_, hstep, ?_⟩
      simp [Report.write, failedStep, Report.counted, hlt, hd, setStep]
  · simp only [if_neg hlt] at hok ⊢
    refine ⟨_, hstep, ?_⟩
    simp [Report.write, failedStep, Report.counted, hlt, setStep]

theorem timeout_ok (ha : activityOf w.db a.id.text = some a)
    (hs : stepOf w.db a.stepId = some s) (hr : a.state = .running) {env : Env}
    (hok : ((handleHeartbeatTimeout env a.id.text).run w).1 = .ok ()) :
    ∃ q, stepOf ((handleHeartbeatTimeout env a.id.text).after w).db s.id = some q ∧
      q.attempt = a.attempt := by
  refine ⟨_, (after_timeout ha hs hr env).2, ?_⟩
  rw [run_timeout ha hs hr] at hok
  by_cases hlt : a.attempt < s.retryPolicyJson.maximumAttempts
  · rw [if_pos hlt] at hok
    cases hd : Report.due env .timeout a.attempt s.retryPolicyJson with
    | none => simp [hd] at hok
    | some d => simp [Report.write, failedStep, Report.counted, hlt, hd, setStep]
  · simp [Report.write, failedStep, Report.counted, hlt, setStep]

/-- An attempt that fails does the same to its step whether a worker reports it or a timer finds
it: the choice, the attempt and the retry time are the same, and the retries of the step are
put off by the initial interval, then by twice as much, and so on. -/
structure FailsAlike (env : Env) (w : World) (a : ActivityRow) (s : WorkflowStepRow)
    (message : String) : Prop where
  reported : ((reportActivityFailure env ⟨a.id.text, message⟩).run w).1 = .ok true
  timed : ((handleHeartbeatTimeout env a.id.text).run w).1 = .ok ()
  step : ∃ q q',
    stepOf ((reportActivityFailure env ⟨a.id.text, message⟩).after w).db s.id = some q ∧
    stepOf ((handleHeartbeatTimeout env a.id.text).after w).db s.id = some q' ∧
    q.state = q'.state ∧ q.attempt = q'.attempt ∧ q.nextRetryAt = q'.nextRetryAt ∧
    (q.state = .pending → q.nextRetryAt =
      (retryTime (env.now 0) s.retryPolicyJson (predecessor a.attempt)).map DateTime.format)

theorem add_one_ne (n : UInt32) : n + 1 ≠ n := by
  intro h
  have hone : (1 : UInt32) = 0 := by
    rw [← UInt32.add_right_inj n, h, UInt32.add_zero]
  cases hone

/-- A report counts the attempt that has failed as one more than a timer does. -/
theorem never_fails_alike (ha : activityOf w.db a.id.text = some a)
    (hs : stepOf w.db a.stepId = some s) (hr : a.state = .running) (env : Env)
    (message : String) : ¬ FailsAlike env w a s message := by
  intro h
  obtain ⟨q, q', hq, hq', -, hattempt, -⟩ := h.step
  obtain ⟨p, hp, hone⟩ := reportActivityFailure_ok ha hs h.reported
  obtain ⟨p', hp', hsame⟩ := timeout_ok ha hs hr h.timed
  obtain rfl := Option.some.inj (hq.symm.trans hp)
  obtain rfl := Option.some.inj (hq'.symm.trans hp')
  exact add_one_ne a.attempt (hone.symm.trans (hattempt.trans hsame))

/-- A worker has been handed the first attempt of a step. -/
def firstAttempt : World :=
  worldAfter [.startWorkflow ⟨"x", [], "", "", none, ""⟩, .pollActivity ⟨"", ["x"]⟩]

theorem first_attempt_running :
    ∃ a s, activityOf firstAttempt.db a.id.text = some a ∧ a.id.text = "id-10" ∧
      stepOf firstAttempt.db a.stepId = some s ∧ s.id = ⟨"id-1"⟩ ∧ a.state = .running := by
  have hrows : (activityOf firstAttempt.db "id-10").any (fun a =>
      (stepOf firstAttempt.db a.stepId).any (fun s => s.id = ⟨"id-1"⟩ ∧ a.state = .running)) =
        true := by decide +kernel
  obtain ⟨a, ha, hrows⟩ := (Option.any_eq_true _ _).mp hrows
  obtain ⟨s, hs, hrows⟩ := (Option.any_eq_true _ _).mp hrows
  obtain ⟨hsid, hr⟩ := of_decide_eq_true hrows
  have hid := (activityOf_mem ha).2
  exact ⟨a, s, hid.symm ▸ ha, hid, hs, hsid, hr⟩

theorem first_attempt_never_alike :
    ∃ a s, a.state = .running ∧ ¬ FailsAlike (turn 2) firstAttempt a s "boom" := by
  obtain ⟨a, s, ha, -, hs, -, hr⟩ := first_attempt_running
  exact ⟨a, s, hr, never_fails_alike ha hs hr (turn 2) "boom"⟩

/-- The step of a first attempt is left with attempt 2 by a report, and with attempt 1 by a timer
at the same time. -/
theorem first_attempt_differs :
    ¬ ∀ (crates : Crates) (env : Env) (w : World) (a : ActivityRow) (s : WorkflowStepRow)
      (message : String), (server crates).Reachable w → (∀ i j, env.now i = env.now j) →
        activityOf w.db a.id.text = some a → stepOf w.db a.stepId = some s →
        a.state = .running → FailsAlike env w a s message := by
  intro h
  have hreach : (server plainCrates).Reachable firstAttempt :=
    ⟨_, _, rfl, script_run _ (by decide +kernel)⟩
  obtain ⟨a, s, ha, hid, hs, hsid, hr⟩ := first_attempt_running
  have halike := h plainCrates (turn 2) _ a s "boom" hreach (fun _ _ => rfl) ha hs hr
  obtain ⟨q, q', hq, hq', -, hattempt, -⟩ := halike.step
  rw [hid, hsid] at hq hq'
  have hreport : ((stepOf ((reportActivityFailure (turn 2) ⟨"id-10", "boom"⟩).after
      firstAttempt).db ⟨"id-1"⟩).map (·.attempt)) = some 2 := by decide +kernel
  have htimer : ((stepOf ((handleHeartbeatTimeout (turn 2) "id-10").after
      firstAttempt).db ⟨"id-1"⟩).map (·.attempt)) = some 1 := by decide +kernel
  rw [hq, Option.map_some, hattempt] at hreport
  rw [hq', Option.map_some, hreport] at htimer
  exact absurd htimer (by decide)

end Khronos.Proofs
