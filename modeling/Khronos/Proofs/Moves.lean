import Khronos.Proofs.Effects

namespace Khronos.Proofs
open Time Lib Db.Activities Db.Workflows Server

/-- The operations that start runs. -/
def beginsRun : Op → Bool
  | .startWorkflow _ | .startWorkflowExecution _ | .scheduleFire _ => true
  | _ => false

/-- The readings of the clock with which an operation stamps the steps of the run it starts. -/
def stepTimes (env : Env) : Op → Nat → Clock
  | .scheduleFire _ => ((env.part 2).part 1).now
  | _ => env.now

/-- What an operation does to the steps and the activities, whatever it does to the runs. -/
inductive Moved (crates : Crates) (env : Env) (op : Op) (db db' : Db) : Prop
  | still (hs : db'.workflowSteps = db.workflowSteps) (ha : db'.activities = db.activities)
  | started (new : List WorkflowStepRow) (hop : beginsRun op = true)
      (hnew : FreshSteps env (stepTimes env op) db new)
      (hs : db'.workflowSteps = db.workflowSteps ++ new) (ha : db'.activities = db.activities)
  | dispatched (s : WorkflowStepRow) (hc : chosen env op db = some s)
      (hs : db'.workflowSteps = (dispatched env s db).workflowSteps)
      (ha : db'.activities = (dispatched env s db).activities)
  | reported (id : String) (rep : Report) (hop : reportOf crates op = some (id, rep))
      (a : ActivityRow) (s : WorkflowStepRow) (hact : activityOf db id = some a)
      (hstep : stepOf db a.stepId = some s) (hh : rep.heard a)
      (hs : db'.workflowSteps = (reported env rep a s db).workflowSteps)
      (ha : db'.activities = (reported env rep a s db).activities)
  | beaten (id : String) (hs : db'.workflowSteps = db.workflowSteps)
      (ha : db'.activities = Table.update (beats id) (beat (env.now 0)) db.activities)

theorem Fired.moved (h : Fired crates env scheduleId w w') :
    Moved crates env (.scheduleFire scheduleId) w.db w'.db := by
  cases h with
  | cut t ht => exact .still rfl rfl
  | started t ht hfires run new hid hstate hnew => exact .started new rfl hnew rfl rfl

theorem Effect.moved (h : Effect crates env op w w') : Moved crates env op w.db w'.db := by
  cases h with
  | still => exact .still rfl rfl
  | schedules rows notify hop queue hqueue => exact .still rfl rfl
  | started run new queue hop hid hstate hnew =>
    rcases hop with ⟨req, rfl, _⟩ | ⟨req, rfl, _⟩ <;> exact .started new rfl hnew rfl rfl
  | fired scheduleId hop _ h =>
    rw [hop]
    exact h.moved
  | dispatched s hs => exact .dispatched s hs rfl rfl
  | reported id rep hop ht a s ha hs queue hq =>
    exact .reported id rep hop a s ha hs (by cases rep <;> trivial) rfl rfl
  | retimed id hop a s ha hs hr hlt =>
    exact .reported id .timeout (by rw [hop]; rfl) a s ha hs hr rfl rfl
  | expired id hop a s ha hs hr hlt =>
    exact .reported id .timeout (by rw [hop]; rfl) a s ha hs hr (by simp) (by simp)
  | beaten id t ht => exact .beaten id rfl ht
  | cancelled req hop => exact .still rfl rfl
  | advanced runId hop => exact .still (by simp) (by simp)
  | swept hop => exact .still (by simp) (by simp)

/-- A step of the server on well-formed tables moves the steps and the activities so. -/
theorem step_moved (hw : WellFormed w.db) (crates : Crates) {call : Call}
    (hc : (server crates).admits w call) :
    Moved crates call.env call.op w.db ((server crates).step w call).2.db :=
  (exec_effect hw hc crates call.op).moved

/-- A run of the server keeps what each of its moves keeps. -/
theorem run_moved {P : Db → Prop}
    (hmove : ∀ {db db' env op}, WellFormed db → Fresh db env → P db →
      Moved crates env op db db' → P db')
    {s t : World} {ts : List ServerStep} (hr : (server crates).Run s ts t)
    (hs : WellFormed s.db) (hp : P s.db) : WellFormed t.db ∧ P t.db := by
  refine hr.keeps (P := fun w => WellFormed w.db ∧ P w.db) ?_ ⟨hs, hp⟩
  intro w call h hc
  exact ⟨step_wellFormed crates call h.1, hmove h.1 hc h.2 (step_moved h.1 crates hc)⟩

theorem run_wellFormed {s t : World} {ts : List ServerStep} (hr : (server crates).Run s ts t)
    (hs : WellFormed s.db) : WellFormed t.db :=
  hr.keeps (P := fun w => WellFormed w.db) (fun _ call h _ => step_wellFormed crates call h) hs

/-- The steps after an update of one. -/
theorem mem_onStep (db : Db) : s' ∈ (onStep u.text f db).workflowSteps ↔
    (∃ r ∈ db.workflowSteps, r.id = u ∧ s' = f r) ∨ (s' ∈ db.workflowSteps ∧ s'.id ≠ u) := by
  unfold onStep
  simp only [Table.mem_update, decide_eq_true_eq, stepKey, key_iff]
  constructor
  · rintro ⟨r, hr, rfl⟩
    by_cases h : r.id = u
    · exact .inl ⟨r, hr, h, by rw [if_pos h]⟩
    · rw [if_neg h]
      exact .inr ⟨hr, h⟩
  · rintro (⟨r, hr, he, rfl⟩ | ⟨hr, hn⟩)
    · exact ⟨r, hr, by rw [if_pos he]⟩
    · exact ⟨s', hr, by rw [if_neg hn]⟩

theorem mem_onActivity (db : Db) : a' ∈ (onActivity u.text f db).activities ↔
    (∃ r ∈ db.activities, r.id = u ∧ a' = f r) ∨ (a' ∈ db.activities ∧ a'.id ≠ u) := by
  unfold onActivity
  simp only [Table.mem_update, decide_eq_true_eq, activityKey, key_iff]
  constructor
  · rintro ⟨r, hr, rfl⟩
    by_cases h : r.id = u
    · exact .inl ⟨r, hr, h, by rw [if_pos h]⟩
    · rw [if_neg h]
      exact .inr ⟨hr, h⟩
  · rintro (⟨r, hr, he, rfl⟩ | ⟨hr, hn⟩)
    · exact ⟨r, hr, by rw [if_pos he]⟩
    · exact ⟨a', hr, by rw [if_neg hn]⟩

/-- The steps after a report: the reported one, and the others as they were. -/
theorem mem_reported_steps (hw : WellFormed db) (hs : s ∈ db.workflowSteps) :
    s' ∈ (reported env rep a s db).workflowSteps ↔
      s' = rep.write env a.attempt s.retryPolicyJson s ∨ (s' ∈ db.workflowSteps ∧ s'.id ≠ s.id) := by
  refine (mem_onStep (onActivity a.id.text (rep.mark env) db)).trans
    (or_congr ⟨?_, ?_⟩ Iff.rfl)
  · rintro ⟨r, hr, he, rfl⟩
    rw [hw.steps.unique hr hs (key_iff.mpr he)]
  · rintro rfl
    exact ⟨s, hs, rfl, rfl⟩

theorem mem_reported_activities (hw : WellFormed db) (ha : a ∈ db.activities) :
    a' ∈ (reported env rep a s db).activities ↔
      a' = rep.mark env a ∨ (a' ∈ db.activities ∧ a'.id ≠ a.id) := by
  refine (mem_onActivity db).trans (or_congr ⟨?_, ?_⟩ Iff.rfl)
  · rintro ⟨r, hr, he, rfl⟩
    rw [hw.activities.unique hr ha (key_iff.mpr he)]
  · rintro rfl
    exact ⟨a, ha, rfl, rfl⟩

/-- What a step becomes when it is handed out. -/
abbrev running (s : WorkflowStepRow) : WorkflowStepRow :=
  setStep .running (some (s.attempt + 1)) none none s

/-- The attempt a hand-out records. -/
abbrev newAttempt (env : Env) (s : WorkflowStepRow) : ActivityRow :=
  attemptRow (env.uuid 0) s.id (s.attempt + 1) (env.now 1)

theorem mem_dispatched_steps (hw : WellFormed db) (hs : s ∈ db.workflowSteps) :
    s' ∈ (dispatched env s db).workflowSteps ↔
      s' = running s ∨ (s' ∈ db.workflowSteps ∧ s'.id ≠ s.id) := by
  refine (mem_onStep db).trans (or_congr ⟨?_, ?_⟩ Iff.rfl)
  · rintro ⟨r, hr, he, rfl⟩
    rw [hw.steps.unique hr hs (key_iff.mpr he)]
  · rintro rfl
    exact ⟨s, hs, rfl, rfl⟩

theorem mem_dispatched_activities :
    a' ∈ (dispatched env s db).activities ↔ a' ∈ db.activities ∨ a' = newAttempt env s := by
  change a' ∈ db.activities ++ [newAttempt env s] ↔ _
  simp

/-- A chosen step waits for a worker. -/
theorem chosen_pending (hw : WellFormed db) (h : chosen env op db = some s) :
    s.state = .pending := by
  obtain ⟨hs, hr, _⟩ := chosen_mem h
  have hn := hw.noRetried s hs
  unfold ready at hr
  cases hstate : s.state with
  | pending => rfl
  | retried => contradiction
  | running => cases hnext : s.nextRetryAt <;> simp [hnext, hstate] at hr
  | completed => cases hnext : s.nextRetryAt <;> simp [hnext, hstate] at hr
  | failed => cases hnext : s.nextRetryAt <;> simp [hnext, hstate] at hr

/-- What becomes of a step: it stays as it is, is handed out, or is reported on. -/
theorem Moved.follow {crates : Crates} (hw : WellFormed db) (hm : Moved crates env op db db')
    (hs : s ∈ db.workflowSteps) :
    s ∈ db'.workflowSteps ∨
    (chosen env op db = some s ∧ running s ∈ db'.workflowSteps) ∨
    ∃ id rep a, reportOf crates op = some (id, rep) ∧ activityOf db id = some a ∧
      stepOf db a.stepId = some s ∧ rep.heard a ∧
      rep.write env a.attempt s.retryPolicyJson s ∈ db'.workflowSteps := by
  cases hm with
  | still h _ => exact .inl (h ▸ hs)
  | beaten id h _ => exact .inl (h ▸ hs)
  | started new hop hnew h _ =>
    rw [h]
    exact .inl (List.mem_append_left _ hs)
  | dispatched r hc h _ =>
    rw [h]
    have hr := (chosen_mem hc).1
    by_cases he : s.id = r.id
    · obtain rfl := hw.steps.unique hs hr (key_iff.mpr he)
      exact .inr (.inl ⟨hc, (mem_dispatched_steps hw hr).mpr (.inl rfl)⟩)
    · exact .inl ((mem_dispatched_steps hw hr).mpr (.inr ⟨hs, he⟩))
  | reported id rep hop a r hact hstep hh h _ =>
    rw [h]
    have hr := (stepOf_mem hstep).1
    by_cases he : s.id = r.id
    · obtain rfl := hw.steps.unique hs hr (key_iff.mpr he)
      exact .inr (.inr ⟨id, rep, a, hop, hact, hstep, hh, (mem_reported_steps hw hr).mpr (.inl rfl)⟩)
    · exact .inl ((mem_reported_steps hw hr).mpr (.inr ⟨hs, he⟩))

theorem value_bind_pure (p : Prog σ ε α) (f : α → β) (s : σ) :
    ((p >>= fun a => pure (f a)).run s).1.value? = ((p.run s).1.value?).map f := by
  rw [Prog.run_bind]
  cases p.run s with
  | mk out t => cases out <;> rfl

/-- Only a poll hands out an activity: the one it has just recorded, of the step it chose. -/
theorem handedOut_dispatched {call : Call}
    (hc : (server crates).admits w call)
    (h : handedOut crates ((server crates).transition w call) = some a) :
    ∃ s, chosen call.env call.op w.db = some s ∧ a = newAttempt call.env s ∧
      ((server crates).step w call).2 = { w with db := dispatched call.env s w.db } := by
  obtain ⟨env, op⟩ := call
  have hpoll : Polled crates env op w ((exec crates env op).run w) →
      ∃ s, chosen env op w.db = some s ∧ a = newAttempt env s ∧
        ((exec crates env op).run w).2 = { w with db := dispatched env s w.db } := by
    intro hp
    change (((exec crates env op).run w).1.value?.bind (Reply.task crates)).bind
      (activityOf ((exec crates env op).run w).2.db) = some a at h
    generalize (exec crates env op).run w = r at hp h
    cases hp with
    | idle out hn =>
      rw [hn] at h
      cases h
    | task reply s hs ht =>
      refine ⟨s, hs, ?_, rfl⟩
      change ((Reply.task crates reply).bind _) = some a at h
      rw [ht] at h
      obtain ⟨ha, hk⟩ := activityOf_mem h
      rcases mem_dispatched_activities.mp ha with ha | ha
      · exact absurd ⟨a, ha, key_iff.mp hk⟩ (fresh_unused hc (by omega)).2.2
      · exact ha
  have hquiet : ∀ {β : Type} (p : Prog World Status β),
      exec crates env op = (p >>= fun _ => pure Reply.other) → False := by
    intro β p hp
    change (((exec crates env op).run w).1.value?.bind (Reply.task crates)).bind _ = some a at h
    rw [hp, value_bind_pure] at h
    cases hv : (p.run w).1.value? <;> simp [hv, Reply.task] at h
  cases op with
  | pollActivity req => exact hpoll (pollActivity_polled hc crates req)
  | pollActivityTaskQueue req => exact hpoll (pollActivityTaskQueue_polled hc crates req)
  | startWorkflow req => exact (hquiet _ rfl).elim
  | startWorkflowExecution req => exact (hquiet _ rfl).elim
  | scheduleFire scheduleId => exact (hquiet _ rfl).elim
  | reportActivityResult req => exact (hquiet _ rfl).elim
  | reportActivityFailure req => exact (hquiet _ rfl).elim
  | respondActivityTaskCompleted req => exact (hquiet _ rfl).elim
  | respondActivityTaskFailed req => exact (hquiet _ rfl).elim
  | heartbeat req => exact (hquiet _ rfl).elim
  | cancelWorkflow req => exact (hquiet _ rfl).elim
  | handle event => exact (hquiet _ rfl).elim
  | writeSchedules rows notify => exact (hquiet _ rfl).elim

end Khronos.Proofs
