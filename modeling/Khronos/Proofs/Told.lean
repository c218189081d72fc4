import Khronos.Proofs.Ended
import Khronos.Server.Attached

namespace Khronos.Proofs
open Time Lib Db.Activities Db.Workflows Server Engine

/-- A run waits for the engine: it is pending with steps, or it is running and its steps have
all ended. -/
def Needs (db : Db) (r : WorkflowRow) : Prop :=
  (∃ s ∈ db.workflowSteps, s.workflowRunId = r.runId) ∧
  (r.state = .pending ∨ (r.state = .running ∧
    ∀ s ∈ db.workflowSteps, s.workflowRunId = r.runId → s.state.settled = true))

/-- An event makes the engine look at the run of an id. -/
def tells (u : Uuid) : EngineEvent → Bool
  | .workflowCreated runId => runId = u.text
  | .stepCompleted runId => runId = u.text
  | .scheduleChange => true
  | _ => false

/-- Every run that waits for the engine is in an event on its way to it. -/
def Told (db : Db) (queue : List EngineEvent) : Prop :=
  ∀ r ∈ db.workflows, Needs db r → ∃ e ∈ queue, tells r.runId e = true

/-- The events that operations send to the engine. -/
inductive Sends (crates : Crates) (env : Env) (op : Op) (w : World) : EngineEvent → Prop
  | created (req : StartWorkflowRequest) (hop : op = .startWorkflow req) :
      Sends crates env op w (.workflowCreated (env.uuid 0).text)
  | fired (scheduleId : String) (hop : op = .scheduleFire scheduleId)
      (h : fires crates env scheduleId w = true) :
      Sends crates env op w (.workflowCreated (env.uuid 0).text)
  | ended (activityId : String) (rep : Report) (hop : reportOf crates op = some (activityId, rep))
      (a : ActivityRow) (s : WorkflowStepRow) (ha : activityOf w.db activityId = some a)
      (hs : stepOf w.db a.stepId = some s)
      (h : announces op rep a.attempt s.retryPolicyJson = true) :
      Sends crates env op w (.stepCompleted s.workflowRunId.text)
  | changed (rows : List ScheduleRow) (hop : op = .writeSchedules rows true) :
      Sends crates env op w .scheduleChange

/-- What an operation does to the channel. -/
theorem Effect.queue (h : Effect crates env op w w') :
    w'.queue = w.queue ∨ ∃ e, Sends crates env op w e ∧ w'.queue = enqueue w.queue e := by
  cases h with
  | still => exact .inl rfl
  | schedules rows notify hop queue hq =>
    cases notify with
    | false => exact .inl (by simpa using hq)
    | true => exact .inr ⟨_, .changed rows hop, by simpa using hq⟩
  | started run new queue hop hid hstate hnew =>
    rcases hop with ⟨req, hop, hq⟩ | ⟨req, hop, hq⟩
    · exact .inr ⟨_, .created req hop, hq⟩
    · exact .inl hq
  | fired scheduleId hop _ hfired =>
    cases hfired with
    | cut t ht => exact .inl rfl
    | started t ht hfires run new hid hstate hnew =>
      refine .inr ⟨.workflowCreated (env.uuid 0).text, .fired scheduleId hop hfires, ?_⟩
      dsimp only
  | dispatched s hs => exact .inl rfl
  | reported id rep hop ht a s ha hs queue hq =>
    by_cases hann : announces op rep a.attempt s.retryPolicyJson = true
    · exact .inr ⟨_, .ended id rep hop a s ha hs hann, by simpa [hann] using hq⟩
    · exact .inl (by simpa [hann] using hq)
  | retimed id hop a s ha hs hr hlt => exact .inl rfl
  | expired id hop a s ha hs hr hlt => exact .inl rfl
  | beaten id t ht => exact .inl rfl
  | cancelled req hop => exact .inl rfl
  | advanced runId hop => exact .inl rfl
  | swept hop => exact .inl rfl

/-- The event that an action sends to the engine, if any. -/
inductive Emits (crates : Crates) (w : World) (o : Occurrence) : EngineEvent → Prop
  | served (op : Op) (hop : o.action = .serve op) (e : EngineEvent)
      (h : Sends crates o.env op w e) : Emits crates w o e
  | timer (i : Nat) (hop : o.action = .timer i) (t : Timer) (ht : w.timers[i]? = some t) :
      Emits crates w o t.event

/-- An action after which the engine may never hear of a run that waits for it: a start through
the Temporal interface, a native report of the last failure of the last working step of a run,
an event to a full channel whose oldest event was the only one about a waiting run, or an end
of the process while a run waits. -/
inductive Forgets (crates : Crates) (w : World) (o : Occurrence) : Prop
  | start (req : StartWorkflowExecutionRequest)
      (hop : o.action = .serve (.startWorkflowExecution req))
      (hq : ∀ e ∈ w.queue, tells (o.env.uuid 0) e = false)
  | failure (req : ReportActivityFailureRequest)
      (hop : o.action = .serve (.reportActivityFailure req)) (a : ActivityRow)
      (s : WorkflowStepRow) (ha : activityOf w.db req.activityId = some a)
      (hs : stepOf w.db a.stepId = some s)
      (hlt : ¬ a.attempt + 1 < s.retryPolicyJson.maximumAttempts) (r : WorkflowRow)
      (hr : r ∈ w.db.workflows) (hrun : r.runId = s.workflowRunId) (hstate : r.state = .running)
      (hrest : ∀ t ∈ w.db.workflowSteps, t.workflowRunId = r.runId → t.id ≠ s.id →
        t.state.settled = true)
      (hq : ∀ e ∈ w.queue, tells r.runId e = false)
  | overflow (e : EngineEvent) (hsend : Emits crates w o e) (hfull : capacity ≤ w.queue.length)
      (r : WorkflowRow) (hr : r ∈ w.db.workflows) (hneeds : Needs w.db r)
      (he : tells r.runId e = false) (hq : ∀ d ∈ w.queue.tail, tells r.runId d = false)
  | restart (hop : o.action = .restart) (r : WorkflowRow) (hr : r ∈ w.db.workflows)
      (hneeds : Needs w.db r)

/-- A run that waited for the engine is still told of after an action that sends. -/
theorem told_after (ht : Told w.db w.queue) (hlen : w.queue.length ≤ capacity)
    (hn : ¬ Forgets crates w o)
    (hq : queue = w.queue ∨ ∃ e, Emits crates w o e ∧ queue = enqueue w.queue e)
    (hr : r ∈ w.db.workflows) (hneeds : Needs w.db r) : ∃ e ∈ queue, tells r.runId e = true := by
  obtain ⟨d, hd, htells⟩ := ht r hr hneeds
  rcases hq with rfl | ⟨e, hsend, rfl⟩
  · exact ⟨d, hd, htells⟩
  · by_cases hnew : tells r.runId e = true
    · exact ⟨e, enqueue_new _ _, hnew⟩
    · by_cases hfull : capacity ≤ w.queue.length
      · have hrest : ∃ d ∈ w.queue.tail, tells r.runId d = true := by
          by_contra hnone
          refine hn (.overflow e hsend hfull r hr hneeds (by simpa using hnew) (fun d hd => ?_))
          by_contra hdt
          exact hnone ⟨d, hd, by simpa using hdt⟩
        obtain ⟨d, hd, htells⟩ := hrest
        exact ⟨d, enqueue_keeps hlen (List.mem_of_mem_tail hd) (fun _ => hd) e, htells⟩
      · exact ⟨d, enqueue_keeps hlen hd (fun h => absurd h hfull) e, htells⟩

/-- A run that waits for the engine after a change waited for it before, when the change left
the run's state alone and what its steps say. -/
theorem Needs.before (h : Needs db' r') (hid : r'.runId = r.runId) (hstate : r'.state = r.state)
    (hsteps : ∀ s ∈ db.workflowSteps, s.workflowRunId = r.runId → s ∈ db'.workflowSteps)
    (hsteps' : ∀ s ∈ db'.workflowSteps, s.workflowRunId = r.runId → s ∈ db.workflowSteps) :
    Needs db r := by
  obtain ⟨⟨s, hs, hrun⟩, hwaits⟩ := h
  rw [hid] at hrun
  refine ⟨⟨s, hsteps' s hs hrun, hrun⟩, ?_⟩
  rw [hstate] at hwaits
  refine hwaits.imp_right (fun ⟨hr, hall⟩ => ⟨hr, fun t ht htr => ?_⟩)
  exact hall t (hsteps t ht htr) (htr.trans hid.symm)

/-- No run waits for the engine once it has looked at it. -/
theorem advancedState_needs_none (hsteps : db'.workflowSteps = db.workflowSteps)
    (hid : r'.runId = r.runId) (hstate : r'.state = advancedState db r) : ¬ Needs db' r' := by
  rintro ⟨⟨s, hs, hrun⟩, hwaits⟩
  rw [hsteps] at hs hwaits
  rw [hid] at hrun hwaits
  rw [hstate] at hwaits
  unfold advancedState at hwaits
  cases hd : decided (runKey r) db with
  | some state =>
    have hc := decided_iff.mp hd
    rw [hd, Option.getD_some] at hwaits
    rcases hwaits with h | ⟨h, _⟩
    · subst h
      exact hc.elim
    · subst h
      exact hc.elim
  | none =>
    rw [hd, Option.getD_none] at hwaits
    rcases hwaits with h | ⟨_, hall⟩
    · split at h
      · cases h
      · exact absurd h ‹_›
    · -- All its steps have ended, so the engine would have decided on it.
      have hsome : ∃ state, Concluded db r.runId state := by
        by_cases hfail : ∃ t ∈ db.workflowSteps, t.workflowRunId = r.runId ∧ t.state = .failed
        · refine ⟨.failed, fun t ht htr => ?_, hfail⟩
          have hset := hall t ht htr
          cases hts : t.state <;> simp [waiting, StepState.settled, hts] at hset ⊢
        · refine ⟨.completed, ⟨s, hs, hrun⟩, fun t ht htr => ?_⟩
          have hset := hall t ht htr
          cases hts : t.state with
          | completed => rfl
          | failed => exact absurd ⟨t, ht, htr, hts⟩ hfail
          | pending => simp [StepState.settled, hts] at hset
          | running => simp [StepState.settled, hts] at hset
          | retried => simp [StepState.settled, hts] at hset
      obtain ⟨state, hc⟩ := hsome
      rw [show decided (runKey r) db = some state from decided_iff.mpr hc] at hd
      cases hd

theorem Needs.active (h : Needs db r) : active r = true := by
  rcases h.2 with h | ⟨h, _⟩ <;> simp [Db.Workflows.active, h]

/-- A start changes nothing for the runs that are there. -/
theorem started_needs (hf : Fresh w.db env) (hnew : FreshSteps env now w.db new)
    (hr : r ∈ w.db.workflows) (h : Needs (started run new (withRuns w t).db) r) :
    Needs w.db r := by
  refine h.before rfl rfl (fun s hs _ => List.mem_append_left _ hs) (fun s hs hrun => ?_)
  rcases List.mem_append.mp hs with hs | hs
  · exact hs
  · exact absurd ⟨r, hr, hrun.symm.trans (hnew.ofRun s hs)⟩ (fresh_unused hf (by omega)).1

/-- The runs that a report is not about wait for the engine as before. -/
theorem reported_needs (hw : WellFormed db) (hs : s ∈ db.workflowSteps)
    (hne : r.runId ≠ s.workflowRunId) (h : Needs (reported env rep a s db) r) : Needs db r := by
  refine h.before rfl rfl (fun t ht hrun => ?_) (fun t ht hrun => ?_)
  · refine (mem_reported_steps hw hs).mpr (.inr ⟨ht, ?_⟩)
    intro hid
    rw [hw.steps.unique ht hs (key_iff.mpr hid)] at hrun
    exact hne hrun.symm
  · rcases (mem_reported_steps hw hs).mp ht with rfl | ⟨hold, _⟩
    · rw [(write_fixed _ _ _ _ _).run] at hrun
      exact absurd hrun.symm hne
    · exact hold

theorem write_not_final (h : rep.final n policy = false) (env : Env) (s : WorkflowStepRow) :
    (Report.write env n policy rep s).state = .pending ∨ Report.write env n policy rep s = s := by
  have hlt := counted_lt h
  have hfailed : (failedStep (rep.counted n) policy (rep.due env n policy) s).state = .pending ∨
      failedStep (rep.counted n) policy (rep.due env n policy) s = s := by
    unfold failedStep
    rw [if_pos hlt]
    cases rep.due env n policy with
    | some due => exact .inl rfl
    | none => exact .inr rfl
  cases rep with
  | result json => cases h
  | failure message => exact hfailed
  | timeout => exact hfailed

/-- A report that does not end its step leaves no run waiting that did not wait before. -/
theorem not_final_needs (hw : WellFormed db) (hs : s ∈ db.workflowSteps)
    (hfinal : rep.final a.attempt s.retryPolicyJson = false)
    (h : Needs (reported env rep a s db) r) : Needs db r := by
  by_cases hrun : r.runId = s.workflowRunId
  · refine ⟨⟨s, hs, hrun.symm⟩, h.2.imp_right (fun ⟨hr, hall⟩ => ⟨hr, fun t ht htr => ?_⟩)⟩
    by_cases hid : t.id = s.id
    · have hset := hall _ ((mem_reported_steps hw hs).mpr (.inl rfl))
        ((write_fixed _ _ _ _ _).run.trans hrun.symm)
      rw [hw.steps.unique ht hs (key_iff.mpr hid)]
      rcases write_not_final hfinal env s with hp | hsame
      · rw [hp] at hset
        cases hset
      · rwa [hsame] at hset
    · exact hall t ((mem_reported_steps hw hs).mpr (.inr ⟨ht, hid⟩)) htr
  · exact reported_needs hw hs hrun h

/-- Only the native failure report keeps the end of a step to itself. -/
theorem not_announced (hop : reportOf crates op = some (activityId, rep))
    (hfinal : rep.final n policy = true) (hn : ¬ announces op rep n policy = true) :
    ∃ req, op = .reportActivityFailure req ∧ activityId = req.activityId ∧
      ¬ n + 1 < policy.maximumAttempts := by
  cases op with
  | reportActivityFailure req =>
    cases hop
    have hlt : (!decide (n + 1 < policy.maximumAttempts)) = true := hfinal
    exact ⟨req, rfl, rfl, by simpa using hlt⟩
  | reportActivityResult req => exact absurd hfinal hn
  | respondActivityTaskCompleted req => exact absurd hfinal hn
  | respondActivityTaskFailed req => exact absurd hfinal hn
  | handle event => exact absurd hfinal hn
  | startWorkflow req => cases hop
  | startWorkflowExecution req => cases hop
  | scheduleFire scheduleId => cases hop
  | pollActivity req => cases hop
  | pollActivityTaskQueue req => cases hop
  | heartbeat req => cases hop
  | cancelWorkflow req => cases hop
  | writeSchedules rows notify => cases hop

/-- A hand-out leaves no run of its own waiting for the engine, and the others as they were. -/
theorem dispatched_needs (hw : WellFormed db) (hs : s ∈ db.workflowSteps)
    (hr' : r' ∈ (dispatched env s db).workflows) (h : Needs (dispatched env s db) r') :
    r' ∈ db.workflows ∧ Needs db r' := by
  obtain ⟨r, hr, rfl⟩ := Table.mem_update.mp hr'
  by_cases hk : runKey r = s.workflowRunId.text
  · have hrun : running s ∈ (dispatched env s db).workflowSteps :=
      (mem_dispatched_steps hw hs).mpr (.inl rfl)
    simp only [hk, decide_true, if_true] at h
    rcases h.2 with hstate | ⟨_, hall⟩
    · cases hstate
    · cases hall _ hrun (key_iff.mp hk).symm
  · simp only [hk, decide_false, Bool.false_eq_true, if_false] at h ⊢
    refine ⟨hr, h.before rfl rfl (fun t ht hrun => ?_) (fun t ht hrun => ?_)⟩
    · refine (mem_dispatched_steps hw hs).mpr (.inr ⟨ht, ?_⟩)
      intro hid
      rw [hw.steps.unique ht hs (key_iff.mpr hid)] at hrun
      exact hk (key_iff.mpr hrun.symm)
    · rcases (mem_dispatched_steps hw hs).mp ht with rfl | ⟨hold, _⟩
      · exact absurd (key_iff.mpr hrun.symm) hk
      · exact hold

/-- Serving an operation keeps the engine told. -/
theorem served_told (hw : WellFormed w.db) (hf : Fresh w.db o.env) (ht : Told w.db w.queue)
    (hlen : w.queue.length ≤ capacity) (hn : ¬ Forgets crates w o) (hop : o.action = .serve op)
    (hserved : op.served = true) (h : Effect crates o.env op w w') : Told w'.db w'.queue := by
  have hq : w'.queue = w.queue ∨ ∃ e, Emits crates w o e ∧ w'.queue = enqueue w.queue e :=
    h.queue.imp_right (fun ⟨e, hsend, he⟩ => ⟨e, .served op hop e hsend, he⟩)
  have hkeep : ∀ r ∈ w.db.workflows, Needs w.db r → ∃ e ∈ w'.queue, tells r.runId e = true :=
    fun r hr hneeds => told_after ht hlen hn hq hr hneeds
  clear hq
  intro r hr hneeds
  cases h with
  | still => exact hkeep r hr hneeds
  | schedules rows notify hop queue hq => exact hkeep r hr hneeds
  | beaten id t hbeat => exact hkeep r hr hneeds
  | started run new queue hstart hid hstate hnew =>
    rcases List.mem_append.mp hr with hr | hr
    · exact hkeep r hr (started_needs (t := w.db.workflows) hf hnew hr hneeds)
    · obtain rfl := List.mem_singleton.mp hr
      rcases hstart with ⟨req, rfl, rfl⟩ | ⟨req, rfl, rfl⟩
      · exact ⟨.workflowCreated (o.env.uuid 0).text, enqueue_new _ _, by simp [tells, hid]⟩
      · by_contra hnone
        refine hn (.start req hop (fun e he => ?_))
        by_contra htells
        exact hnone ⟨e, he, by simpa [hid] using htells⟩
  | fired scheduleId _ _ hfired =>
    cases hfired with
    | cut t hterm => exact hkeep r (hterm.origin hr hneeds.active) hneeds
    | started t hterm hfires run new hid hstate hnew =>
      rcases List.mem_append.mp hr with hr | hr
      · have hold := hterm.origin hr hneeds.active
        exact hkeep r hold (started_needs hf hnew hold hneeds)
      · obtain rfl := List.mem_singleton.mp hr
        exact ⟨.workflowCreated (o.env.uuid 0).text, enqueue_new _ _, by simp [tells, hid]⟩
  | dispatched s hs =>
    obtain ⟨hold, hbefore⟩ := dispatched_needs hw (chosen_mem hs).1 hr hneeds
    exact hkeep r hold hbefore
  | cancelled req _ =>
    exact hkeep r ((cancels_update (p := fun _ => true) _ _ (fun _ _ _ => rfl)).origin hr
      hneeds.active) hneeds
  | reported id rep hrep hnt a s ha hs queue hqueue =>
    have hmem := (stepOf_mem hs).1
    cases hfinal : rep.final a.attempt s.retryPolicyJson with
    | false => exact hkeep r hr (not_final_needs hw hmem hfinal hneeds)
    | true =>
      by_cases hrun : r.runId = s.workflowRunId
      · by_cases hann : announces op rep a.attempt s.retryPolicyJson = true
        · rw [if_pos hann] at hqueue
          subst hqueue
          exact ⟨.stepCompleted s.workflowRunId.text, enqueue_new _ _, by simp [tells, hrun]⟩
        · rw [if_neg hann] at hqueue
          subst hqueue
          rcases hneeds.2 with hpend | ⟨hrunning, hall⟩
          · exact hkeep r hr ⟨⟨s, hmem, hrun.symm⟩, .inl hpend⟩
          · obtain ⟨req, rfl, rfl, hlt⟩ := not_announced hrep hfinal hann
            by_contra hnone
            refine hn (.failure req hop a s ha hs hlt r hr hrun hrunning (fun t htm htr hid => ?_)
              (fun e he => ?_))
            · exact hall t ((mem_reported_steps hw hmem).mpr (.inr ⟨htm, hid⟩)) htr
            · by_contra htells
              exact hnone ⟨e, he, by simpa using htells⟩
      · exact hkeep r hr (reported_needs hw hmem hrun hneeds)
  | retimed id hop' a s ha hs hrun hlt =>
    rw [hop'] at hserved
    cases hserved
  | expired id hop' a s ha hs hrun hlt =>
    rw [hop'] at hserved
    cases hserved
  | advanced runId hop' => rcases hop' with rfl | rfl <;> cases hserved
  | swept hop' =>
    rw [hop'] at hserved
    cases hserved

theorem Told.rest (h : Told db (e :: queue)) (hr : r ∈ db.workflows) (hneeds : Needs db r)
    (he : tells r.runId e = false) : ∃ d ∈ queue, tells r.runId d = true := by
  obtain ⟨d, hd, htells⟩ := h r hr hneeds
  rcases List.mem_cons.mp hd with rfl | hd
  · rw [he] at htells
    cases htells
  · exact ⟨d, hd, htells⟩

/-- An event about one run is all that this run needed. -/
theorem advanced_told {w : World} (ht : Told w.db (e :: w.queue)) (env : Env) (runId : String)
    (he : ∀ u, tells u e = decide (runId = u.text)) :
    Told (processed env runId w.db) w.queue := by
  intro r' hr' hneeds
  obtain ⟨r, hr, hid, hstate⟩ := (processed_looked env runId w.db).runs r' hr'
  by_cases hk : runKey r = runId
  · rw [if_pos hk] at hstate
    exact absurd hneeds (advancedState_needs_none (processed_steps _ _ _) hid hstate)
  · rw [if_neg hk] at hstate
    have hbefore : Needs w.db r := hneeds.before hid hstate
      (fun s hs _ => by rw [processed_steps]; exact hs)
      (fun s hs _ => by rw [processed_steps] at hs; exact hs)
    rw [hid]
    refine ht.rest hr hbefore ?_
    rw [he, decide_eq_false_iff_not]
    exact fun h => hk h.symm

/-- Once it has gone through all the active runs, none waits for the engine. -/
theorem swept_told (hw : WellFormed db) (env : Env) (queue : List EngineEvent) :
    Told (swept env db (activeRuns db).zipIdx) queue := by
  intro r' hr' hneeds
  obtain ⟨r, hr, hid, hstate⟩ := (swept_looked hw env).runs r' hr'
  by_cases ha : active r = true
  · rw [if_pos ha] at hstate
    exact absurd hneeds (advancedState_needs_none (swept_steps _ _ _) hid hstate)
  · rw [if_neg ha] at hstate
    have hactive := hneeds.active
    rw [Db.Workflows.active, hstate] at hactive
    exact absurd hactive ha

/-- A timeout leaves the other runs as they were, and its own run either needs a step more or is
looked at. -/
theorem timeout_told {w : World} (hw : WellFormed w.db) (ht : Told w.db w.queue)
    (h : Effect crates env (.handle (.heartbeatTimeout activityId)) w w') :
    Told w'.db w'.queue := by
  intro r hr hneeds
  cases h with
  | still => exact ht r hr hneeds
  | schedules rows notify hop queue hq => cases hop
  | beaten id t hbeat => exact ht r hr hneeds
  | started run new queue hop hid hstate hnew => rcases hop with ⟨_, hop, _⟩ | ⟨_, hop, _⟩ <;> cases hop
  | fired scheduleId hop _ hfired => cases hop
  | dispatched s hs => cases (chosen_mem hs).2.2
  | cancelled req hop => cases hop
  | reported id rep hop hnt a s ha hs queue hq =>
    cases hop
    exact absurd rfl hnt
  | advanced runId hop => rcases hop with hop | hop <;> cases hop
  | swept hop => cases hop
  | retimed id hop a s ha hs hrun hlt =>
    have hfinal : Report.timeout.final a.attempt s.retryPolicyJson = false := by
      simp [Report.final, Report.counted, hlt]
    exact ht r hr (not_final_needs hw (stepOf_mem hs).1 hfinal hneeds)
  | expired id hop a s ha hs hrun hlt =>
    obtain ⟨q, hq, hid, hstate⟩ := (processed_looked (env.part 3) s.workflowRunId.text
      (reported env .timeout a s w.db)).runs r hr
    by_cases hk : runKey q = s.workflowRunId.text
    · rw [if_pos hk] at hstate
      exact absurd hneeds (advancedState_needs_none (processed_steps _ _ _) hid hstate)
    · rw [if_neg hk] at hstate
      have hbefore : Needs (reported env .timeout a s w.db) q := hneeds.before hid hstate
        (fun s hs _ => by rw [processed_steps]; exact hs)
        (fun s hs _ => by rw [processed_steps] at hs; exact hs)
      rw [hid]
      exact ht q hq (reported_needs hw (stepOf_mem hs).1 (fun h => hk (key_iff.mpr h)) hbefore)

/-- The engine, having handled an event, is still told of all the runs that wait for it. -/
theorem handled_told {w : World} (hw : WellFormed w.db) (hf : Fresh w.db env)
    (ht : Told w.db (e :: w.queue)) (crates : Crates) :
    Told ((exec crates env (.handle e)).after w).db
      ((exec crates env (.handle e)).after w).queue := by
  cases e with
  | workflowCreated runId =>
    rw [after_handle]
    unfold Prog.after
    rw [show handler env (.workflowCreated runId) = advanceRun env runId from rfl, run_advanceRun]
    exact advanced_told (e := .workflowCreated runId) ht (env.part 0) runId (fun _ => rfl)
  | stepCompleted runId =>
    rw [after_handle]
    unfold Prog.after
    rw [show handler env (.stepCompleted runId) = advanceRun env runId from rfl, run_advanceRun]
    exact advanced_told (e := .stepCompleted runId) ht (env.part 0) runId (fun _ => rfl)
  | scheduleChange =>
    rw [after_handle]
    unfold Prog.after
    rw [show handler env .scheduleChange = processWorkflows env from rfl, run_processWorkflows]
    exact swept_told hw env w.queue
  | retryDue stepId =>
    rw [after_handle, show handler env (.retryDue stepId) = handleRetryDue env stepId from rfl,
      after_handleRetryDue hw]
    exact fun r hr hneeds => ht.rest hr hneeds rfl
  | heartbeatTimeout activityId =>
    exact timeout_told hw (fun r hr hneeds => ht.rest hr hneeds rfl) (exec_effect hw hf crates _)

/-- Every run has steps. -/
def HasSteps (db : Db) : Prop :=
  ∀ r ∈ db.workflows, ∃ s ∈ db.workflowSteps, s.workflowRunId = r.runId

/-- Where the steps of an operation's runs come from. -/
theorem HasSteps.after (h : HasSteps db) (hw : WellFormed db) {crates : Crates}
    (hm : Moved crates env op db db')
    (hids : ∀ r' ∈ db'.workflows, (∃ r ∈ db.workflows, r.runId = r'.runId) ∨
      ∃ s ∈ db'.workflowSteps, s.workflowRunId = r'.runId) : HasSteps db' := by
  intro r' hr'
  rcases hids r' hr' with ⟨r, hr, hid⟩ | hnew
  · obtain ⟨s, hs, hrun⟩ := h r hr
    rcases hm.follow hw hs with hs' | ⟨_, hs'⟩ | ⟨_, _, _, _, _, _, _, hs'⟩
    · exact ⟨s, hs', hrun.trans hid⟩
    · exact ⟨_, hs', hrun.trans hid⟩
    · exact ⟨_, hs', (write_fixed _ _ _ _ _).run.trans (hrun.trans hid)⟩
  · exact hnew

theorem processed_runIds (env : Env) (runId : String) (db : Db) :
    (processed env runId db).workflows.map (·.runId) = db.workflows.map (·.runId) := by
  obtain ⟨f, hf, hfr⟩ := processed_runs env runId db
  rw [hf, List.map_map]
  exact List.map_congr_left (fun r _ => (hfr r).1)

theorem swept_runIds (env : Env) (db : Db) (runs : List (Uuid × Nat)) :
    (swept env db runs).workflows.map (·.runId) = db.workflows.map (·.runId) := by
  obtain ⟨f, hf, hfr⟩ := swept_runs env db runs
  rw [hf, List.map_map]
  exact List.map_congr_left (fun r _ => (hfr r).1)

theorem effect_hasSteps (h : Effect crates env op w w') (hw : WellFormed w.db)
    (hs : HasSteps w.db) : HasSteps w'.db := by
  refine hs.after hw h.moved ?_
  have hsame : ∀ {t : List WorkflowRow}, t.map (·.runId) = w.db.workflows.map (·.runId) →
      ∀ r' ∈ t, ∃ r ∈ w.db.workflows, r.runId = r'.runId := by
    intro t ht r' hr'
    have hid : r'.runId ∈ t.map (·.runId) := List.mem_map.mpr ⟨r', hr', rfl⟩
    rw [ht] at hid
    exact List.mem_map.mp hid
  have hnewRun : ∀ {run : WorkflowRow} {new old : List WorkflowStepRow} {now : Nat → Clock},
      run.runId = env.uuid 0 → FreshSteps env now w.db new →
      ∃ s ∈ old ++ new, s.workflowRunId = run.runId := by
    intro run new old now hid hnew
    obtain ⟨s, hs⟩ := List.exists_mem_of_ne_nil new hnew.nonempty
    exact ⟨s, List.mem_append_right _ hs, (hnew.ofRun s hs).trans hid.symm⟩
  intro r hr
  cases h with
  | still => exact .inl ⟨r, hr, rfl⟩
  | schedules rows notify hop queue hq => exact .inl ⟨r, hr, rfl⟩
  | reported id rep hop ht a s ha hs queue hq => exact .inl ⟨r, hr, rfl⟩
  | retimed id hop a s ha hs hrun hlt => exact .inl ⟨r, hr, rfl⟩
  | beaten id t ht => exact .inl ⟨r, hr, rfl⟩
  | started run new queue hop hid hstate hnew =>
    rcases List.mem_append.mp hr with hr | hr
    · exact .inl ⟨r, hr, rfl⟩
    · obtain rfl := List.mem_singleton.mp hr
      exact .inr (hnewRun hid hnew)
  | fired scheduleId hop _ hfired =>
    cases hfired with
    | cut t hterm => exact .inl (hsame hterm.runIds r hr)
    | started t hterm hfires run new hid hstate hnew =>
      rcases List.mem_append.mp hr with hr | hr
      · exact .inl (hsame hterm.runIds r hr)
      · obtain rfl := List.mem_singleton.mp hr
        exact .inr (hnewRun hid hnew)
  | dispatched s hs =>
    exact .inl (hsame (t := (dispatched env s w.db).workflows)
      (Table.update_column _ _ (fun _ _ _ => rfl)) r hr)
  | cancelled req hop =>
    exact .inl (hsame (cancels_update (p := fun _ => true) _ _ (fun _ _ _ => rfl)).runIds r hr)
  | expired id hop a s ha hs hrun hlt =>
    exact .inl (hsame (processed_runIds _ _ (reported env .timeout a s w.db)) r hr)
  | advanced runId hop => exact .inl (hsame (processed_runIds _ _ _) r hr)
  | swept hop => exact .inl (hsame (swept_runIds _ _ _) r hr)

/-- What holds between the actions of an attached server. -/
structure Attentive (w : World) : Prop where
  wellFormed : WellFormed w.db
  hasSteps : HasSteps w.db
  length : w.queue.length ≤ capacity
  told : Told w.db w.queue

theorem attentive_empty : Attentive .empty where
  wellFormed := .empty
  hasSteps := by intro r hr; cases hr
  length := Nat.zero_le _
  told := by intro r hr; cases hr

theorem Effect.queue_length (h : Effect crates env op w w') (hlen : w.queue.length ≤ capacity) :
    w'.queue.length ≤ capacity := by
  rcases h.queue with hq | ⟨e, _, hq⟩
  · rw [hq]
    exact hlen
  · rw [hq]
    exact enqueue_length _ _

/-- Each action that forgets no run keeps the engine attentive. -/
theorem attached_step_attentive (h : Attentive w) (crates : Crates) {o : Occurrence}
    (hc : (attached crates).admits w o) (hn : ¬ Forgets crates w o) :
    Attentive ((attached crates).step w o).2 := by
  obtain ⟨env, action⟩ := o
  cases action with
  | serve op =>
    obtain ⟨hf, hserved⟩ := hc
    have heffect := exec_effect h.wellFormed hf crates op
    exact ⟨step_wellFormed crates ⟨env, op⟩ h.wellFormed,
      effect_hasSteps heffect h.wellFormed h.hasSteps, heffect.queue_length h.length,
      served_told h.wellFormed hf h.told h.length hn rfl hserved heffect⟩
  | receive =>
    obtain ⟨hf, hne⟩ := hc
    change Attentive (receive crates env w)
    unfold receive
    obtain ⟨hwf, hsteps, hlen, htold⟩ := h
    cases hq : w.queue with
    | nil => exact absurd hq hne
    | cons e queue =>
      rw [hq] at hlen htold
      have hrest : queue.length ≤ capacity := Nat.le_of_succ_le hlen
      have heffect := exec_effect (w := { w with queue }) hwf hf crates (.handle e)
      exact ⟨step_wellFormed (w := { w with queue }) crates ⟨env, .handle e⟩ hwf,
        effect_hasSteps heffect hwf hsteps, heffect.queue_length hrest,
        handled_told (w := { w with queue }) hwf hf htold crates⟩
  | timer i =>
    obtain ⟨t, ht, _⟩ := hc
    change Attentive (goOff i w)
    unfold goOff
    rw [ht]
    refine ⟨h.wellFormed, h.hasSteps, enqueue_length _ _, fun r hr hneeds => ?_⟩
    exact told_after h.told h.length hn (.inr ⟨t.event, .timer i rfl t ht, rfl⟩) hr hneeds
  | restart =>
    refine ⟨h.wellFormed, h.hasSteps, Nat.zero_le _, fun r hr hneeds => ?_⟩
    exact absurd (.restart rfl r hr hneeds) hn

/-- In a run of the attached server in which no action forgets a run, whenever no event is queued
there is no pending workflow with steps, and every running one has a step that has not ended. -/
theorem attached_none_forgotten {ts : List AttachedStep} (hr : (attached crates).Run .empty ts w)
    (hn : ∀ τ ∈ ts, ¬ Forgets crates τ.before τ.input) (hq : w.queue = []) :
    ∀ r ∈ w.db.workflows,
      (r.state = .pending → ∀ s ∈ w.db.workflowSteps, s.workflowRunId ≠ r.runId) ∧
      (r.state = .running →
        ∃ s ∈ w.db.workflowSteps, s.workflowRunId = r.runId ∧ s.state.settled = false) := by
  have h := hr.keeps_when (P := Attentive) (C := fun w o => ¬ Forgets crates w o)
    (fun w o hw hc hno => attached_step_attentive hw crates hc hno) attentive_empty hn
  intro r hr
  have hneeds : ¬ Needs w.db r := by
    intro hneeds
    obtain ⟨e, he, _⟩ := h.told r hr hneeds
    rw [hq] at he
    cases he
  refine ⟨fun hp s hs hrun => hneeds ⟨⟨s, hs, hrun⟩, .inl hp⟩, fun hrunning => ?_⟩
  by_contra hnone
  refine hneeds ⟨h.hasSteps r hr, .inr ⟨hrunning, fun s hs hrun => ?_⟩⟩
  by_contra hset
  exact hnone ⟨s, hs, hrun, by simpa using hset⟩

/-- A run is started natively, its event is handled, and its step is handed out. -/
def nativeStart : List Action :=
  [.serve (.startWorkflow ⟨"x", [], "", "", none, ""⟩), .receive,
    .serve (.pollActivity ⟨"", ["x"]⟩)]

theorem native_start_not_forgotten :
    ∃ r ∈ ((attached plainCrates).ending .empty (story nativeStart)).db.workflows,
      r.state = .running ∧
        ∃ s ∈ ((attached plainCrates).ending .empty (story nativeStart)).db.workflowSteps,
          s.workflowRunId = r.runId ∧ s.state.settled = false := by
  have hrun : ∃ r ∈ ((attached plainCrates).ending .empty (story nativeStart)).db.workflows,
      r.state = .running := by decide +kernel
  have hroom : ∀ τ ∈ (attached plainCrates).replay .empty (story nativeStart),
      τ.before.queue.length < capacity := by decide +kernel
  have hkind : ∀ τ ∈ (attached plainCrates).replay .empty (story nativeStart),
      (match τ.input.action with
        | .serve (.startWorkflow _) | .serve (.pollActivity _) | .receive => true
        | _ => false) = true := by decide +kernel
  obtain ⟨r, hr, hstate⟩ := hrun
  refine ⟨r, hr, hstate, (attached_none_forgotten
    (Machine.run_replay World.empty (story nativeStart) (by decide +kernel)) ?_ (by decide +kernel)
    r hr).2 hstate⟩
  intro τ hτ h
  have hk := hkind τ hτ
  cases h with
  | start req hop hq =>
    rw [hop] at hk
    cases hk
  | failure req hop a s ha hs hlt r hr hrun hstate hrest hq =>
    rw [hop] at hk
    cases hk
  | overflow e hsend hfull => exact absurd (hroom τ hτ) (Nat.not_lt.mpr hfull)
  | restart hop r hr hneeds =>
    rw [hop] at hk
    cases hk

/-- A run is started through the Temporal interface. -/
def temporalStart : List Action :=
  [.serve (.startWorkflowExecution ⟨"default", "w", some "x", none, none, none, none, none⟩)]

/-- It is pending, and no event is queued. -/
theorem temporal_start_forgotten :
    ¬ ∀ (crates : Crates) (w : World), (attached crates).Reachable w → w.queue = [] →
      ∀ r ∈ w.db.workflows,
        (r.state = .pending → ∀ s ∈ w.db.workflowSteps, s.workflowRunId ≠ r.runId) ∧
        (r.state = .running →
          ∃ s ∈ w.db.workflowSteps, s.workflowRunId = r.runId ∧ s.state.settled = false) := by
  intro h
  have hreach : (attached plainCrates).Reachable
      ((attached plainCrates).ending .empty (story temporalStart)) :=
    ⟨.empty, _, rfl, Machine.run_replay _ _ (by decide +kernel)⟩
  have hwaits : ∃ r ∈ ((attached plainCrates).ending .empty (story temporalStart)).db.workflows,
      r.state = .pending ∧
        ∃ s ∈ ((attached plainCrates).ending .empty (story temporalStart)).db.workflowSteps,
          s.workflowRunId = r.runId := by decide +kernel
  obtain ⟨r, hr, hp, s, hs, hrun⟩ := hwaits
  exact (h plainCrates _ hreach (by decide +kernel) r hr).1 hp s hs hrun

end Khronos.Proofs
