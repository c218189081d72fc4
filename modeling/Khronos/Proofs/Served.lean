import Khronos.Proofs.Attempts
import Khronos.Proofs.Dated

namespace Khronos.Proofs
open Time Lib Db.Activities Db.Workflows Server

/-- A step that waits has been attempted fewer times than any built-in policy allows. -/
def Unspent (db : Db) : Prop :=
  ∀ s ∈ db.workflowSteps, s.state = .pending → s.attempt.toNat < 3

theorem moved_unspent {crates : Crates} (hw : WellFormed db) (hp : BuiltIn db) (hu : Unspent db)
    (hm : Moved crates env op db db') : Unspent db' := by
  intro q hq hstate
  cases hm with
  | still hs ha =>
    rw [hs] at hq
    exact hu q hq hstate
  | beaten id hs ha =>
    rw [hs] at hq
    exact hu q hq hstate
  | started new hop hnew hs ha =>
    rw [hs] at hq
    rcases List.mem_append.mp hq with hq | hq
    · exact hu q hq hstate
    · rw [(hnew.waits q hq).2.1]
      simp
  | dispatched s hc hs ha =>
    rw [hs, mem_dispatched_steps hw (chosen_mem hc).1] at hq
    rcases hq with rfl | ⟨hq, -⟩
    · cases hstate
    · exact hu q hq hstate
  | reported id rep hop a s hact hstep hh hs ha =>
    have hmem := (stepOf_mem hstep).1
    rw [hs, mem_reported_steps hw hmem] at hq
    rcases hq with rfl | ⟨hq, -⟩
    · rcases write_pending hstate with ⟨hlt, hattempt⟩ | hsame
      · have hmax := builtIn_maximum (hp s hmem)
        rw [hattempt]
        exact Nat.lt_of_lt_of_le (UInt32.lt_iff_toNat_lt.mp hlt) hmax
      · rw [hsame] at hstate ⊢
        exact hu s hmem hstate
    · exact hu q hq hstate

theorem reachable_unspent (hw : (server crates).Reachable w) : Unspent w.db := by
  obtain ⟨s, ts, rfl, hr⟩ := hw
  refine (run_moved (P := fun db => BuiltIn db ∧ Unspent db) ?_ hr .empty
    ⟨builtIn_empty, fun s hs => by cases hs⟩).2.2
  intro db db' env op hw _ h hm
  exact ⟨moved_builtIn hw h.1 hm, moved_unspent hw h.1 h.2 hm⟩

/-- A step is ready at a clock time: it is pending, and the time of its retry, if it has one, is not
after the current second. The times are compared as the texts they are stored as. -/
structure Ready (now : Clock) (s : WorkflowStepRow) : Prop where
  pending : s.state = .pending
  due : ∀ t ∈ s.nextRetryAt, textLe t now.datetime = true

theorem ready_iff (hw : WellFormed db) (hs : s ∈ db.workflowSteps) (now : Clock) :
    ready now s = true ↔ Ready now s := by
  have hn := hw.noRetried s hs
  unfold ready
  cases hnext : s.nextRetryAt with
  | none =>
    constructor
    · intro h
      exact ⟨of_decide_eq_true h, by simp [hnext]⟩
    · intro h
      exact decide_eq_true h.pending
  | some t =>
    simp only [hn, decide_false, Bool.or_false, Bool.and_eq_true, decide_eq_true_eq]
    constructor
    · rintro ⟨hp, ht⟩
      exact ⟨hp, by simpa [hnext] using ht⟩
    · intro h
      exact ⟨h.pending, h.due t (by simp [hnext])⟩

/-- What handing a step out as an activity makes of the steps and the activities: this step runs,
attempted once more, there is one new activity, which runs for it, and nothing else changes. -/
structure HandsOver (activityId : Uuid) (s : WorkflowStepRow) (db db' : Db) : Prop where
  step : ∃ pre post s', db.workflowSteps = pre ++ s :: post ∧
    db'.workflowSteps = pre ++ s' :: post ∧ s'.id = s.id ∧ s'.state = .running ∧
      s'.attempt.toNat = s.attempt.toNat + 1 ∧ s'.nextRetryAt = none
  activity : ∃ a, db'.activities = db.activities ++ [a] ∧ (∀ b ∈ db.activities, b.id ≠ a.id) ∧
    a.id = activityId ∧ a.stepId = s.id ∧ a.attempt.toNat = s.attempt.toNat + 1 ∧ a.state = .running

/-- A poll at a clock time for the steps that fit: it is answered without a task exactly when none
of them is ready, and then changes nothing; otherwise it hands out the oldest that is. -/
structure Attends (now : Clock) (activityId : Uuid) (fits : WorkflowStepRow → Prop)
    (idle : Prop) (tells : WorkflowStepRow → Prop) (w w' : World) : Prop where
  idle_iff : idle ↔ ∀ s ∈ w.db.workflowSteps, Ready now s → ¬ fits s
  still : idle → w' = w
  task : ¬ idle → ∃ s ∈ w.db.workflowSteps, Ready now s ∧ fits s ∧
    (∀ q ∈ w.db.workflowSteps, Ready now q → fits q → textLe s.createdAt q.createdAt = true) ∧
    tells s ∧ HandsOver activityId s w.db w'.db

theorem dispatched_handsOver (hw : WellFormed db) (hu : Unspent db) (hf : Fresh db env)
    (hs : s ∈ db.workflowSteps) (hp : s.state = .pending) :
    HandsOver (env.uuid 0) s db (dispatched env s db) where
  step := by
    have hattempt := hu s hs hp
    obtain ⟨pre, post, ht, ht'⟩ :=
      hw.steps.update_split hs (setStep .running (some (s.attempt + 1)) none none)
    exact ⟨pre, post, running s, ht, ht', rfl, rfl, toNat_succ (by omega), rfl⟩
  activity := by
    have hattempt := hu s hs hp
    refine ⟨newAttempt env s, rfl, ?_, rfl, rfl, toNat_succ (by omega), rfl⟩
    intro b hb he
    refine hf.2 0 (by omega) (List.mem_append_right _ ?_)
    exact List.mem_map.mpr ⟨b, hb, he⟩

/-- The chosen step is the oldest of those that are ready and fit. -/
theorem chosen_oldest (hw : WellFormed db) (hc : chosen env op db = some s)
    (hq : q ∈ db.workflowSteps) (hr : Ready (env.now 0) q) (ha : asks db op q = true) :
    textLe s.createdAt q.createdAt = true := by
  obtain ⟨-, pre, post, ht, hpre, hpost⟩ := chosen_foremost hc
  have hoffered : offered env op db q = true :=
    Bool.and_eq_true_iff.mpr ⟨(ready_iff hw hq _).mpr hr, ha⟩
  rw [ht] at hq
  rcases List.mem_append.mp hq with hq | hq
  · -- One that stands before it is later.
    have hlater := hpre q hq hoffered
    exact (Std.Total.total (r := fun a b : WorkflowStepRow => textLe a.createdAt b.createdAt = true)
      s q).resolve_right (by simp [hlater])
  · rcases List.mem_cons.mp hq with rfl | hq
    · simp [textLe_iff]
    · exact hpost q hq hoffered

theorem chosen_none_ready (hw : WellFormed db) :
    chosen env op db = none ↔
      ∀ s ∈ db.workflowSteps, Ready (env.now 0) s → asks db op s ≠ true := by
  rw [chosen_none_iff]
  refine forall₂_congr (fun s hs => ?_)
  rw [← ready_iff hw hs, offered]
  simp

theorem pollActivity_idle (hd : Readable w.db) (hw : WellFormed w.db)
    (hc : chosen env (.pollActivity req) w.db = none) :
    (pollActivity env req).run w = (.ok ⟨none, false⟩, w) := by
  obtain ⟨steps, hp⟩ := pendingSteps_read (env.now 0) hd hw
  have hnone : steps.find? (asksFor req) = none :=
    find_mapM_none (fun r y hy => by simp [asksFor, asks, (rowToStep_decodes hy).name]) hp hc
  simp only [pollActivity, getPendingSteps, Prog.run_bind, Prog.run_mapError, run_query, hp,
    Outcome.ofExcept, Outcome.mapError, Prog.resume_ok, hnone]
  rfl

theorem pollActivity_handed (hd : Readable w.db) (hw : WellFormed w.db) (hf : Fresh w.db env)
    (hc : chosen env (.pollActivity req) w.db = some s) :
    ∃ x, Decodes s x ∧ (pollActivity env req).run w =
      (.ok ⟨some (activityTask (env.uuid 0) x), true⟩, { w with db := dispatched env s w.db }) := by
  obtain ⟨steps, hp⟩ := pendingSteps_read (env.now 0) hd hw
  obtain ⟨x, hx, hdx⟩ := find_mapM_some (p := asksFor req)
    (fun r y hy => by simp [asksFor, asks, (rowToStep_decodes hy).name]) hp hc
  refine ⟨x, rowToStep_decodes hdx, ?_⟩
  simp only [pollActivity, getPendingSteps, Prog.run_bind, Prog.run_mapError, run_query, hp,
    Outcome.ofExcept, Outcome.mapError, Prog.resume_ok, hx,
    run_handOut hf (chosen_mem hc).1 (rowToStep_decodes hdx)]
  rfl

/-- The steps that a poll of a queue looks for among the decoded ones. -/
theorem asks_decoded (db : Db) (req : PollActivityTaskQueueRequest) (hy : rowToStep r = .ok y) :
    decide (unwrapOr "" (runTaskQueue y.workflowRunId.text db) = req.taskQueue.getD "") =
      asks db (.pollActivityTaskQueue req) r := by
  rw [asks, (rowToStep_decodes hy).run]

theorem pollActivityTaskQueue_idle (crates : Crates) (hd : Readable w.db) (hw : WellFormed w.db)
    (hc : chosen env (.pollActivityTaskQueue req) w.db = none) :
    (pollActivityTaskQueue crates env req).run w = (.ok .default, w) := by
  obtain ⟨steps, hp⟩ := pendingSteps_read (env.now 0) hd hw
  have hnone := find_mapM_none (fun r y hy => asks_decoded w.db req hy) hp hc
  simp only [pollActivityTaskQueue, getPendingSteps, Prog.run_bind, Prog.run_mapError,
    run_query, hp, Outcome.ofExcept, Outcome.mapError, Prog.resume_ok, run_scanQueue, hnone]
  rfl

theorem pollActivityTaskQueue_handed (crates : Crates) (hd : Readable w.db) (hw : WellFormed w.db)
    (hf : Fresh w.db env) (hc : chosen env (.pollActivityTaskQueue req) w.db = some s) :
    ∃ resp, resp.activityType = some s.activityName ∧
      resp.taskToken = intoBytes (env.uuid 0).text ∧
      resp.workflowExecution = some (s.workflowRunId.text, s.workflowRunId.text) ∧
      (pollActivityTaskQueue crates env req).run w =
        (.ok resp, { w with db := dispatched env s w.db }) := by
  obtain ⟨steps, hp⟩ := pendingSteps_read (env.now 0) hd hw
  obtain ⟨x, hx, hdx⟩ := find_mapM_some (fun r y hy => asks_decoded w.db req hy) hp hc
  have hdec := rowToStep_decodes hdx
  simp only [pollActivityTaskQueue, getPendingSteps, Prog.run_bind, Prog.run_mapError,
    run_query, hp, Outcome.ofExcept, Outcome.mapError, Prog.resume_ok, run_scanQueue, hx,
    run_handOut hf (chosen_mem hc).1 hdec, Prog.run_attempt]
  have hname := congrArg some hdec.name
  have hrun : some (x.workflowRunId.text, x.workflowRunId.text) =
      some (s.workflowRunId.text, s.workflowRunId.text) := by rw [hdec.run]
  cases runNamespace x.workflowRunId.text (dispatched env s w.db) with
  | ok ns => exact ⟨_, hname, rfl, hrun, rfl⟩
  | error e => exact ⟨_, hname, rfl, hrun, rfl⟩

/-- The queue of the run of a step. -/
theorem runTaskQueue_of (hw : WellFormed db) (hr : r ∈ db.workflows) :
    runTaskQueue r.runId.text db = .ok r.taskQueue := by
  have hone : db.workflows.find? (fun q => runKey q = r.runId.text) = some r :=
    hw.runs.find_iff.mpr ⟨hr, rfl⟩
  rw [runTaskQueue, queryRow_filter, hone]

/-- A step of a run that is on a queue. -/
def OnQueue (db : Db) (taskQueue : String) (s : WorkflowStepRow) : Prop :=
  ∃ r ∈ db.workflows, r.runId = s.workflowRunId ∧ r.taskQueue = taskQueue

theorem asks_queue (hw : WellFormed db) (hs : s ∈ db.workflowSteps)
    (req : PollActivityTaskQueueRequest) :
    asks db (.pollActivityTaskQueue req) s = true ↔ OnQueue db (req.taskQueue.getD "") s := by
  obtain ⟨r, hr, hid⟩ := hw.ofRun s hs
  have hqueue : unwrapOr "" (runTaskQueue s.workflowRunId.text db) = r.taskQueue := by
    rw [← hid, runTaskQueue_of hw hr, unwrapOr_ok]
  rw [asks, decide_eq_true_eq, hqueue]
  constructor
  · intro hq
    exact ⟨r, hr, hid, hq⟩
  · rintro ⟨q, hq, hqid, hqueue⟩
    rw [hw.runs.unique hr hq (key_iff.mpr (hid.trans hqid.symm)), hqueue]

/-- What a poll leaves when it hands out the step that is chosen. -/
theorem chosen_served (hw : (server crates).Reachable w) (hf : Fresh w.db env)
    (hc : chosen env op w.db = some s) {fits : WorkflowStepRow → Prop}
    (hfits : ∀ q ∈ w.db.workflowSteps, asks w.db op q = true ↔ fits q)
    {tells : WorkflowStepRow → Prop} (ht : tells s) {idle : Prop} (hi : ¬ idle) :
    Attends (env.now 0) (env.uuid 0) fits idle tells w
      { w with db := dispatched env s w.db } := by
  obtain ⟨-, hwf⟩ := reachable_readable hw
  obtain ⟨hs, hready, hasks⟩ := chosen_mem hc
  have hr := (ready_iff hwf hs _).mp hready
  refine ⟨iff_of_false hi (fun h => h s hs hr ((hfits s hs).mp hasks)), fun h => absurd h hi,
    fun _ => ⟨s, hs, hr, (hfits s hs).mp hasks, ?_, ht, ?_⟩⟩
  · intro q hq hqr hqf
    exact chosen_oldest hwf hc hq hqr ((hfits q hq).mpr hqf)
  · exact dispatched_handsOver hwf (reachable_unspent hw) hf hs hr.pending

theorem none_served (hw : WellFormed w.db) (hc : chosen env op w.db = none)
    {fits : WorkflowStepRow → Prop}
    (hfits : ∀ q ∈ w.db.workflowSteps, asks w.db op q = true ↔ fits q)
    {tells : WorkflowStepRow → Prop} {idle : Prop} (hi : idle) (activityId : Uuid) :
    Attends (env.now 0) activityId fits idle tells w w := by
  refine ⟨iff_of_true hi ?_, fun _ => rfl, fun h => absurd hi h⟩
  intro s hs hr hfit
  exact (chosen_none_ready hw).mp hc s hs hr ((hfits s hs).mpr hfit)

/-- In every reachable state each poll is answered, and serves the steps it is for: the native one
those of the types it lists, the Temporal one those of the runs on its queue. The texts that it
compares stand in the order of the seconds they are of. -/
theorem polls_serve (hw : (server crates).Reachable w) (hf : Fresh w.db env) :
    (∀ req : PollActivityRequest, ∃ resp w', (pollActivity env req).run w = (.ok resp, w') ∧
      Attends (env.now 0) (env.uuid 0) (fun s => s.activityName ∈ req.activityTypes)
        (resp.hasTask = false)
        (fun s => ∃ task, resp.task = some task ∧ task.activityId = (env.uuid 0).text ∧
          task.stepId = s.id.text ∧ task.workflowRunId = s.workflowRunId.text ∧
          task.name = s.activityName) w w') ∧
    (∀ req : PollActivityTaskQueueRequest, ∃ resp w',
      (pollActivityTaskQueue crates env req).run w = (.ok resp, w') ∧
      Attends (env.now 0) (env.uuid 0) (OnQueue w.db (req.taskQueue.getD ""))
        (resp = .default)
        (fun s => resp.activityType = some s.activityName ∧
          resp.taskToken = intoBytes (env.uuid 0).text ∧
          resp.workflowExecution = some (s.workflowRunId.text, s.workflowRunId.text)) w w') ∧
    ∀ d e : DateTime, d.Plain → e.Plain → (textLe d.format e.format = true ↔ d.secs ≤ e.secs) := by
  obtain ⟨hd, hwf⟩ := reachable_readable hw
  refine ⟨fun req => ?_, fun req => ?_, fun d e hd he => textLe_format hd he⟩
  · have hfits : ∀ q ∈ w.db.workflowSteps, asks w.db (.pollActivity req) q = true ↔
        q.activityName ∈ req.activityTypes := fun q _ => by simp [asks]
    cases hc : chosen env (.pollActivity req) w.db with
    | none =>
      exact ⟨_, _, pollActivity_idle hd hwf hc, none_served hwf hc hfits rfl _⟩
    | some s =>
      obtain ⟨x, hx, hrun⟩ := pollActivity_handed hd hwf hf hc
      refine ⟨_, _, hrun, chosen_served hw hf hc hfits ⟨_, rfl, rfl, ?_, ?_, hx.name⟩ (by simp)⟩
      · exact congrArg Uuid.text hx.id
      · exact congrArg Uuid.text hx.run
  · have hfits : ∀ q ∈ w.db.workflowSteps, asks w.db (.pollActivityTaskQueue req) q = true ↔
        OnQueue w.db (req.taskQueue.getD "") q := fun q hq => asks_queue hwf hq req
    cases hc : chosen env (.pollActivityTaskQueue req) w.db with
    | none =>
      exact ⟨_, _, pollActivityTaskQueue_idle crates hd hwf hc, none_served hwf hc hfits rfl _⟩
    | some s =>
      obtain ⟨resp, hname, htoken, hexec, hrun⟩ := pollActivityTaskQueue_handed crates hd hwf hf hc
      refine ⟨_, _, hrun, chosen_served hw hf hc hfits ⟨hname, htoken, hexec⟩ ?_⟩
      rintro rfl
      cases hname

/-- A run has been started, and a worker polls for its first step. -/
theorem started_served :
    ∃ resp w', (pollActivity (turn 1) ⟨"", ["x"]⟩).run
        (worldAfter [.startWorkflow ⟨"x", [], "", "", none, ""⟩]) = (.ok resp, w') ∧
      resp.hasTask = true ∧
      ∃ s, HandsOver ((turn 1).uuid 0) s
        (worldAfter [.startWorkflow ⟨"x", [], "", "", none, ""⟩]).db w'.db := by
  have hw : (server plainCrates).Reachable
      (worldAfter [.startWorkflow ⟨"x", [], "", "", none, ""⟩]) :=
    ⟨_, _, rfl, script_run _ (by decide +kernel)⟩
  have hf : Fresh (worldAfter [.startWorkflow ⟨"x", [], "", "", none, ""⟩]).db (turn 1) := by
    decide +kernel
  obtain ⟨resp, w', hrun, hserves⟩ := (polls_serve hw hf).1 ⟨"", ["x"]⟩
  have htask : (((pollActivity (turn 1) ⟨"", ["x"]⟩).run
      (worldAfter [.startWorkflow ⟨"x", [], "", "", none, ""⟩])).1.value?.any
        (fun resp => resp.hasTask)) = true := by decide +kernel
  rw [hrun] at htask
  have hhas : resp.hasTask = true := htask
  obtain ⟨s, -, -, -, -, -, hover⟩ := hserves.task (by simp [hhas])
  exact ⟨resp, w', hrun, hhas, s, hover⟩

end Khronos.Proofs
