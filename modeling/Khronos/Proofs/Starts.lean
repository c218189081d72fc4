import Khronos.Proofs.Polls

namespace Khronos.Proofs
open Time Lib Db.Activities Db.Workflows Server

/-- The row of a step of a fresh run. -/
def newStep (env : Env) (runId : Uuid) (args : ActivityStep → Json) (d : ActivityStep × Nat) :
    WorkflowStepRow :=
  stepRow (freshStep (env.uuid (d.2 + 1)) runId d.2 (args d.1) d.1) .pending (env.now d.2)

def addSteps (new : List WorkflowStepRow) (db : Db) : Db :=
  { db with workflowSteps := db.workflowSteps ++ new }

def addRun (r : WorkflowRow) (db : Db) : Db := { db with workflows := db.workflows ++ [r] }

theorem run_insertWorkflowStep (step : WorkflowStepInstance) (hp : step.state = .pending)
    (hid : ¬ ∃ r ∈ w.db.workflowSteps, r.id = step.id)
    (hrun : ∃ r ∈ w.db.workflows, r.runId = step.workflowRunId) (now : Clock) :
    (insertWorkflowStep now step).run w =
      (.ok (), { w with db := addSteps [stepRow step .pending now] w.db }) := by
  rw [insertWorkflowStep, run_execute, hp]
  simp only [stepState]
  rw [if_neg hid, if_pos hrun]
  rfl

/-- The loop over the steps inserts them all when their ids are new and distinct. -/
theorem run_insertStepList (runId : Uuid) (args : ActivityStep → Json)
    (failed : Nat → DbError → ε) (ds : List (ActivityStep × Nat))
    (hd : (ds.map (fun d => env.uuid (d.2 + 1))).Nodup)
    (hid : ∀ d ∈ ds, ¬ ∃ r ∈ w.db.workflowSteps, r.id = env.uuid (d.2 + 1))
    (hrun : ∃ r ∈ w.db.workflows, r.runId = runId) :
    (Prog.forEach ds fun d => (insertWorkflowStep (env.now d.2)
        (freshStep (env.uuid (d.2 + 1)) runId d.2 (args d.1) d.1)).mapError (failed d.2)).run w =
      (.ok (), { w with db := addSteps (ds.map (newStep env runId args)) w.db }) := by
  induction ds generalizing w with
  | nil => simp [Prog.forEach, addSteps]
  | cons d ds ih =>
    rw [List.map_cons, List.nodup_cons] at hd
    have h1 := run_insertWorkflowStep (w := w)
      (freshStep (env.uuid (d.2 + 1)) runId d.2 (args d.1) d.1) rfl (hid d (by simp)) hrun
      (env.now d.2)
    rw [Prog.forEach, Prog.run_bind, Prog.run_mapError, h1]
    simp only [Outcome.mapError, Prog.resume_ok]
    refine (ih (w := { w with db := addSteps [newStep env runId args d] w.db }) hd.2 ?_ hrun).trans ?_
    · rintro q hq ⟨r, hr, he⟩
      rcases List.mem_append.mp hr with hr | hr
      · exact hid q (by simp [hq]) ⟨r, hr, he⟩
      · rw [List.mem_singleton.mp hr] at he
        exact hd.1 (List.mem_map.mpr ⟨q, hq, he.symm⟩)
    · simp [addSteps]

theorem fresh_unused (hf : Fresh db env) (hi : i < 6) :
    (¬ ∃ r ∈ db.workflows, r.runId = env.uuid i) ∧
    (¬ ∃ r ∈ db.workflowSteps, r.id = env.uuid i) ∧
    (¬ ∃ r ∈ db.activities, r.id = env.uuid i) := by
  have h := hf.2 i hi
  simp only [takenIds, List.mem_append, List.mem_map, not_or] at h
  exact ⟨h.1.1, h.1.2, h.2⟩

theorem fresh_distinct (hf : Fresh db env) (hi : i < 6) (hj : j < 6)
    (he : env.uuid i = env.uuid j) : i = j :=
  List.inj_on_of_nodup_map hf.1 (List.mem_range.mpr hi) (List.mem_range.mpr hj) he

theorem stepIds_nodup (hf : Fresh db env) {defs : List ActivityStep} (hl : defs.length ≤ 5) :
    (defs.zipIdx.map (fun d => env.uuid (d.2 + 1))).Nodup := by
  rw [show (fun d : ActivityStep × Nat => env.uuid (d.2 + 1)) =
    (fun i => env.uuid (i + 1)) ∘ Prod.snd from rfl, ← List.map_map, List.zipIdx_map_snd]
  refine List.Nodup.map_on ?_ List.nodup_range'
  intro a ha b hb he
  simp only [List.mem_range'_1, Nat.zero_add] at ha hb
  have h := fresh_distinct hf (by omega) (by omega) he
  omega

theorem stepIndex_lt {defs : List ActivityStep} (hl : defs.length ≤ 5) :
    ∀ d ∈ defs.zipIdx, d.2 + 1 < 6 := by
  rintro ⟨d, i⟩ hd
  have h := (List.mem_zipIdx hd).2.1
  simp only [Nat.zero_add] at h
  omega

theorem run_insertSteps (hf : Fresh db env) (hs : w.db.workflowSteps = db.workflowSteps)
    (runId : Uuid) (hrun : ∃ r ∈ w.db.workflows, r.runId = runId) (args : ActivityStep → Json)
    (failed : Nat → DbError → ε) {defs : List ActivityStep} (hl : defs.length ≤ 5) :
    (insertSteps env runId args failed defs).run w =
      (.ok (), { w with db := addSteps (defs.zipIdx.map (newStep env runId args)) w.db }) := by
  apply run_insertStepList
  · exact stepIds_nodup hf hl
  · intro d hd
    rw [hs]
    exact (fresh_unused hf (stepIndex_lt hl d hd)).2.1
  · exact hrun

theorem definition_length (name : String) : (getWorkflowDefinition name).length ≤ 5 := by
  unfold getWorkflowDefinition
  split <;> simp [cronPipeline]

theorem schedule_definition_length (name : String) :
    (scheduleWorkflowDefinition name).length ≤ 5 := by
  unfold scheduleWorkflowDefinition
  split <;> simp [cronPipeline]

/-- The steps of a run that has just been started; `now` gives the readings of the clock that
stamp them. -/
structure FreshSteps (env : Env) (now : Nat → Clock) (db : Db) (new : List WorkflowStepRow) :
    Prop where
  nonempty : new ≠ []
  short : new.length ≤ 5
  unused : ∀ s ∈ new, s.id ∉ takenIds db
  ofRun : ∀ s ∈ new, s.workflowRunId = env.uuid 0
  waits : ∀ s ∈ new, s.state = .pending ∧ s.attempt = 0 ∧ s.resultJson = none ∧ s.nextRetryAt = none
  policy : ∀ s ∈ new, s.retryPolicyJson ∈ builtInPolicies
  ordered : new.Pairwise (fun a b => a.stepIndex < b.stepIndex)
  stamped : ∀ i s, new[i]? = some s → s.createdAt = (now i).datetime

theorem index_lt (hj : j < 5) (hij : i < j) :
    (UInt64.ofNat i).toInt64 < (UInt64.ofNat j).toInt64 := by
  have h : ∀ j < 5, ∀ i < j, (UInt64.ofNat i).toInt64 < (UInt64.ofNat j).toInt64 := by
    decide +kernel
  exact h j hj i hij

theorem freshSteps (hf : Fresh db env) (args : ActivityStep → Json) {defs : List ActivityStep}
    (hn : defs ≠ []) (hl : defs.length ≤ 5) (hp : ∀ d ∈ defs, d.retryPolicy ∈ builtInPolicies)
    (env' : Env) (hu : env'.uuid = env.uuid) :
    FreshSteps env env'.now db (defs.zipIdx.map (newStep env' (env.uuid 0) args)) where
  nonempty := by simpa using hn
  short := by simpa using hl
  unused := by
    intro s hs
    obtain ⟨⟨d, i⟩, hd, rfl⟩ := List.mem_map.mp hs
    have h := (List.mem_zipIdx hd).2.1
    simp only [Nat.zero_add] at h
    simpa [newStep, stepRow, freshStep, hu] using hf.2 (i + 1) (by omega)
  ofRun := by
    intro s hs
    obtain ⟨d, _, rfl⟩ := List.mem_map.mp hs
    rfl
  waits := by
    intro s hs
    obtain ⟨d, _, rfl⟩ := List.mem_map.mp hs
    exact ⟨rfl, rfl, rfl, rfl⟩
  policy := by
    intro s hs
    obtain ⟨⟨d, i⟩, hd, rfl⟩ := List.mem_map.mp hs
    exact hp d (List.fst_mem_of_mem_zipIdx hd)
  ordered := by
    rw [List.pairwise_map]
    have h := List.pairwise_lt_range' (s := 0) (n := defs.length) 1
    rw [← List.zipIdx_map_snd, List.pairwise_map] at h
    refine h.imp_of_mem ?_
    rintro ⟨c, i⟩ ⟨d, j⟩ _ hd hij
    have hj := (List.mem_zipIdx hd).2.1
    exact index_lt (by omega) hij
  stamped := by
    intro i s hs
    obtain ⟨⟨d, j⟩, hd, rfl⟩ := Option.map_eq_some_iff.mp (List.getElem?_map ▸ hs)
    rw [List.getElem?_zipIdx, Option.map_eq_some_iff] at hd
    obtain ⟨_, _, he⟩ := hd
    rw [← (Prod.mk.inj he).2, Nat.zero_add]
    rfl

/-- The tables after the start of a run. -/
def started (run : WorkflowRow) (new : List WorkflowStepRow) (db : Db) : Db :=
  addSteps new (addRun run db)

theorem run_insertWorkflow (wf : WorkflowInstance)
    (hn : ¬ ∃ r ∈ w.db.workflows, r.runId = wf.runId) :
    (insertWorkflow wf).run w = (.ok (), { w with db := addRun (workflowRow wf) w.db }) := by
  rw [insertWorkflow, run_execute, if_neg hn]
  rfl

/-- The steps of a definition, as the rows of the run that is started. -/
def newSteps (env : Env) (runId : Uuid) (args : ActivityStep → Json) (defs : List ActivityStep) :
    List WorkflowStepRow :=
  defs.zipIdx.map (newStep env runId args)

theorem run_startWorkflow (hf : Fresh w.db env) (req : StartWorkflowRequest) :
    (startWorkflow env req).run w = (.ok (env.uuid 0).text, { w with
      db := started (workflowRow (startedInstance env req))
        (newSteps env (env.uuid 0) (stepArgs req.args) (getWorkflowDefinition req.workflowName)) w.db
      queue := enqueue w.queue (.workflowCreated (env.uuid 0).text) }) := by
  have hrun := run_insertWorkflow (w := w) (startedInstance env req)
    (fresh_unused hf (by omega)).1
  have hsteps := run_insertSteps
    (w := { w with db := addRun (workflowRow (startedInstance env req)) w.db }) hf rfl (env.uuid 0)
    ⟨workflowRow (startedInstance env req), List.mem_append_right _ (by simp), rfl⟩
    (stepArgs req.args) createStepFailed (definition_length req.workflowName)
  unfold startWorkflow
  simp only [Prog.run_bind, Prog.run_mapError, hrun, Outcome.mapError, Prog.resume_ok,
    show (startedInstance env req).runId = env.uuid 0 from rfl, hsteps]
  rfl

theorem run_startWorkflowExecution (hf : Fresh w.db env) (crates : Crates)
    (req : StartWorkflowExecutionRequest) :
    (startWorkflowExecution crates env req).run w = (.ok ⟨(env.uuid 0).text, true⟩, { w with
      db := started (workflowRow (executionInstance crates env req))
        (newSteps env (env.uuid 0) (fun _ => (executionInstance crates env req).argsJson)
          (getWorkflowDefinition (executionInstance crates env req).name)) w.db }) := by
  have hrun := run_insertWorkflow (w := w) (executionInstance crates env req)
    (fresh_unused hf (by omega)).1
  have hsteps := run_insertSteps
    (w := { w with db := addRun (workflowRow (executionInstance crates env req)) w.db }) hf rfl
    (env.uuid 0)
    ⟨workflowRow (executionInstance crates env req), List.mem_append_right _ (by simp), rfl⟩
    (fun _ => (executionInstance crates env req).argsJson) createStepFailed
    (definition_length (executionInstance crates env req).name)
  unfold startWorkflowExecution
  simp only [Prog.run_bind, Prog.run_mapError, hrun, Outcome.mapError, Prog.resume_ok,
    show (executionInstance crates env req).runId = env.uuid 0 from rfl, hsteps]
  rfl

/-- Some active runs among those that `p` selects have been cancelled, and nothing else. -/
def Cancels (p : WorkflowRow → Bool) (t t' : List WorkflowRow) : Prop :=
  ∃ f : WorkflowRow → WorkflowRow, t' = t.map f ∧
    ∀ r ∈ t, f r = r ∨ (p r = true ∧ active r = true ∧ ∃ now, f r = cancelRun now r)

theorem Cancels.refl (p : WorkflowRow → Bool) (t : List WorkflowRow) : Cancels p t t :=
  ⟨id, by simp, fun _ _ => .inl rfl⟩

theorem Cancels.trans (h : Cancels p t u) (h' : Cancels p u v) : Cancels p t v := by
  obtain ⟨f, rfl, hf⟩ := h
  obtain ⟨g, rfl, hg⟩ := h'
  refine ⟨g ∘ f, by simp, ?_⟩
  intro r hr
  have hgr := hg (f r) (List.mem_map.mpr ⟨r, hr, rfl⟩)
  rcases hf r hr with he | ⟨hp, ha, now, he⟩
  · simpa only [Function.comp_apply, he] using hgr
  · refine .inr ⟨hp, ha, now, ?_⟩
    rw [he] at hgr
    rw [Function.comp_apply, he]
    rcases hgr with hc | ⟨_, hc, _⟩
    · exact hc
    · simp [active, cancelRun] at hc

theorem Cancels.origin (h : Cancels p t t') (hr : r ∈ t') (ha : active r = true) : r ∈ t := by
  obtain ⟨f, rfl, hf⟩ := h
  obtain ⟨q, hq, rfl⟩ := List.mem_map.mp hr
  rcases hf q hq with he | ⟨_, _, now, he⟩
  · rw [he]
    exact hq
  · simp [he, Db.Workflows.active, cancelRun] at ha

theorem cancelled_idle {now : Clock} {runId : String} {t : List WorkflowRow}
    (hr : r ∈ Table.update (cancellable runId) (cancelRun now) t) (hk : runKey r = runId) :
    active r = false := by
  obtain ⟨q, _, rfl⟩ := Table.mem_update.mp hr
  cases hc : cancellable runId q with
  | true => simp [active, cancelRun]
  | false =>
    rw [hc, if_neg Bool.false_ne_true] at hk
    simpa [cancellable, hk, hc] using hc

theorem cancels_update (now : Clock) (runId : String) {t : List WorkflowRow}
    (hp : ∀ r ∈ t, runKey r = runId → p r = true) :
    Cancels p t (Table.update (cancellable runId) (cancelRun now) t) := by
  refine ⟨_, rfl, ?_⟩
  intro r hr
  cases hc : cancellable runId r with
  | false => exact .inl (by simp)
  | true =>
    have h : runKey r = runId ∧ active r = true := by simpa [cancellable] using hc
    exact .inr ⟨hp r hr h.1, h.2, now, by simp⟩

/-- The world with other runs. -/
def withRuns (w : World) (t : List WorkflowRow) : World :=
  { w with db := { w.db with workflows := t } }

theorem run_cancelWorkflow (now : Clock) (runId : String) (w : World) :
    (Db.Workflows.cancelWorkflow now runId).run w =
      (if (w.db.workflows.filter (cancellable runId)).length = 0 then
        .error (.other "Workflow not found or already in terminal state") else .ok (), { w with
      db.workflows := Table.update (cancellable runId) (cancelRun now) w.db.workflows }) := by
  unfold Db.Workflows.cancelWorkflow
  rw [Prog.run_bind, run_execute]
  simp only [Prog.resume_ok]
  split <;> rfl

theorem after_cancelWorkflow (now : Clock) (runId : String) (w : World) :
    (Db.Workflows.cancelWorkflow now runId).after w =
      withRuns w (Table.update (cancellable runId) (cancelRun now) w.db.workflows) := by
  rw [Prog.after, run_cancelWorkflow]
  rfl

/-- A loop of cancellations, which ends at its first error. -/
theorem after_cancelLoop (env : Env) (hk : ∀ now r, p (cancelRun now r) = p r)
    (xs : List (Uuid × Nat))
    (hp : ∀ x ∈ xs, ∀ r ∈ w.db.workflows, runKey r = x.1.text → p r = true) :
    ∃ t, (Prog.forEach xs fun (runId, i) =>
        Db.Workflows.cancelWorkflow (env.now i) runId.text).after w = withRuns w t ∧
      Cancels p w.db.workflows t ∧
      (((Prog.forEach xs fun (runId, i) =>
          Db.Workflows.cancelWorkflow (env.now i) runId.text).run w).1 = .ok () →
        ∀ x ∈ xs, ∀ r ∈ t, runKey r = x.1.text → active r = false) := by
  induction xs generalizing w with
  | nil => exact ⟨w.db.workflows, rfl, Cancels.refl p _, fun _ x hx => by cases hx⟩
  | cons x xs ih =>
    have h1 := after_cancelWorkflow (env.now x.2) x.1.text w
    have hc := cancels_update (env.now x.2) x.1.text (hp x (by simp))
    change ∃ t, ((Db.Workflows.cancelWorkflow (env.now x.2) x.1.text >>= fun _ =>
      Prog.forEach xs _).run w).2 = _ ∧ _ ∧
        (((Db.Workflows.cancelWorkflow (env.now x.2) x.1.text >>= fun _ =>
          Prog.forEach xs _).run w).1 = _ → _)
    rw [Prog.run_bind]
    generalize hr : (Db.Workflows.cancelWorkflow (env.now x.2) x.1.text).run w = out at h1
    obtain ⟨out, v⟩ := out
    unfold Prog.after at h1
    rw [hr] at h1
    dsimp only at h1
    subst h1
    cases out with
    | error e => exact ⟨_, rfl, hc, fun h => by cases h⟩
    | panicked => exact ⟨_, rfl, hc, fun h => by cases h⟩
    | ok u =>
      rw [Prog.resume_ok]
      obtain ⟨t, ht, hct, hidle⟩ := ih (w := withRuns w _) (by
        intro y hy r hr he
        obtain ⟨q, hq, rfl⟩ := Table.mem_update.mp hr
        split at he
        · rw [if_pos ‹_›, hk]
          exact hp y (by simp [hy]) q hq he
        · rw [if_neg ‹_›]
          exact hp y (by simp [hy]) q hq he)
      refine ⟨t, ht, hc.trans hct, fun hok y hy r hmem he => ?_⟩
      rcases List.mem_cons.mp hy with rfl | hy
      · by_contra ha
        rw [Bool.not_eq_false] at ha
        rw [cancelled_idle (hct.origin hmem ha) he] at ha
        cases ha
      · exact hidle hok y hy r hmem he

/-- The tables before a schedule starts its run: under the policy `terminate`, a schedule that
fires has cancelled runs of its own. -/
def Terminated (crates : Crates) (env : Env) (scheduleId : String) (w : World)
    (t : List WorkflowRow) : Prop :=
  t = w.db.workflows ∨
    ∃ info, Scheduler.scheduleInfo scheduleId w.db = .ok info ∧
      info.overlapPolicy = .terminate ∧
      ((Scheduler.shouldFire crates (env.part 0) info).run w).1 = .ok true ∧
      Cancels (Scheduler.ofSchedule scheduleId) w.db.workflows t

theorem Terminated.origin (h : Terminated crates env scheduleId w t) (hr : r ∈ t)
    (ha : active r = true) : r ∈ w.db.workflows := by
  rcases h with rfl | ⟨_, _, _, _, hc⟩
  · exact hr
  · exact hc.origin hr ha

/-- The active runs can be counted: a pattern that is too long is compared with none. -/
def Countable (scheduleId : String) (db : Db) : Prop :=
  Scheduler.tooComplex scheduleId = true → db.workflows.filter active = []

/-- The last start can be read: a pattern that is too long is compared with no run. -/
def Searchable (scheduleId : String) (db : Db) : Prop :=
  Scheduler.tooComplex scheduleId = true → db.workflows = []

theorem selectActive_eq_ok {f : List WorkflowRow → α} :
    Scheduler.selectActive scheduleId f db = .ok v ↔
      Countable scheduleId db ∧ f (Scheduler.activeOf scheduleId db) = v :=
  Scheduler.compared_eq_ok

theorem selectLastStarted_eq_ok :
    Scheduler.selectLastStarted scheduleId db = .ok v ↔
      Searchable scheduleId db ∧ Scheduler.lastStarted scheduleId db = v :=
  Scheduler.compared_eq_ok

theorem searchable_of_fits (h : Scheduler.tooComplex scheduleId = false) (db : Db) :
    Searchable scheduleId db :=
  Scheduler.not_tooComplex h

theorem countable_of_fits (h : Scheduler.tooComplex scheduleId = false) (db : Db) :
    Countable scheduleId db :=
  Scheduler.not_tooComplex h

theorem activeOf_eq_nil (h : db.workflows.filter active = []) :
    Scheduler.activeOf scheduleId db = [] := by
  rw [Scheduler.activeOf, List.filter_eq_nil_iff]
  intro r hr ha
  have hmem := List.mem_filter.mpr ⟨hr, (Bool.and_eq_true_iff.mp ha).2⟩
  rw [h] at hmem
  cases hmem

/-- A pattern that is too long has not shown any active run. -/
theorem fits_of_counted (hok : Countable scheduleId db)
    (hpos : 0 < (Scheduler.activeOf scheduleId db).length) :
    Scheduler.tooComplex scheduleId = false := by
  by_contra hlong
  rw [activeOf_eq_nil (hok (by simpa using hlong))] at hpos
  cases hpos

/-- The runs that `terminate_existing` lists are active ones of the schedule. -/
theorem mem_listed (h : runId ∈ unwrapOr []
      (Scheduler.selectActive scheduleId (fun runs => runs.map (·.runId)) db)) :
    ∃ r ∈ Scheduler.activeOf scheduleId db, r.runId = runId := by
  cases hl : Scheduler.selectActive scheduleId (fun runs => runs.map (·.runId)) db with
  | error e =>
    rw [hl] at h
    cases h
  | ok ids =>
    rw [hl, ← (selectActive_eq_ok.mp hl).2] at h
    exact List.mem_map.mp h

theorem run_terminateExisting (env : Env) (scheduleId : String) (w : World) :
    (Scheduler.terminateExisting env scheduleId).run w =
      (Prog.forEach (unwrapOr []
          (Scheduler.selectActive scheduleId (fun runs => runs.map (·.runId)) w.db)).zipIdx
        fun (runId, i) => Db.Workflows.cancelWorkflow (env.now i) runId.text).run w := by
  rw [Scheduler.terminateExisting, Prog.run_bind, Prog.run_attempt, run_query]
  cases Scheduler.selectActive scheduleId (fun runs => runs.map (·.runId)) w.db <;> rfl

/-- `terminate_existing` cancels runs of the schedule, and when it succeeds and can compare them,
all of them. -/
theorem terminateExisting_terminated (hk : Table.Keyed runKey w.db.workflows) (env : Env)
    (scheduleId : String) :
    ∃ t, (Scheduler.terminateExisting env scheduleId).after w = withRuns w t ∧
      Cancels (Scheduler.ofSchedule scheduleId) w.db.workflows t ∧
      (Scheduler.tooComplex scheduleId = false →
        ((Scheduler.terminateExisting env scheduleId).run w).1 = .ok () →
          ∀ r ∈ t, Scheduler.ofSchedule scheduleId r = true → active r = false) := by
  have hof : ∀ x ∈ (unwrapOr [] (Scheduler.selectActive scheduleId (fun runs =>
      runs.map (·.runId)) w.db)).zipIdx,
      ∀ r ∈ w.db.workflows, runKey r = x.1.text → Scheduler.ofSchedule scheduleId r = true := by
    rintro ⟨runId, i⟩ hx r hr he
    obtain ⟨q, hq, rfl⟩ := mem_listed (List.fst_mem_of_mem_zipIdx hx)
    obtain ⟨hq, ha⟩ := List.mem_filter.mp hq
    obtain rfl := hk.unique hr hq he
    simp only [Bool.and_eq_true] at ha
    exact ha.1
  obtain ⟨t, ht, hc, hidle⟩ := after_cancelLoop env (fun _ _ => rfl) _ hof
  refine ⟨t, ?_, hc, fun hfits hok r hr hs => ?_⟩
  · rw [Prog.after, run_terminateExisting]
    exact ht
  · by_contra ha
    rw [Bool.not_eq_false] at ha
    have hlist : Scheduler.selectActive scheduleId (fun runs => runs.map (·.runId)) w.db =
        .ok ((Scheduler.activeOf scheduleId w.db).map (·.runId)) :=
      Scheduler.compared_fits hfits _ _
    rw [run_terminateExisting] at hok
    rw [hlist, unwrapOr_ok] at hidle hok
    have hmem : r.runId ∈ (Scheduler.activeOf scheduleId w.db).map (·.runId) :=
      List.mem_map.mpr ⟨r, List.mem_filter.mpr ⟨hc.origin hr ha, by simp [hs, ha]⟩, rfl⟩
    obtain ⟨i, hi, he⟩ := List.mem_iff_getElem.mp hmem
    have hx : (r.runId, i) ∈ ((Scheduler.activeOf scheduleId w.db).map (·.runId)).zipIdx :=
      List.mem_zipIdx_iff_getElem?.mpr (List.getElem?_eq_some_iff.mpr ⟨hi, he⟩)
    rw [hidle hok _ hx r hr rfl] at ha
    cases ha

theorem Cancels.runIds (h : Cancels p t u) : u.map (·.runId) = t.map (·.runId) := by
  obtain ⟨f, rfl, hf⟩ := h
  rw [List.map_map]
  apply List.map_congr_left
  intro r hr
  rcases hf r hr with he | ⟨_, _, now, he⟩
  · rw [Function.comp_apply, he]
  · rw [Function.comp_apply, he]
    rfl

theorem Terminated.runIds (h : Terminated crates env scheduleId w t) :
    t.map (·.runId) = w.db.workflows.map (·.runId) := by
  rcases h with rfl | ⟨_, _, _, _, hc⟩
  · rfl
  · exact hc.runIds

theorem run_startScheduleWorkflow (hf : Fresh db env) (hs : w.db.workflowSteps = db.workflowSteps)
    (hr : w.db.workflows.map (·.runId) = db.workflows.map (·.runId)) (crates : Crates)
    (info : ScheduleRow) :
    (Scheduler.startScheduleWorkflow crates env info).run w = (.ok (), { w with
      db := started (workflowRow (Scheduler.scheduledInstance crates env info))
        (newSteps (env.part 1) (env.uuid 0) (fun _ => Scheduler.scheduledArgs info)
          (scheduleWorkflowDefinition info.actionWorkflowName)) w.db
      queue := enqueue w.queue (.workflowCreated (env.uuid 0).text) }) := by
  have hn : ¬ ∃ r ∈ w.db.workflows, r.runId = env.uuid 0 := by
    rintro ⟨r, hm, he⟩
    have hid : r.runId ∈ w.db.workflows.map (·.runId) := List.mem_map.mpr ⟨r, hm, rfl⟩
    rw [hr] at hid
    obtain ⟨q, hq, hqe⟩ := List.mem_map.mp hid
    exact (fresh_unused hf (by omega)).1 ⟨q, hq, hqe.trans he⟩
  have hrun := run_insertWorkflow (w := w) (Scheduler.scheduledInstance crates env info) hn
  have hpart : Fresh db (env.part 1) := hf
  have hsteps := run_insertSteps
    (w := { w with db := addRun (workflowRow (Scheduler.scheduledInstance crates env info)) w.db })
    hpart hs (env.uuid 0)
    ⟨workflowRow (Scheduler.scheduledInstance crates env info),
      List.mem_append_right _ (by simp), rfl⟩
    (fun _ => Scheduler.scheduledArgs info) (fun _ (e : DbError) => e)
    (schedule_definition_length info.actionWorkflowName)
  unfold Scheduler.startScheduleWorkflow
  simp only [Prog.run_bind, hrun, Prog.resume_ok,
    show (Scheduler.scheduledInstance crates env info).runId = env.uuid 0 from rfl, hsteps]
  rfl

/-- A schedule is due, and its overlap policy lets it start a run. -/
def fires (crates : Crates) (env : Env) (scheduleId : String) (w : World) : Bool :=
  match Scheduler.scheduleInfo scheduleId w.db,
      Scheduler.selectActive scheduleId (fun runs => runs.length) w.db with
  | .ok info, .ok running =>
    ((Scheduler.shouldFire crates (env.part 0) info).run w).1.value? = some true &&
      !(info.overlapPolicy = .skip && 0 < running)
  | _, _ => false

/-- What a schedule fire does: nothing, cancellations alone, or these and a new run. -/
inductive Fired (crates : Crates) (env : Env) (scheduleId : String) (w : World) : World → Prop
  | cut (t : List WorkflowRow) (ht : Terminated crates env scheduleId w t) :
      Fired crates env scheduleId w (withRuns w t)
  | started (t : List WorkflowRow) (ht : Terminated crates env scheduleId w t)
      (hfires : fires crates env scheduleId w = true) (run : WorkflowRow)
      (new : List WorkflowStepRow) (hid : run.runId = env.uuid 0)
      (hstate : run.state = .pending) (hnew : FreshSteps env ((env.part 2).part 1).now w.db new) :
      Fired crates env scheduleId w { w with
        db := started run new (withRuns w t).db
        queue := enqueue w.queue (.workflowCreated (env.uuid 0).text) }

/-- What the check of an interval makes of the last start. -/
def intervalPassed (intervalSecs : UInt64) (now : Clock) : Option String → Outcome DbError Bool
  | none => .ok true
  | some text => match Scheduler.parseDatetime text with
    | .error e => .error e
    | .ok last => .ok (decide (intervalSecs.toInt64.toInt ≤ (now.time.since last).numSeconds))

/-- The check of an interval takes a last start that cannot be read for none. -/
theorem run_checkInterval (scheduleId : String) (intervalSecs : UInt64) (now : Clock) (w : World) :
    (Scheduler.checkInterval scheduleId intervalSecs now).run w =
      (intervalPassed intervalSecs now
        (unwrapOr none (Scheduler.selectLastStarted scheduleId w.db)), w) := by
  unfold Scheduler.checkInterval intervalPassed
  rw [Prog.run_bind, Prog.run_attempt, run_query]
  cases Scheduler.selectLastStarted scheduleId w.db with
  | error e => rfl
  | ok last =>
    cases last with
    | none => rfl
    | some text =>
      simp only [Outcome.ofExcept, Outcome.caught, Prog.resume_ok, unwrapOr_ok]
      cases Scheduler.parseDatetime text <;> rfl

theorem run_shouldFire_world (crates : Crates) (env : Env) (info : ScheduleRow) (w : World) :
    ((Scheduler.shouldFire crates env info).run w).2 = w := by
  unfold Scheduler.shouldFire
  split
  · split <;> rfl
  · split
    · rw [run_checkInterval]
    · rfl

/-- The world after a schedule with this row has started a run, over the runs `t`. -/
def firedWorld (crates : Crates) (env : Env) (info : ScheduleRow) (t : List WorkflowRow)
    (w : World) : World :=
  { w with
    db := started (workflowRow (Scheduler.scheduledInstance crates (env.part 2) info))
      (newSteps ((env.part 2).part 1) (env.uuid 0) (fun _ => Scheduler.scheduledArgs info)
        (scheduleWorkflowDefinition info.actionWorkflowName)) (withRuns w t).db
    queue := enqueue w.queue (.workflowCreated (env.uuid 0).text) }

/-- A schedule with this row is due and starts a run over the runs `t`: under `skip` none of its
runs was active, and under `terminate` none is any more. -/
structure Fires (crates : Crates) (env : Env) (scheduleId : String) (w : World)
    (info : ScheduleRow) (t : List WorkflowRow) : Prop where
  stored : Scheduler.scheduleInfo scheduleId w.db = .ok info
  due : ((Scheduler.shouldFire crates (env.part 0) info).run w).1 = .ok true
  runs : Terminated crates env scheduleId w t
  counted : Countable scheduleId w.db
  skip : info.overlapPolicy = .skip → Scheduler.activeOf scheduleId w.db = []
  terminate : info.overlapPolicy = .terminate →
    ∀ r ∈ t, Scheduler.ofSchedule scheduleId r = true → active r = false

theorem run_startFired (hf : Fresh w.db env) (ht : Terminated crates env scheduleId w t)
    (info : ScheduleRow) :
    (Scheduler.startScheduleWorkflow crates (env.part 2) info).after (withRuns w t) =
      firedWorld crates env info t w := by
  have hpart : Fresh w.db (env.part 2) := hf
  unfold Prog.after
  rw [run_startScheduleWorkflow (w := withRuns w t) hpart rfl ht.runIds]
  rfl

/-- With active runs under `terminate`, the start waits for their cancellation to succeed. -/
theorem terminateFirst_cases (hw : WellFormed w.db) (hf : Fresh w.db env)
    (hi : Scheduler.scheduleInfo scheduleId w.db = .ok info)
    (hdue : ((Scheduler.shouldFire crates (env.part 0) info).run w).1 = .ok true)
    (hread : Countable scheduleId w.db) (hp : info.overlapPolicy = .terminate)
    (hpos : 0 < (Scheduler.activeOf scheduleId w.db).length) :
    (∃ t, Terminated crates env scheduleId w t ∧
      (Scheduler.terminateExisting (env.part 1) scheduleId >>= fun _ =>
        Scheduler.startScheduleWorkflow crates (env.part 2) info).after w = withRuns w t) ∨
    ∃ t, Fires crates env scheduleId w info t ∧
      (Scheduler.terminateExisting (env.part 1) scheduleId >>= fun _ =>
        Scheduler.startScheduleWorkflow crates (env.part 2) info).after w =
          firedWorld crates env info t w := by
  obtain ⟨t, ht, hc, hnone⟩ := terminateExisting_terminated hw.runs (env.part 1) scheduleId
  have hfits := fits_of_counted hread hpos
  have hterm : Terminated crates env scheduleId w t := .inr ⟨info, hi, hp, hdue, hc⟩
  unfold Prog.after at ht ⊢
  rw [Prog.run_bind]
  generalize (Scheduler.terminateExisting (env.part 1) scheduleId).run w = out at ht hnone
  obtain ⟨out, u⟩ := out
  dsimp only at ht
  subst ht
  cases out with
  | error e => exact .inl ⟨t, hterm, rfl⟩
  | panicked => exact .inl ⟨t, hterm, rfl⟩
  | ok _ =>
    exact .inr ⟨t, ⟨hi, hdue, hterm, hread, fun h => absurd (hp.symm.trans h) (by decide),
      fun _ => hnone hfits rfl⟩, run_startFired hf hterm info⟩

theorem not_active_of_idle (h : Scheduler.activeOf scheduleId db = []) (hr : r ∈ db.workflows)
    (hs : Scheduler.ofSchedule scheduleId r = true) : active r = false := by
  by_contra ha
  have hmem : r ∈ Scheduler.activeOf scheduleId db :=
    List.mem_filter.mpr ⟨hr, by simpa [hs] using ha⟩
  rw [h] at hmem
  cases hmem

theorem processSchedule_cases (hw : WellFormed w.db) (hf : Fresh w.db env) (crates : Crates)
    (scheduleId : String) :
    (∃ t, Terminated crates env scheduleId w t ∧
      (Scheduler.processSchedule crates env scheduleId).after w = withRuns w t) ∨
    ∃ info t, Fires crates env scheduleId w info t ∧
      (Scheduler.processSchedule crates env scheduleId).after w = firedWorld crates env info t w := by
  have hstill : Terminated crates env scheduleId w w.db.workflows := .inl rfl
  unfold Prog.after Scheduler.processSchedule
  rw [Prog.run_bind, Prog.run_attempt, run_query]
  cases hi : Scheduler.scheduleInfo scheduleId w.db with
  | error e => exact .inl ⟨_, hstill, rfl⟩
  | ok info =>
    simp only [Outcome.ofExcept, Outcome.caught, Prog.resume_ok, Prog.run_bind]
    have hworld := run_shouldFire_world crates (env.part 0) info w
    generalize hfire : (Scheduler.shouldFire crates (env.part 0) info).run w = out at hworld
    obtain ⟨out, v⟩ := out
    dsimp only at hworld
    subst hworld
    cases out with
    | error e => exact .inl ⟨_, hstill, rfl⟩
    | panicked => exact .inl ⟨_, hstill, rfl⟩
    | ok fire =>
      cases fire with
      | false => exact .inl ⟨_, hstill, rfl⟩
      | true =>
        have hdue : ((Scheduler.shouldFire crates (env.part 0) info).run v).1 = .ok true := by
          rw [hfire]
        simp only [Prog.resume_ok, if_true, Prog.run_bind, Scheduler.checkRunningWorkflow,
          run_query]
        cases hcount : Scheduler.selectActive scheduleId
          (fun runs => decide (0 < runs.length)) v.db with
        | error e => exact .inl ⟨_, hstill, rfl⟩
        | ok running =>
          obtain ⟨hread, rfl⟩ := selectActive_eq_ok.mp hcount
          simp only [Outcome.ofExcept, Prog.resume_ok]
          cases hp : info.overlapPolicy with
          | skip =>
            dsimp only
            split
            · exact .inl ⟨_, hstill, rfl⟩
            · rename_i hidle
              have hnone : Scheduler.activeOf scheduleId v.db = [] :=
                List.eq_nil_of_length_eq_zero (by simpa using hidle)
              exact .inr ⟨info, _, ⟨hi, hdue, hstill, hread, fun _ => hnone,
                fun h => absurd (hp.symm.trans h) (by decide)⟩, run_startFired hf hstill info⟩
          | buffer =>
            exact .inr ⟨info, _, ⟨hi, hdue, hstill, hread,
              fun h => absurd (hp.symm.trans h) (by decide),
              fun h => absurd (hp.symm.trans h) (by decide)⟩, run_startFired hf hstill info⟩
          | terminate =>
            dsimp only
            split
            · rename_i hpos
              rcases terminateFirst_cases hw hf hi hdue hread hp (of_decide_eq_true hpos) with
                hcut | ⟨t, hfires, he⟩
              · exact .inl hcut
              · exact .inr ⟨info, t, hfires, he⟩
            · rename_i hidle
              have hnone : Scheduler.activeOf scheduleId v.db = [] :=
                List.eq_nil_of_length_eq_zero (by simpa using hidle)
              exact .inr ⟨info, _, ⟨hi, hdue, hstill, hread, fun _ => hnone,
                fun _ _ hr hs => not_active_of_idle hnone hr hs⟩, run_startFired hf hstill info⟩

theorem Fires.fires (h : Fires crates env scheduleId w info t) :
    fires crates env scheduleId w = true := by
  have hcount : Scheduler.selectActive scheduleId (fun runs => runs.length) w.db =
      .ok (Scheduler.activeOf scheduleId w.db).length :=
    selectActive_eq_ok.mpr ⟨h.counted, rfl⟩
  unfold Proofs.fires
  rw [h.stored, hcount]
  dsimp only
  rw [h.due]
  cases hp : info.overlapPolicy with
  | skip => simp [Outcome.value?, h.skip hp]
  | buffer => simp [Outcome.value?]
  | terminate => simp [Outcome.value?]

theorem processSchedule_fired (hw : WellFormed w.db) (hf : Fresh w.db env) (crates : Crates)
    (scheduleId : String) :
    Fired crates env scheduleId w
      ((Scheduler.processSchedule crates env scheduleId).after w) := by
  rcases processSchedule_cases hw hf crates scheduleId with ⟨t, ht, he⟩ | ⟨info, t, h, he⟩
  · rw [he]
    exact .cut t ht
  · rw [he]
    exact .started t h.runs h.fires _ _ rfl rfl
      (freshSteps hf _ (schedule_definition_nonempty _) (schedule_definition_length _)
        (schedule_definition_policies _) _ rfl)

end Khronos.Proofs
