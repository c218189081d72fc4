import Khronos.Core.Readings
import Khronos.Proofs.WellFormed

namespace Khronos.Proofs
open Time Lib Db.Activities Db.Workflows Server Engine

/-- The run of an id has begun. -/
def begun (env : Env) (runId : String) (db : Db) : Db :=
  { db with workflows := Table.update (startable runId) (startRun (env.now 0)) db.workflows }

/-- The verdict of the engine on a run: none while a step of it waits. -/
def decided (runId : String) (db : Db) : Option WorkflowState :=
  match nextStep runId db with
  | some _ => none
  | none => verdict (stepTotals runId db)

/-- The tables after `process_single_workflow`. -/
def processed (env : Env) (runId : String) (db : Db) : Db :=
  match decided runId db with
  | some state =>
    let set := setRun state none (some (env.now 1).time.format)
    let workflows := Table.update (fun r => runKey r = runId) set (begun env runId db).workflows
    { db with workflows }
  | none => begun env runId db

@[simp] theorem processed_steps (env : Env) (runId : String) (db : Db) :
    (processed env runId db).workflowSteps = db.workflowSteps := by
  unfold processed
  split <;> rfl

@[simp] theorem processed_activities (env : Env) (runId : String) (db : Db) :
    (processed env runId db).activities = db.activities := by
  unfold processed
  split <;> rfl

@[simp] theorem processed_schedules (env : Env) (runId : String) (db : Db) :
    (processed env runId db).schedules = db.schedules := by
  unfold processed
  split <;> rfl

theorem run_processSingleWorkflow (env : Env) (runId : String) (w : World) :
    (processSingleWorkflow env runId).run w =
      (.ok (), { w with db := processed env runId w.db }) := by
  have hn : nextStep runId (begun env runId w.db) = nextStep runId w.db := rfl
  have ht : stepTotals runId (begun env runId w.db) = stepTotals runId w.db := rfl
  have hb : (execute fun db => .ok ((), begun env runId db)).run w =
      (.ok (), { w with db := begun env runId w.db }) := by rw [run_execute]
  change (execute (fun db => .ok ((), begun env runId db)) >>= _).run w = _
  rw [Prog.run_bind, hb, Prog.resume_ok, Prog.run_bind, run_query]
  change Prog.run (match nextStep runId (begun env runId w.db) with | some _ => _ | none => _) _ = _
  unfold processed decided
  rw [hn]
  cases nextStep runId w.db with
  | some index => rfl
  | none =>
    dsimp only
    rw [Prog.run_bind, run_query]
    change Prog.run (match verdict (stepTotals runId (begun env runId w.db)) with
      | some _ => _ | none => _) _ = _
    rw [ht]
    cases verdict (stepTotals runId w.db) with
    | some state => rfl
    | none => rfl

/-- The timers' format reads no offset, so no text gives them an instant. -/
theorem timer_time_none (s : String) : DateTime.parseFromStr s "%Y-%m-%d %H:%M:%S" = none :=
  parse_without_offset (by decide)

/-- None is armed here. -/
theorem run_scheduleTimers (env : Env) (runId : String) (w : World) :
    (scheduleTimersForWorkflow env runId).run w = (.ok (), w) := by
  have hloop : ∀ {α : Type} (xs : List α) (body : α → Prog World DbError Unit),
      (∀ x v, (body x).run v = (.ok (), v)) → (Prog.forEach xs body).run w = (.ok (), w) := by
    intro α xs body hb
    induction xs with
    | nil => rfl
    | cons x xs ih =>
      change (body x >>= fun _ => Prog.forEach xs body).run w = _
      rw [Prog.run_bind, hb, Prog.resume_ok, ih]
  have href : ∀ a, referenceTime a = none := by
    intro a
    unfold referenceTime
    cases a.lastHeartbeatAt.or a.startedAt with
    | none => rfl
    | some text => exact timer_time_none text
  change (scheduleRetryTimersForWorkflow (env.part 0) runId >>=
    fun _ => scheduleHeartbeatTimersForWorkflow (env.part 1) runId).run w = _
  have hretry : (scheduleRetryTimersForWorkflow (env.part 0) runId).run w = (.ok (), w) := by
    change (query (fun db => .ok (retriedSteps runId db)) >>= _).run w = _
    rw [Prog.run_bind, run_query]
    refine hloop _ _ ?_
    rintro ⟨⟨stepId, nextRetryAt⟩, i⟩ v
    dsimp only
    rw [timer_time_none]
    rfl
  have hbeat : (scheduleHeartbeatTimersForWorkflow (env.part 1) runId).run w = (.ok (), w) := by
    change (query (fun db => .ok (runningActivities runId db)) >>= _).run w = _
    rw [Prog.run_bind, run_query]
    refine hloop _ _ ?_
    rintro ⟨⟨a, timeout⟩, i⟩ v
    dsimp only
    rw [href a]
    cases timeout <;> rfl
  rw [Prog.run_bind, hretry, Prog.resume_ok, hbeat]

theorem run_advanceRun (env : Env) (runId : String) (w : World) :
    (advanceRun env runId).run w =
      (.ok (), { w with db := processed (env.part 0) runId w.db }) := by
  change (processSingleWorkflow (env.part 0) runId >>= fun _ =>
    scheduleTimersForWorkflow (env.part 1) runId).run w = _
  rw [Prog.run_bind, run_processSingleWorkflow, Prog.resume_ok, run_scheduleTimers]

/-- The runs the engine goes through, one after the other. -/
def swept (env : Env) (db : Db) : List (Uuid × Nat) → Db
  | [] => db
  | (runId, i) :: rest => swept env (processed ((env.part i).part 0) runId.text db) rest

theorem run_sweep (env : Env) (runs : List (Uuid × Nat)) (w : World) :
    (Prog.forEach runs fun (runId, i) => advanceRun (env.part i) runId.text).run w =
      (.ok (), { w with db := swept env w.db runs }) := by
  induction runs generalizing w with
  | nil => rfl
  | cons r runs ih =>
    change (advanceRun (env.part r.2) r.1.text >>= fun _ => Prog.forEach runs _).run w = _
    rw [Prog.run_bind, run_advanceRun, Prog.resume_ok, ih]
    rfl

theorem run_processWorkflows (env : Env) (w : World) :
    (processWorkflows env).run w =
      (.ok (), { w with db := swept env w.db (activeRuns w.db).zipIdx }) := by
  change (query (fun db => .ok (activeRuns db)) >>= _).run w = _
  rw [Prog.run_bind, run_query]
  exact run_sweep env _ w

@[simp] theorem swept_steps (env : Env) (db : Db) (runs : List (Uuid × Nat)) :
    (swept env db runs).workflowSteps = db.workflowSteps := by
  induction runs generalizing db with
  | nil => rfl
  | cons r runs ih => rw [swept, ih, processed_steps]

@[simp] theorem swept_activities (env : Env) (db : Db) (runs : List (Uuid × Nat)) :
    (swept env db runs).activities = db.activities := by
  induction runs generalizing db with
  | nil => rfl
  | cons r runs ih => rw [swept, ih, processed_activities]

/-- A query for the row of a key finds what a search of the table finds. -/
theorem queryRow_filter (p : ρ → Bool) (g : ρ → α) (t : List ρ) :
    queryRow ((t.filter p).map g) = match t.find? p with
      | some r => .ok (g r)
      | none => .error .noRows := by
  rw [← List.head?_filter]
  cases t.filter p <;> rfl

/-- No step waits for its retry time in the way this event is for. -/
theorem after_handleRetryDue (hw : WellFormed w.db) (env : Env) (stepId : String) :
    (handleRetryDue env stepId).after w = w := by
  change ((query (stepStatus stepId) >>= _).run w).2 = w
  rw [Prog.run_bind, run_query, stepStatus, queryRow_filter]
  cases hf : w.db.workflowSteps.find? (fun r => stepKey r = stepId) with
  | none => rfl
  | some s =>
    have hs := hw.noRetried s (List.mem_of_find?_eq_some hf)
    change (Prog.run (if s.state = .retried then _ else _) w).2 = w
    rw [if_neg hs]
    rfl

theorem nextStep_none_iff {runId : String} {db : Db} :
    nextStep runId db = none ↔
      ∀ s ∈ db.workflowSteps, ofRun runId s = true → waiting s = false := by
  rw [nextStep, List.min?_eq_none_iff, List.map_eq_nil_iff, List.filter_eq_nil_iff]
  simp only [Bool.and_eq_true, not_and, Bool.not_eq_true]

/-- What the steps of a run say of it: none waits and one has failed, or all are completed. -/
def Concluded (db : Db) (u : Uuid) : WorkflowState → Prop
  | .failed => (∀ s ∈ db.workflowSteps, s.workflowRunId = u → waiting s = false) ∧
    ∃ s ∈ db.workflowSteps, s.workflowRunId = u ∧ s.state = .failed
  | .completed => (∃ s ∈ db.workflowSteps, s.workflowRunId = u) ∧
    ∀ s ∈ db.workflowSteps, s.workflowRunId = u → s.state = .completed
  | _ => False

theorem stepTotals_total {u : Uuid} {db : Db} :
    0 < (stepTotals u.text db).totalSteps ↔ ∃ s ∈ db.workflowSteps, s.workflowRunId = u := by
  simp [stepTotals, List.length_pos_iff_exists_mem, ofRun, key_iff]

theorem stepTotals_failed {u : Uuid} {db : Db} :
    0 < (stepTotals u.text db).failedCount ↔
      ∃ s ∈ db.workflowSteps, s.workflowRunId = u ∧ s.state = .failed := by
  simp [stepTotals, List.length_pos_iff_exists_mem, ofRun, key_iff, and_comm]

theorem stepTotals_completed {u : Uuid} {db : Db} :
    (stepTotals u.text db).completedCount = (stepTotals u.text db).totalSteps ↔
      ∀ s ∈ db.workflowSteps, s.workflowRunId = u → s.state = .completed := by
  simp only [stepTotals, List.length_filter_eq_length_iff]
  simp [ofRun, key_iff]

theorem nextStep_none_of (u : Uuid) (db : Db) :
    nextStep u.text db = none ↔
      ∀ s ∈ db.workflowSteps, s.workflowRunId = u → waiting s = false := by
  rw [nextStep_none_iff]
  simp [ofRun, key_iff]

theorem Concluded.nothing_waits (h : Concluded db u state) :
    ∀ s ∈ db.workflowSteps, s.workflowRunId = u → waiting s = false := by
  cases state with
  | failed => exact h.1
  | completed => exact fun s hs hr => by simp [waiting, h.2 s hs hr]
  | pending => exact h.elim
  | running => exact h.elim
  | cancelled => exact h.elim

/-- The engine decides on a run what its steps say of it. -/
theorem decided_iff {u : Uuid} {db : Db} {state : WorkflowState} :
    decided u.text db = some state ↔ Concluded db u state := by
  unfold decided
  cases hn : nextStep u.text db with
  | some index =>
    refine iff_of_false (by simp) (fun h => ?_)
    rw [(nextStep_none_of u db).mpr h.nothing_waits] at hn
    cases hn
  | none =>
    have hwait := (nextStep_none_of u db).mp hn
    have hall : (∀ s ∈ db.workflowSteps, s.workflowRunId = u → s.state = .completed) →
        ¬ ∃ s ∈ db.workflowSteps, s.workflowRunId = u ∧ s.state = .failed := by
      rintro hc ⟨s, hs, hr, hf⟩
      rw [hc s hs hr] at hf
      cases hf
    have hsome : (∃ s ∈ db.workflowSteps, s.workflowRunId = u ∧ s.state = .failed) →
        ∃ s ∈ db.workflowSteps, s.workflowRunId = u :=
      fun ⟨s, hs, hr, _⟩ => ⟨s, hs, hr⟩
    dsimp only
    rw [verdict]
    simp only [gt_iff_lt, stepTotals_total, stepTotals_failed, stepTotals_completed]
    cases state with
    | failed =>
      simp only [Concluded]
      split_ifs with ht hf hc <;> simp_all
    | completed =>
      simp only [Concluded]
      split_ifs with ht hf hc <;> simp_all
    | pending => split_ifs <;> simp [Concluded]
    | running => split_ifs <;> simp [Concluded]
    | cancelled => split_ifs <;> simp [Concluded]

/-- The state in which the engine leaves a run it looks at. -/
def advancedState (db : Db) (r : WorkflowRow) : WorkflowState :=
  (decided (runKey r) db).getD (if r.state = .pending then .running else r.state)

theorem decided_congr (h : db'.workflowSteps = db.workflowSteps) (runId : String) :
    decided runId db' = decided runId db := by
  simp only [decided, nextStep, stepTotals, h]

theorem advancedState_congr (h : db'.workflowSteps = db.workflowSteps) (r : WorkflowRow) :
    advancedState db' r = advancedState db r := by
  simp only [advancedState, decided_congr h]

/-- What the engine writes on the runs when it looks at one of them. -/
theorem processed_runs (env : Env) (runId : String) (db : Db) :
    ∃ f : WorkflowRow → WorkflowRow, (processed env runId db).workflows = db.workflows.map f ∧
      ∀ r, (f r).runId = r.runId ∧
        (f r).state = if runKey r = runId then advancedState db r else r.state := by
  unfold processed begun
  cases hd : decided runId db with
  | none =>
    refine ⟨_, rfl, fun r => ?_⟩
    by_cases hk : runKey r = runId
    · by_cases hp : r.state = .pending
      · simp [startable, startRun, advancedState, hk, hp, hd]
      · simp [startable, advancedState, hk, hp, hd]
    · simp [startable, hk]
  | some state =>
    refine ⟨_, List.map_map, fun r => ?_⟩
    by_cases hk : runKey r = runId
    · by_cases hp : r.state = .pending
      · simp [startable, startRun, setRun, advancedState, runKey, hp] at hk ⊢
        simp [hk, hd]
      · simp [startable, setRun, advancedState, hk, hp, hd]
    · simp [startable, hk]

/-- Looking at a run twice changes nothing more. -/
theorem advancedState_again (db : Db) {q r : WorkflowRow} (hid : q.runId = r.runId)
    (hs : q.state = advancedState db r) : advancedState db q = advancedState db r := by
  have hk : runKey q = runKey r := congrArg Uuid.text hid
  unfold advancedState at hs ⊢
  rw [hk, hs]
  cases decided (runKey r) db with
  | some state => rfl
  | none =>
    by_cases hp : r.state = .pending <;> simp [hp]

/-- What the engine writes on the runs when it goes through some of them. -/
theorem swept_runs (env : Env) (db : Db) (runs : List (Uuid × Nat)) :
    ∃ f : WorkflowRow → WorkflowRow, (swept env db runs).workflows = db.workflows.map f ∧
      ∀ r, (f r).runId = r.runId ∧
        (f r).state = if r.runId ∈ runs.map Prod.fst then advancedState db r else r.state := by
  induction runs generalizing db with
  | nil => exact ⟨id, by simp [swept], by simp⟩
  | cons x runs ih =>
    obtain ⟨f, hf, hfr⟩ := processed_runs ((env.part x.2).part 0) x.1.text db
    obtain ⟨g, hg, hgr⟩ := ih (processed ((env.part x.2).part 0) x.1.text db)
    refine ⟨g ∘ f, by rw [swept, hg, hf, List.map_map], fun r => ?_⟩
    obtain ⟨hfid, hfs⟩ := hfr r
    obtain ⟨hgid, hgs⟩ := hgr (f r)
    refine ⟨hgid.trans hfid, ?_⟩
    rw [Function.comp_apply, hgs, hfid, advancedState_congr (processed_steps _ _ _)]
    have hx : runKey r = x.1.text ↔ r.runId = x.1 := key_iff
    by_cases hk : r.runId = x.1
    · rw [if_pos (hx.mpr hk)] at hfs
      rw [advancedState_again db hfid hfs, hfs]
      simp [hk]
    · rw [if_neg (fun h => hk (hx.mp h))] at hfs
      have hsame : advancedState db (f r) = advancedState db r := by
        unfold advancedState runKey
        rw [hfid, hfs]
      rw [hsame, hfs]
      simp only [List.map_cons, List.mem_cons, hk, false_or]

/-- The engine has looked at the runs of a kind. -/
structure Looked (p : WorkflowRow → Prop) [DecidablePred p] (db db' : Db) : Prop where
  steps : db'.workflowSteps = db.workflowSteps
  runs : ∀ r' ∈ db'.workflows, ∃ r ∈ db.workflows, r'.runId = r.runId ∧
    r'.state = if p r then advancedState db r else r.state

theorem processed_looked (env : Env) (runId : String) (db : Db) :
    Looked (fun r => runKey r = runId) db (processed env runId db) := by
  obtain ⟨f, hf, hfr⟩ := processed_runs env runId db
  refine ⟨processed_steps env runId db, fun r' hr' => ?_⟩
  rw [hf] at hr'
  obtain ⟨r, hr, rfl⟩ := List.mem_map.mp hr'
  exact ⟨r, hr, hfr r⟩

end Khronos.Proofs
