import Khronos.Lib.Batches
import Khronos.Proofs.Reports

namespace Khronos.Proofs
open Time Lib Db.Activities Db.Workflows Server

theorem fromUTF8_intoBytes (s : String) : String.fromUTF8? ⟨(intoBytes s).toArray⟩ = some s := by
  unfold intoBytes String.fromUTF8?
  simp only [Array.toArray_toList, String.toUTF8_eq_toByteArray]
  rw [dif_pos s.isValidUTF8]
  rfl

theorem fromUtf8Lossy_intoBytes (crates : Crates) (s : String) :
    fromUtf8Lossy crates (intoBytes s) = s := by
  rw [fromUtf8Lossy, fromUTF8_intoBytes]

/-- What a decoded step shares with its row. -/
structure Decodes (r : WorkflowStepRow) (x : WorkflowStepInstance) : Prop where
  id : x.id = r.id
  run : x.workflowRunId = r.workflowRunId
  name : x.activityName = r.activityName
  attempt : x.attempt = r.attempt

theorem rowToStep_decodes (h : rowToStep r = .ok x) : Decodes r x := by
  unfold rowToStep at h
  obtain ⟨state, -, h⟩ := bind_eq_ok.mp h
  obtain ⟨next, -, h⟩ := bind_eq_ok.mp h
  cases h
  exact ⟨rfl, rfl, rfl, rfl⟩

/-- Whether a poll asks for a step: by the type of its activity, or by the queue of its run. -/
def asks (db : Db) : Op → WorkflowStepRow → Bool
  | .pollActivity req, r => req.activityTypes.contains r.activityName
  | .pollActivityTaskQueue req, r =>
    unwrapOr "" (runTaskQueue r.workflowRunId.text db) = req.taskQueue.getD ""
  | _, _ => false

/-- The first ready step that an operation asks for, in the order of the poll's query. -/
def chosen (env : Env) (op : Op) (db : Db) : Option WorkflowStepRow :=
  (byCreation (db.workflowSteps.filter (ready (env.now 0)))).find? (asks db op)

def addActivity (a : ActivityRow) (db : Db) : Db := { db with activities := db.activities ++ [a] }

/-- The tables after an update of the run of an id. -/
def onRun (runId : String) (f : WorkflowRow → WorkflowRow) (db : Db) : Db :=
  let workflows := Table.update (fun r => runKey r = runId) f db.workflows
  { db with workflows }

/-- The tables after a step has been handed out. -/
def dispatched (env : Env) (s : WorkflowStepRow) (db : Db) : Db :=
  onRun s.workflowRunId.text (setRun .running none (some (env.now 2).time.format))
    (addActivity (attemptRow (env.uuid 0) s.id (s.attempt + 1) (env.now 1))
      (onStep s.id.text (setStep .running (some (s.attempt + 1)) none none) db))

/-- The steps that a poll reads are decoded from rows. -/
theorem pendingSteps_origin (h : pendingSteps now db = .ok steps) (hx : x ∈ steps) :
    ∃ s ∈ db.workflowSteps, rowToStep s = .ok x := by
  obtain ⟨s, hs, hd⟩ := mapM_mem h hx
  rw [byCreation, List.mem_insertionSort] at hs
  exact ⟨s, (List.mem_filter.mp hs).1, hd⟩

theorem chosen_mem (h : chosen env op db = some s) :
    s ∈ db.workflowSteps ∧ ready (env.now 0) s = true ∧ asks db op s = true := by
  have hm : s ∈ byCreation (db.workflowSteps.filter (ready (env.now 0))) :=
    List.mem_of_find?_eq_some h
  rw [byCreation, List.mem_insertionSort] at hm
  obtain ⟨hs, hr⟩ := List.mem_filter.mp hm
  exact ⟨hs, hr, by simpa using List.find?_some h⟩

theorem asks_not_handle (h : asks db op s = true) (event : EngineEvent) : op ≠ .handle event := by
  intro he
  rw [he] at h
  cases h

theorem asks_not_fire (h : asks db op s = true) (scheduleId : String) :
    op ≠ .scheduleFire scheduleId := by
  intro he
  rw [he] at h
  cases h

theorem run_insertActivityAttempt (hid : ¬ ∃ r ∈ w.db.activities, r.id = u)
    (hstep : ∃ r ∈ w.db.workflowSteps, r.id = v) (now : Clock) (n : UInt32) :
    (insertActivityAttempt now u v n).run w =
      (.ok (), { w with db := addActivity (attemptRow u v n now) w.db }) := by
  rw [insertActivityAttempt, run_execute, if_neg hid, if_pos hstep]
  rfl

theorem run_handOut (hf : Fresh w.db env) (hs : s ∈ w.db.workflowSteps) (hx : Decodes s x) :
    (handOut env x).run w = (.ok (env.uuid 0), { w with db := dispatched env s w.db }) := by
  let db := onStep s.id.text (setStep .running (some (s.attempt + 1)) none none) w.db
  have hid : ¬ ∃ r ∈ db.activities, r.id = env.uuid 0 := by
    rintro ⟨r, hr, he⟩
    exact hf.2 0 (by omega) (by
      rw [← he]
      exact List.mem_append_right _ (List.mem_map.mpr ⟨r, hr, rfl⟩))
  have hstep : ∃ r ∈ db.workflowSteps, r.id = s.id :=
    ⟨_, Table.update_mem hs, by simp [stepKey, setStep]⟩
  have hinsert := run_insertActivityAttempt (w := { w with db }) hid hstep (env.now 1)
    (s.attempt + 1)
  unfold handOut
  simp only [Prog.run_bind, Prog.run_mapError, hx.id, hx.attempt, hx.run,
    run_updateStepState .running .running rfl, Option.map_none, Outcome.mapError, Prog.resume_ok]
  rw [hinsert]
  rfl

theorem run_scanQueue (taskQueue : String) (steps : List WorkflowStepInstance) (w : World) :
    (scanQueue taskQueue steps : Prog World ε _).run w =
      (.ok (steps.find? (fun x =>
        unwrapOr "" (runTaskQueue x.workflowRunId.text w.db) = taskQueue)), w) := by
  induction steps with
  | nil => rfl
  | cons x xs ih =>
    have hq : ((query (runTaskQueue x.workflowRunId.text)).attempt :
        Prog World ε (Except DbError String)).run w =
          (.ok (runTaskQueue x.workflowRunId.text w.db), w) := by
      rw [Prog.run_attempt, run_query]
      cases runTaskQueue x.workflowRunId.text w.db <;> rfl
    rw [scanQueue, Prog.run_bind, hq, Prog.resume_ok, List.find?_cons]
    by_cases h : unwrapOr "" (runTaskQueue x.workflowRunId.text w.db) = taskQueue
    · simp [h]
    · simp [h, ih]

/-- What a poll does: nothing, or it hands out the step that is chosen. -/
inductive Polled (crates : Crates) (env : Env) (op : Op) (w : World) :
    Outcome Status Reply × World → Prop
  | idle (out : Outcome Status Reply) (hn : out.value?.bind (Reply.task crates) = none) :
      Polled crates env op w (out, w)
  | task (reply : Reply) (s : WorkflowStepRow) (hs : chosen env op w.db = some s)
      (hr : reply.task crates = some (env.uuid 0).text) :
      Polled crates env op w (.ok reply, { w with db := dispatched env s w.db })

theorem pollActivity_polled (hf : Fresh w.db env) (crates : Crates) (req : PollActivityRequest) :
    Polled crates env (.pollActivity req) w ((exec crates env (.pollActivity req)).run w) := by
  simp only [exec, pollActivity, getPendingSteps, Prog.run_bind, Prog.run_mapError, run_query]
  cases hp : pendingSteps (env.now 0) w.db with
  | error e => exact .idle _ rfl
  | ok steps =>
    simp only [Outcome.ofExcept, Outcome.mapError, Prog.resume_ok]
    cases hx : steps.find? (asksFor req) with
    | none => exact .idle _ rfl
    | some x =>
      obtain ⟨s, hs, hd⟩ := find_mapM (q := asks w.db (.pollActivity req))
        (fun r y hy => by simp [asksFor, asks, (rowToStep_decodes hy).name]) hp hx
      have hd := rowToStep_decodes hd
      simp only [Prog.run_bind, run_handOut hf (chosen_mem hs).1 hd, Prog.resume_ok]
      exact .task _ s hs rfl

theorem pollActivityTaskQueue_polled (hf : Fresh w.db env) (crates : Crates)
    (req : PollActivityTaskQueueRequest) :
    Polled crates env (.pollActivityTaskQueue req) w
      ((exec crates env (.pollActivityTaskQueue req)).run w) := by
  simp only [exec, pollActivityTaskQueue, getPendingSteps, Prog.run_bind, Prog.run_mapError,
    run_query]
  cases hp : pendingSteps (env.now 0) w.db with
  | error e => exact .idle _ rfl
  | ok steps =>
    simp only [Outcome.ofExcept, Outcome.mapError, Prog.resume_ok, Prog.run_bind, run_scanQueue]
    cases hx : steps.find? (fun x => decide (unwrapOr "" (runTaskQueue x.workflowRunId.text w.db) =
        req.taskQueue.getD "")) with
    | none => exact .idle _ rfl
    | some x =>
      obtain ⟨s, hs, hd⟩ := find_mapM (q := asks w.db (.pollActivityTaskQueue req))
        (fun r y hy => by simp [asks, (rowToStep_decodes hy).run]) hp hx
      have hd := rowToStep_decodes hd
      simp only [Prog.run_bind, run_handOut hf (chosen_mem hs).1 hd, Prog.resume_ok,
        Prog.run_attempt, run_query]
      cases runNamespace x.workflowRunId.text (dispatched env s w.db) with
      | ok q => exact .task _ s hs (by simp [Reply.task, fromUtf8Lossy_intoBytes])
      | error e => exact .task _ s hs (by simp [Reply.task, fromUtf8Lossy_intoBytes])

/-- A poll fails only where it cannot read the ready steps, and then it has done nothing. -/
theorem pollActivity_error (hf : Fresh w.db env) {req : PollActivityRequest} {status : Status}
    (h : ((pollActivity env req).run w).1 = .error status) :
    (∃ e, pendingSteps (env.now 0) w.db = .error e) ∧ (pollActivity env req).after w = w := by
  unfold Prog.after
  simp only [pollActivity, getPendingSteps, Prog.run_bind, Prog.run_mapError, run_query] at h ⊢
  cases hp : pendingSteps (env.now 0) w.db with
  | error e => exact ⟨⟨e, rfl⟩, rfl⟩
  | ok steps =>
    simp only [hp, Outcome.ofExcept, Outcome.mapError, Prog.resume_ok] at h
    cases hx : steps.find? (asksFor req) with
    | none =>
      rw [hx] at h
      cases h
    | some x =>
      obtain ⟨s, hs, hd⟩ := find_mapM (q := asks w.db (.pollActivity req))
        (fun r y hy => by simp [asksFor, asks, (rowToStep_decodes hy).name]) hp hx
      simp only [hx, Prog.run_bind, run_handOut hf (chosen_mem hs).1 (rowToStep_decodes hd),
        Prog.resume_ok] at h
      cases h

theorem pollActivityTaskQueue_error (hf : Fresh w.db env) {req : PollActivityTaskQueueRequest}
    {status : Status} (h : ((pollActivityTaskQueue crates env req).run w).1 = .error status) :
    (∃ e, pendingSteps (env.now 0) w.db = .error e) ∧
      (pollActivityTaskQueue crates env req).after w = w := by
  unfold Prog.after
  simp only [pollActivityTaskQueue, getPendingSteps, Prog.run_bind, Prog.run_mapError, run_query]
    at h ⊢
  cases hp : pendingSteps (env.now 0) w.db with
  | error e => exact ⟨⟨e, rfl⟩, rfl⟩
  | ok steps =>
    simp only [hp, Outcome.ofExcept, Outcome.mapError, Prog.resume_ok, Prog.run_bind,
      run_scanQueue] at h
    cases hx : steps.find? (fun x => decide (unwrapOr "" (runTaskQueue x.workflowRunId.text w.db) =
        req.taskQueue.getD "")) with
    | none =>
      rw [hx] at h
      cases h
    | some x =>
      obtain ⟨s, hs, hd⟩ := find_mapM (q := asks w.db (.pollActivityTaskQueue req))
        (fun r y hy => by simp [asks, (rowToStep_decodes hy).run]) hp hx
      simp only [hx, Prog.run_bind, run_handOut hf (chosen_mem hs).1 (rowToStep_decodes hd),
        Prog.resume_ok, Prog.run_attempt, run_query] at h
      cases hq : runNamespace x.workflowRunId.text (dispatched env s w.db) with
      | ok q => simp [hq, Outcome.ofExcept, Outcome.caught] at h
      | error e => simp [hq, Outcome.ofExcept, Outcome.caught] at h

end Khronos.Proofs
