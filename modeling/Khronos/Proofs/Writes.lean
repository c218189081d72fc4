import Khronos.Core.Stamps
import Khronos.Server.Operations

namespace Khronos.Proofs
open Time Lib Db.Activities Db.Workflows Server

/-- A text that was written of an instant chrono can represent. -/
def Stamp (t : String) : Prop := ∃ d : DateTime, d.Representable ∧ t = d.format

theorem clock_stamp (c : Clock) : Stamp c.datetime := ⟨c.time, c.representable, rfl⟩

/-- What one statement of the server can do to the tables. -/
inductive Write (db : Db) : Db → Prop
  | still : Write db db
  | insertRun (r : WorkflowRow) (hid : ¬ ∃ q ∈ db.workflows, q.runId = r.runId)
      (hstate : r.state = .pending) (hstarted : ∀ t ∈ r.startedAt, Stamp t)
      (hcompleted : r.completedAt = none) :
      Write db { db with workflows := db.workflows ++ [r] }
  | updateRun (runId : String) (state : WorkflowState) (done : Clock) :
      Write db { db with
        workflows := Table.update (fun r => runKey r = runId)
          (setRun state none (some done.datetime)) db.workflows }
  | cancelRun (runId : String) (now : Clock) :
      Write db { db with
        workflows := Table.update (cancellable runId) (cancelRun now) db.workflows }
  | startRun (runId : String) (now : Clock) :
      Write db { db with
        workflows := Table.update (Engine.startable runId) (Engine.startRun now) db.workflows }
  | insertStep (s : WorkflowStepRow) (hid : ¬ ∃ q ∈ db.workflowSteps, q.id = s.id)
      (hrun : ∃ r ∈ db.workflows, r.runId = s.workflowRunId) (hstate : s.state = .pending)
      (hpolicy : s.retryPolicyJson ∈ builtInPolicies) (hretry : s.nextRetryAt = none) :
      Write db { db with workflowSteps := db.workflowSteps ++ [s] }
  | updateStep (stepId : String) (state : StepState) (attempt : Option UInt32)
      (result : Option Json) (retryAt : Option String) (hstate : state ≠ .retried)
      (hretry : ∀ t ∈ retryAt, Stamp t) :
      Write db { db with
        workflowSteps := Table.update (fun r => stepKey r = stepId)
          (setStep state attempt result retryAt) db.workflowSteps }
  | resetStep (stepId : String) :
      Write db { db with
        workflowSteps := Table.update (fun r => stepKey r = stepId) Engine.resetStep
          db.workflowSteps }
  | insertActivity (a : ActivityRow) (hid : ¬ ∃ q ∈ db.activities, q.id = a.id)
      (hstep : ∃ s ∈ db.workflowSteps, s.id = a.stepId) :
      Write db { db with activities := db.activities ++ [a] }
  | updateActivity (id : String) (state : AttemptState) (now : Clock) (result : Option Json)
      (message : Option String) :
      Write db { db with
        activities := Table.update (fun r => activityKey r = id)
          (setActivity state now result message) db.activities }
  | heartbeat (id : String) (now : Clock) :
      Write db { db with activities := Table.update (beats id) (beat now) db.activities }
  | writeSchedules (rows : List ScheduleRow) : Write db { db with schedules := rows }

/-- The writes that add no run, no step and no schedule, and set runs only to states of `P`. -/
inductive Amend (P : WorkflowState → Prop) (db : Db) : Db → Prop
  | still : Amend P db db
  | updateRun (runId : String) (state : WorkflowState) (hstate : P state) (done : Clock) :
      Amend P db { db with
        workflows := Table.update (fun r => runKey r = runId)
          (setRun state none (some done.datetime)) db.workflows }
  | cancelRun (runId : String) (now : Clock) :
      Amend P db { db with
        workflows := Table.update (cancellable runId) (cancelRun now) db.workflows }
  | startRun (runId : String) (now : Clock) :
      Amend P db { db with
        workflows := Table.update (Engine.startable runId) (Engine.startRun now) db.workflows }
  | updateStep (stepId : String) (state : StepState) (attempt : Option UInt32)
      (result : Option Json) (retryAt : Option String) (hstate : state ≠ .retried)
      (hretry : ∀ t ∈ retryAt, Stamp t) :
      Amend P db { db with
        workflowSteps := Table.update (fun r => stepKey r = stepId)
          (setStep state attempt result retryAt) db.workflowSteps }
  | resetStep (stepId : String) :
      Amend P db { db with
        workflowSteps := Table.update (fun r => stepKey r = stepId) Engine.resetStep
          db.workflowSteps }
  | insertActivity (a : ActivityRow) (hid : ¬ ∃ q ∈ db.activities, q.id = a.id)
      (hstep : ∃ s ∈ db.workflowSteps, s.id = a.stepId) :
      Amend P db { db with activities := db.activities ++ [a] }
  | updateActivity (id : String) (state : AttemptState) (now : Clock) (result : Option Json)
      (message : Option String) :
      Amend P db { db with
        activities := Table.update (fun r => activityKey r = id)
          (setActivity state now result message) db.activities }
  | heartbeat (id : String) (now : Clock) :
      Amend P db { db with activities := Table.update (beats id) (beat now) db.activities }

theorem Amend.write {P : WorkflowState → Prop} (h : Amend P db db') : Write db db' := by
  cases h with
  | still => exact .still
  | updateRun runId state hstate done => exact .updateRun runId state done
  | cancelRun runId now => exact .cancelRun runId now
  | startRun runId now => exact .startRun runId now
  | updateStep stepId state attempt result retryAt hstate hretry =>
    exact .updateStep stepId state attempt result retryAt hstate hretry
  | resetStep stepId => exact .resetStep stepId
  | insertActivity a hid hstep => exact .insertActivity a hid hstep
  | updateActivity id state now result message => exact .updateActivity id state now result message
  | heartbeat id now => exact .heartbeat id now

theorem executed {f : Db → Except DbError (α × Db)} {w w' : World} {a : α}
    (h : (f w.db).map (fun r => (r.1, { w with db := r.2 })) = .ok (a, w')) :
    ∃ db', f w.db = .ok (a, db') ∧ w' = { w with db := db' } := by
  cases hf : f w.db with
  | error e =>
    rw [hf] at h
    cases h
  | ok r =>
    rw [hf] at h
    cases h
    exact ⟨r.2, rfl, rfl⟩

theorem within_execute {R : Db → Db → Prop} (refl : ∀ db, R db db)
    {f : Db → Except DbError (α × Db)} (hf : ∀ db a db', f db = .ok (a, db') → R db db') :
    (execute f).Within (fun w w' => R w.db w'.db) := by
  refine Prog.Within.execute (R := fun w w' : World => R w.db w'.db) (fun _ => refl _) _ ?_
  intro w a w' he
  obtain ⟨db', hdb, rfl⟩ := executed he
  exact hf w.db a db' hdb

/-- A program each of whose statements, whole or cut short, is one of these writes. -/
def Writes (p : Prog World ε α) : Prop := p.Within (fun w w' => Write w.db w'.db)

theorem Writes.query (f : Db → Except DbError α) : Writes (query f) :=
  Prog.Within.query (fun _ => .still) _ _

theorem Writes.execute {f : Db → Except DbError (α × Db)}
    (hf : ∀ db a db', f db = .ok (a, db') → Write db db') : Writes (execute f) :=
  within_execute (fun _ => .still) hf

theorem Writes.bind {p : Prog World ε α} {f : α → Prog World ε β} (hp : Writes p)
    (hf : ∀ a, Writes (f a)) : Writes (p >>= f) := Prog.Within.bind hp hf

theorem Writes.mapError {p : Prog World ε α} (hp : Writes p) (f : ε → ε') :
    Writes (p.mapError f) := Prog.Within.mapError hp f

theorem Writes.attempt {p : Prog World ε α} (hp : Writes p) :
    Writes (p.attempt : Prog World ε' (Except ε α)) := Prog.Within.attempt hp

theorem Writes.forEach {xs : List α} {body : α → Prog World ε Unit}
    (h : ∀ x ∈ xs, Writes (body x)) : Writes (Prog.forEach xs body) := Prog.Within.forEach h

/-- A program that makes no statement at all, whether it returns, raises or panics. -/
theorem Writes.done (r : Outcome ε α) : Writes (.done r : Prog World ε α) := trivial

theorem Writes.pure (a : α) : Writes (pure a : Prog World ε α) := trivial

theorem Writes.send (e : EngineEvent) : Writes (send e : Prog World ε Unit) :=
  fun _ => ⟨.still, trivial⟩

theorem Writes.modify {f : World → World} (h : ∀ w, Write w.db (f w).db) :
    Writes (Prog.modify f : Prog World ε Unit) := fun w => ⟨h w, trivial⟩

/-- What every write keeps, a whole run keeps. -/
theorem Writes.after {p : Prog World ε α} (h : Writes p) {P : Db → Prop}
    (hP : ∀ {db db'}, Write db db' → P db → P db') (hw : P w.db) : P (p.after w).db := by
  have hall : p.Within (fun w w' => P w.db → P w'.db) := h.mono (fun hwrite => hP hwrite)
  exact hall.run (fun _ h => h) (fun hab hbc h => hbc (hab h)) w hw

/-- A program each of whose statements amends the tables. -/
def Amends (P : WorkflowState → Prop) (p : Prog World ε α) : Prop :=
  p.Within (fun w w' => Amend P w.db w'.db)

section
variable {P : WorkflowState → Prop}

theorem Amends.writes {p : Prog World ε α} (h : Amends P p) : Writes p :=
  Prog.Within.mono Amend.write h

theorem Amends.within {p : Prog World ε α} (h : Amends P p) :
    p.Within (fun w w' => Amend P w.db w'.db) := h

theorem Amends.query (f : Db → Except DbError α) : Amends P (query f) :=
  Prog.Within.query (fun _ => .still) _ _

theorem Amends.execute {f : Db → Except DbError (α × Db)}
    (hf : ∀ db a db', f db = .ok (a, db') → Amend P db db') : Amends P (execute f) :=
  within_execute (fun _ => .still) hf

theorem Amends.bind {p : Prog World ε α} {f : α → Prog World ε β} (hp : Amends P p)
    (hf : ∀ a, Amends P (f a)) : Amends P (p >>= f) := Prog.Within.bind hp hf

theorem Amends.mapError {p : Prog World ε α} (hp : Amends P p) (f : ε → ε') :
    Amends P (p.mapError f) := Prog.Within.mapError hp f

theorem Amends.attempt {p : Prog World ε α} (hp : Amends P p) :
    Amends P (p.attempt : Prog World ε' (Except ε α)) := Prog.Within.attempt hp

theorem Amends.forEach {xs : List α} {body : α → Prog World ε Unit}
    (h : ∀ x ∈ xs, Amends P (body x)) : Amends P (Prog.forEach xs body) := Prog.Within.forEach h

theorem Amends.done (r : Outcome ε α) : Amends P (.done r : Prog World ε α) := trivial

theorem Amends.pure (a : α) : Amends P (pure a : Prog World ε α) := trivial

theorem Amends.send (e : EngineEvent) : Amends P (send e : Prog World ε Unit) :=
  fun _ => ⟨.still, trivial⟩

theorem Amends.arm (now : Clock) (due : DateTime) (e : EngineEvent) :
    Amends P (Engine.arm now due e : Prog World ε Unit) :=
  fun _ => ⟨.still, trivial⟩

end

-- What follows combines the lemmas above; a program is never unfolded to be checked.
attribute [irreducible] Writes Amends

section
variable {P : WorkflowState → Prop}

theorem Amends.updateWorkflowState (runId : String) {state : WorkflowState} (hstate : P state)
    (done : Clock) : Amends P (updateWorkflowState runId state none (some done.time)) := by
  apply Amends.execute
  intro db a db' he
  cases he
  exact .updateRun runId state hstate done

theorem Amends.cancelWorkflow (now : Clock) (runId : String) :
    Amends P (Db.Workflows.cancelWorkflow now runId) := by
  refine Amends.bind (Amends.execute ?_) (fun n => ?_)
  · intro db a db' he
    cases he
    exact .cancelRun runId now
  · split <;> exact Amends.done _

theorem stepState_ne_retried (h : stepState state = some s) : s ≠ .retried := by
  cases state <;> cases h <;> decide

theorem Amends.updateStepState (stepId : String) (state : WorkflowState)
    (attempt : Option UInt32) (result : Option Json) {retryAt : Option DateTime}
    (hretry : ∀ d ∈ retryAt, d.Representable) :
    Amends P (updateStepState stepId state attempt result retryAt) := by
  apply Amends.execute
  intro db a db' he
  split at he
  · rename_i state' hstate
    cases he
    refine .updateStep stepId state' attempt result _ (stepState_ne_retried hstate) ?_
    intro t ht
    obtain ⟨d, hd, rfl⟩ := Option.map_eq_some_iff.mp ht
    exact ⟨d, hretry d hd, rfl⟩
  · split at he
    · cases he
    · cases he
      exact .still

theorem Amends.insertActivityAttempt (now : Clock) (id stepId : Uuid) (attempt : UInt32) :
    Amends P (insertActivityAttempt now id stepId attempt) := by
  apply Amends.execute
  intro db a db' he
  split at he
  · cases he
  · rename_i hn
    split at he
    · rename_i hs
      cases he
      exact .insertActivity (attemptRow id stepId attempt now) hn hs
    · cases he

theorem Amends.updateActivityState (now : Clock) (id : String) (state : ActivityState)
    (result : Option Json) (message : Option String) :
    Amends P (updateActivityState now id state result message) := by
  apply Amends.execute
  intro db a db' he
  split at he
  · cases he
    exact .updateActivity _ _ _ _ _
  · split at he
    · cases he
    · cases he
      exact .still

theorem Amends.heartbeatUpdate (now : Clock) (id : String) : Amends P (heartbeatUpdate now id) := by
  refine Amends.bind (Amends.execute ?_) (fun n => ?_)
  · intro db a db' he
    cases he
    exact .heartbeat id now
  · split <;> exact Amends.done _

theorem Amends.handOut (hP : P .running) (env : Env) (step : WorkflowStepInstance) :
    Amends P (handOut env step) :=
  ((Amends.updateStepState _ _ _ _ (by simp)).mapError _).bind fun _ =>
    ((Amends.insertActivityAttempt _ _ _ _).mapError _).bind fun _ =>
      (Amends.updateWorkflowState _ hP _).attempt.bind fun _ => Amends.pure _

theorem Amends.scanQueue (taskQueue : String) (steps : List WorkflowStepInstance) :
    Amends P (scanQueue taskQueue steps : Prog World ε _) := by
  induction steps with
  | nil => exact Amends.pure _
  | cons step steps ih =>
    refine (Amends.query _).attempt.bind fun q => ?_
    split
    · exact Amends.pure _
    · exact ih

theorem Amends.pollActivity (hP : P .running) (env : Env) (req : PollActivityRequest) :
    Amends P (Server.pollActivity env req) := by
  refine ((Amends.query _).mapError _).bind fun steps => ?_
  split
  · exact (Amends.handOut hP _ _).bind fun _ => Amends.pure _
  · exact Amends.pure _

theorem Amends.pollActivityTaskQueue (hP : P .running) (crates : Crates) (env : Env)
    (req : PollActivityTaskQueueRequest) :
    Amends P (Server.pollActivityTaskQueue crates env req) := by
  refine ((Amends.query _).mapError _).bind fun steps => (Amends.scanQueue _ _).bind fun found => ?_
  split
  · exact (Amends.handOut hP _ _).bind fun _ => (Amends.query _).attempt.bind fun _ => Amends.pure _
  · exact Amends.pure _

theorem Amends.reportResult (env : Env) (id : String) (result : Json) (text : String) :
    Amends P (reportResult env id result text) :=
  ((Amends.updateActivityState _ _ _ _ _).mapError _).bind fun _ =>
    ((Amends.query _).mapError _).bind fun _ =>
      ((Amends.updateStepState _ _ _ _ (by simp)).mapError _).bind fun _ =>
        ((Amends.query _).mapError _).bind fun _ => Amends.send _

theorem Amends.notifyRun (stepId : Uuid) : Amends P (notifyRun stepId) :=
  ((Amends.query _).mapError _).bind fun _ => Amends.send _

theorem retryTime_representable {now : DateTime} (h : retryTime now policy n = some d) :
    d.Representable := by
  obtain ⟨t, _, ht⟩ := Option.bind_eq_some_iff.mp h
  exact DateTime.add_representable ht

theorem Amends.reportFailure (env : Env) (id message : String)
    {exhausted : Uuid → Prog World Status Unit} (he : ∀ u, Amends P (exhausted u)) :
    Amends P (reportFailure env id message exhausted) := by
  refine ((Amends.query _).mapError _).bind fun a => ((Amends.query _).mapError _).bind fun policy =>
    ((Amends.updateActivityState _ _ _ _ _).mapError _).bind fun _ => ?_
  dsimp only
  split
  · split
    · exact Amends.done _
    · rename_i hretry
      apply (Amends.updateStepState _ _ _ _ _).mapError _
      intro d hd
      cases hd
      exact retryTime_representable hretry
  · exact ((Amends.updateStepState _ _ _ _ (by simp)).mapError _).bind fun _ => he _

/-- A verdict completes or fails its run. -/
theorem verdict_states {totals : Engine.StepTotals} (h : Engine.verdict totals = some state) :
    state = .completed ∨ state = .failed := by
  unfold Engine.verdict at h
  split at h
  · split at h
    · cases h
      exact .inr rfl
    · split at h
      · cases h
        exact .inl rfl
      · cases h
  · cases h

section
variable (hP : P .completed ∧ P .failed)
include hP

theorem Amends.processSingleWorkflow (env : Env) (runId : String) :
    Amends P (Engine.processSingleWorkflow env runId) := by
  refine (Amends.execute ?_).bind fun _ => (Amends.query _).bind fun next => ?_
  · intro db a db' he
    cases he
    exact .startRun runId (env.now 0)
  · split
    · exact (Amends.query _).bind fun _ => (Amends.query _).bind fun _ => Amends.pure _
    · refine (Amends.query _).bind fun totals => ?_
      split
      · rename_i state hstate
        apply Amends.updateWorkflowState
        rcases verdict_states hstate with rfl | rfl
        · exact hP.1
        · exact hP.2
      · exact Amends.pure _

omit hP in
theorem Amends.scheduleTimers (env : Env) (runId : String) :
    Amends P (Engine.scheduleTimersForWorkflow env runId) := by
  refine Amends.bind ((Amends.query _).bind fun steps => Amends.forEach ?_) fun _ =>
    (Amends.query _).bind fun activities => Amends.forEach ?_
  · rintro ⟨⟨stepId, nextRetryAt⟩, i⟩ _
    dsimp only
    split
    · exact Amends.arm _ _ _
    · exact Amends.done _
  · rintro ⟨⟨a, timeoutSecs⟩, i⟩ _
    dsimp only
    split
    · split
      · exact Amends.arm _ _ _
      · exact Amends.done _
    · exact Amends.done _

theorem Amends.advanceRun (env : Env) (runId : String) : Amends P (Engine.advanceRun env runId) :=
  (Amends.processSingleWorkflow hP _ _).bind fun _ => Amends.scheduleTimers _ _

theorem Amends.handleRetryDue (env : Env) (stepId : String) :
    Amends P (Engine.handleRetryDue env stepId) := by
  refine (Amends.query _).bind fun (state, runId) => ?_
  dsimp only
  split
  · refine (Amends.execute ?_).bind fun _ => Amends.advanceRun hP _ _
    intro db a db' he
    cases he
    exact .resetStep stepId
  · exact Amends.done _

theorem Amends.handleHeartbeatTimeout (env : Env) (id : String) :
    Amends P (Engine.handleHeartbeatTimeout env id) := by
  refine (Amends.query _).bind fun (state, stepId) => ?_
  dsimp only
  split
  · refine (Amends.query _).attempt.bind fun policy => (Amends.query _).attempt.bind fun attempt =>
      (Amends.updateActivityState _ _ _ _ _).bind fun _ => ?_
    split
    · split
      · exact Amends.done _
      · rename_i hretry
        refine (Amends.updateStepState _ _ _ _ ?_).bind fun _ => Amends.arm _ _ _
        intro d hd
        cases hd
        exact retryTime_representable hretry
    · exact (Amends.updateStepState _ _ _ _ (by simp)).bind fun _ =>
        (Amends.query _).bind fun _ => Amends.processSingleWorkflow hP _ _
  · exact Amends.done _

theorem Amends.handle (env : Env) (event : EngineEvent) :
    Amends P (Engine.handle env event : Prog World ε Unit) := by
  refine Amends.bind (Amends.attempt ?_) fun _ => Amends.pure _
  cases event with
  | workflowCreated runId => exact Amends.advanceRun hP _ _
  | stepCompleted runId => exact Amends.advanceRun hP _ _
  | scheduleChange =>
    exact (Amends.query _).bind fun _ => Amends.forEach (fun _ _ => Amends.advanceRun hP _ _)
  | retryDue stepId => exact Amends.handleRetryDue hP _ _
  | heartbeatTimeout id => exact Amends.handleHeartbeatTimeout hP _ _

end

/-- The operations that only amend the tables; a poll sets a run to running. -/
def Op.amending (P : WorkflowState → Prop) : Op → Prop
  | .pollActivity _ => P .running
  | .pollActivityTaskQueue _ => P .running
  | .reportActivityResult _ => True
  | .reportActivityFailure _ => True
  | .respondActivityTaskCompleted _ => True
  | .respondActivityTaskFailed _ => True
  | .heartbeat _ => True
  | .cancelWorkflow _ => True
  | .handle _ => P .completed ∧ P .failed
  | _ => False

theorem exec_amends (crates : Crates) (env : Env) {op : Op} (h : Op.amending P op) :
    Amends P (exec crates env op) := by
  cases op with
  | pollActivity req => exact (Amends.pollActivity h _ _).bind fun _ => Amends.pure _
  | pollActivityTaskQueue req =>
    exact (Amends.pollActivityTaskQueue h _ _ _).bind fun _ => Amends.pure _
  | reportActivityResult req =>
    refine Amends.bind ?_ fun _ => Amends.pure _
    unfold reportActivityResult
    split
    · exact Amends.done _
    · exact (Amends.reportResult _ _ _ _).bind fun _ => Amends.pure _
  | reportActivityFailure req =>
    exact Amends.bind ((Amends.reportFailure _ _ _ fun _ => Amends.pure _).bind fun _ =>
      Amends.pure _) fun _ => Amends.pure _
  | respondActivityTaskCompleted req =>
    exact (Amends.reportResult _ _ _ _).bind fun _ => Amends.pure _
  | respondActivityTaskFailed req =>
    exact (Amends.reportFailure _ _ _ Amends.notifyRun).bind fun _ => Amends.pure _
  | heartbeat req =>
    exact Amends.bind (((Amends.heartbeatUpdate _ _).mapError _).bind fun _ => Amends.pure _)
      fun _ => Amends.pure _
  | cancelWorkflow req =>
    exact Amends.bind (((Amends.cancelWorkflow _ _).mapError _).bind fun _ => Amends.pure _)
      fun _ => Amends.pure _
  | handle event => exact (Amends.handle h _ _).bind fun _ => Amends.pure _
  | startWorkflow req => exact h.elim
  | startWorkflowExecution req => exact h.elim
  | scheduleFire scheduleId => exact h.elim
  | writeSchedules rows notify => exact h.elim

end

/-- A run as every start inserts it. -/
structure Startable (wf : WorkflowInstance) : Prop where
  state : wf.state = .pending
  started : ∀ d ∈ wf.startedAt, d.Representable
  completed : wf.completedAt = none

theorem Writes.insertWorkflow {wf : WorkflowInstance} (h : Startable wf) :
    Writes (insertWorkflow wf) := by
  apply Writes.execute
  intro db a db' he
  split at he
  · cases he
  · rename_i hn
    cases he
    refine .insertRun (workflowRow wf) hn h.state ?_ (by simp [workflowRow, h.completed])
    intro t ht
    obtain ⟨d, hd, rfl⟩ := Option.map_eq_some_iff.mp ht
    exact ⟨d, h.started d hd, rfl⟩

theorem Writes.insertWorkflowStep (now : Clock) (id runId : Uuid) (index : Nat) (args : Json)
    {d : ActivityStep} (hd : d.retryPolicy ∈ builtInPolicies) :
    Writes (insertWorkflowStep now (freshStep id runId index args d)) := by
  apply Writes.execute
  intro db a db' he
  split at he
  · cases he
  · rename_i state hstate
    cases hstate
    split at he
    · cases he
    · rename_i hn
      split at he
      · rename_i hr
        cases he
        exact .insertStep _ hn hr rfl hd rfl
      · cases he

theorem Writes.insertSteps (env : Env) (runId : Uuid) (args : ActivityStep → Json)
    (failed : Nat → DbError → ε) {defs : List ActivityStep}
    (hd : ∀ d ∈ defs, d.retryPolicy ∈ builtInPolicies) :
    Writes (insertSteps env runId args failed defs) := by
  apply Writes.forEach
  intro d hmem
  exact (Writes.insertWorkflowStep _ _ _ _ _ (hd _ (List.fst_mem_of_mem_zipIdx hmem))).mapError _

theorem Writes.startWorkflow (env : Env) (req : StartWorkflowRequest) :
    Writes (Server.startWorkflow env req) :=
  ((Writes.insertWorkflow ⟨rfl, by simp [startedInstance], rfl⟩).mapError _).bind fun _ =>
    (Writes.insertSteps _ _ _ _ (definition_policies _)).bind fun _ =>
      (Writes.send _).bind fun _ => Writes.pure _

theorem Writes.startWorkflowExecution (crates : Crates) (env : Env)
    (req : StartWorkflowExecutionRequest) : Writes (Server.startWorkflowExecution crates env req) :=
  ((Writes.insertWorkflow ⟨rfl, by simp [executionInstance], rfl⟩).mapError _).bind fun _ =>
    (Writes.insertSteps _ _ _ _ (definition_policies _)).bind fun _ => Writes.pure _

theorem Writes.startScheduleWorkflow (crates : Crates) (env : Env) (info : ScheduleRow) :
    Writes (Scheduler.startScheduleWorkflow crates env info) :=
  (Writes.insertWorkflow ⟨rfl, by simp [Scheduler.scheduledInstance, (env.now 0).representable],
      rfl⟩).bind fun _ =>
    (Writes.insertSteps _ _ _ _ (schedule_definition_policies _)).bind fun _ => Writes.send _

theorem Writes.shouldFire (crates : Crates) (env : Env) (info : ScheduleRow) :
    Writes (Scheduler.shouldFire crates env info) := by
  unfold Scheduler.shouldFire
  split
  · split <;> exact Writes.done _
  · split
    · refine (Writes.query _).attempt.bind fun last => ?_
      split
      · split <;> exact Writes.done _
      · exact Writes.done _
    · exact Writes.done _

theorem Writes.processSchedule (crates : Crates) (env : Env) (scheduleId : String) :
    Writes (Scheduler.processSchedule crates env scheduleId) := by
  refine (Writes.query _).attempt.bind fun info => ?_
  split
  · exact Writes.done _
  · refine (Writes.shouldFire _ _ _).bind fun fire => ?_
    split
    · refine (Writes.query _).bind fun running => ?_
      split
      · split
        · exact Writes.done _
        · exact Writes.startScheduleWorkflow _ _ _
      · split
        · exact Writes.bind ((Writes.query _).attempt.bind fun _ =>
            Writes.forEach (fun _ _ =>
              (Amends.cancelWorkflow (P := fun _ => True) _ _).writes)) fun _ =>
              Writes.startScheduleWorkflow _ _ _
        · exact Writes.startScheduleWorkflow _ _ _
      · exact Writes.startScheduleWorkflow _ _ _
    · exact Writes.done _

theorem Writes.writeSchedules (rows : List ScheduleRow) (notify : Bool) :
    Writes (Server.writeSchedules rows notify) := by
  refine Writes.bind (Writes.modify fun _ => .writeSchedules rows) fun _ => ?_
  split
  · exact Writes.send _
  · exact Writes.done _

/-- Every statement of an operation is a write, also after one that failed. -/
theorem exec_writes (crates : Crates) (env : Env) (op : Op) : Writes (exec crates env op) := by
  have hamends : ∀ op, Op.amending (fun _ => True) op → Writes (exec crates env op) :=
    fun op h => (exec_amends crates env h).writes
  cases op with
  | startWorkflow req => exact (Writes.startWorkflow _ _).bind fun _ => Writes.pure _
  | startWorkflowExecution req =>
    exact (Writes.startWorkflowExecution _ _ _).bind fun _ => Writes.pure _
  | scheduleFire scheduleId =>
    exact (Writes.processSchedule _ _ _).attempt.bind fun _ => Writes.pure _
  | writeSchedules rows notify =>
    exact (Writes.writeSchedules _ _).bind fun _ => Writes.pure _
  | pollActivity req => exact hamends _ trivial
  | pollActivityTaskQueue req => exact hamends _ trivial
  | reportActivityResult req => exact hamends _ trivial
  | reportActivityFailure req => exact hamends _ trivial
  | respondActivityTaskCompleted req => exact hamends _ trivial
  | respondActivityTaskFailed req => exact hamends _ trivial
  | heartbeat req => exact hamends _ trivial
  | cancelWorkflow req => exact hamends _ trivial
  | handle event => exact hamends _ ⟨trivial, trivial⟩

end Khronos.Proofs
