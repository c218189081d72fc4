import Khronos.Proofs.Catalogued

namespace Khronos.Proofs
open Time Lib Db.Schedules Db.Activities Db.Workflows Server

/-- A lookup finds a schedule of this spec, policy and action. -/
def Returned (out : Outcome DbError (Option Core.Schedule)) (s : Core.Schedule) : Prop :=
  ∃ found, out = .ok (some found) ∧ found.spec = s.spec ∧ found.policy = s.policy ∧
    found.action = s.action

/-- An interval is a number of whole seconds, and a buffer has the size 1. -/
structure Storable (s : Core.Schedule) : Prop where
  interval : ∀ duration, s.spec = .interval duration → duration.subsecNanos = 0
  buffer : ∀ n, s.policy = .buffer n → n = 1

theorem keptSpec_iff {spec : Core.ScheduleSpec} :
    keptSpec spec = spec ↔ ∀ duration, spec = .interval duration → duration.subsecNanos = 0 := by
  cases spec with
  | cron exprs => simp [keptSpec]
  | interval duration =>
    obtain ⟨secs, nanos⟩ := duration
    simp only [keptSpec, Core.Duration.fromSecs, Core.Duration.asSecs,
      Core.ScheduleSpec.interval.injEq, Core.Duration.mk.injEq, true_and, forall_eq']
    exact eq_comm

theorem keptPolicy_iff {policy : Core.OverlapPolicy} :
    keptPolicy policy = policy ↔ ∀ n, policy = .buffer n → n = 1 := by
  cases policy with
  | skip => simp [keptPolicy]
  | terminateExisting => simp [keptPolicy]
  | buffer n =>
    simp only [keptPolicy, Core.OverlapPolicy.buffer.injEq, forall_eq']
    exact eq_comm

/-- The row keeps all of a schedule exactly when it is storable. -/
theorem kept_iff {s : Core.Schedule} :
    (keptSpec s.spec = s.spec ∧ keptPolicy s.policy = s.policy) ↔ Storable s := by
  rw [keptSpec_iff, keptPolicy_iff]
  exact ⟨fun h => ⟨h.1, h.2⟩, fun h => ⟨h.interval, h.buffer⟩⟩

section
variable {crates : Crates} {serde : Serde} {w : World} {s s' : Core.Schedule}

/-- The one row of an id is read back as what it keeps. -/
theorem getSchedule_returned_iff (hserde : serde.ReadsBack crates) {key : String}
    (ha : Ascending s.action.args)
    (hrow : w.db.schedules.filter (fun r => r.scheduleId = key) = [scheduleRow serde s]) :
    Returned ((getSchedule crates serde key).run w).1 s ↔ Storable s := by
  rw [getSchedule, run_query, hrow]
  simp only [rowToSchedule_kept hserde ha]
  rw [← kept_iff]
  constructor
  · rintro ⟨found, hfound, hspec, hpolicy, -⟩
    cases hfound
    exact ⟨hspec, hpolicy⟩
  · rintro ⟨hspec, hpolicy⟩
    exact ⟨kept s, rfl, hspec, hpolicy, rfl⟩

theorem insertSchedule_new (hnew : ∀ r ∈ w.db.schedules, r.scheduleId ≠ s.scheduleId) :
    (insertSchedule serde s).run w =
      (.ok (), { w with
        db := { w.db with schedules := w.db.schedules ++ [scheduleRow serde s] } }) := by
  have hn : ¬ ∃ r ∈ w.db.schedules, r.scheduleId = s.scheduleId :=
    fun ⟨r, hr, he⟩ => hnew r hr he
  rw [insertSchedule, run_execute, if_neg hn]

theorem filter_inserted (hnew : ∀ r ∈ w.db.schedules, r.scheduleId ≠ s.scheduleId) :
    (w.db.schedules ++ [scheduleRow serde s]).filter (fun r => r.scheduleId = s.scheduleId) =
      [scheduleRow serde s] := by
  have hold : w.db.schedules.filter (fun r => r.scheduleId = s.scheduleId) = [] :=
    List.filter_eq_nil_iff.mpr (fun r hr => by simpa using hnew r hr)
  rw [List.filter_append, hold, List.nil_append, List.filter_singleton]
  simp [scheduleRow]

theorem filter_updated (hnew : ∀ r ∈ w.db.schedules, r.scheduleId ≠ s.scheduleId) :
    (Table.update (named s.scheduleId s.nameSpace) (setSchedule serde s')
      (w.db.schedules ++ [scheduleRow serde s])).filter (fun r => r.scheduleId = s.scheduleId) =
      [setSchedule serde s' (scheduleRow serde s)] := by
  have hnamed : named s.scheduleId s.nameSpace (scheduleRow serde s) = true := by
    simp [named, scheduleRow]
  rw [Table.filter_update_within (f := setSchedule serde s') (fun _ => rfl), filter_inserted hnew]
  simp [Table.update, hnamed]

/-- A schedule that is inserted, and one that it is then updated to, is read back with its spec,
policy and action exactly when the columns have room for them. -/
theorem stored_returned_iff (hserde : serde.ReadsBack crates)
    (hnew : ∀ r ∈ w.db.schedules, r.scheduleId ≠ s.scheduleId)
    (ha : Ascending s.action.args) (ha' : Ascending s'.action.args) :
    (Returned ((do
      insertSchedule serde s
      getSchedule crates serde s.scheduleId).run w).1 s ↔ Storable s) ∧
    (Returned ((do
      insertSchedule serde s
      updateScheduleSpec serde s.scheduleId s.nameSpace s'
      getSchedule crates serde s.scheduleId).run w).1 s' ↔ Storable s') := by
  constructor
  · rw [Prog.run_bind, insertSchedule_new hnew]
    exact getSchedule_returned_iff hserde ha (filter_inserted hnew)
  · rw [Prog.run_bind, insertSchedule_new hnew]
    simp only [Prog.resume_ok, Prog.run_bind, updateScheduleSpec, run_execute]
    -- What the row holds under the id and the namespace of the first schedule.
    let t : Core.Schedule := { s' with scheduleId := s.scheduleId, nameSpace := s.nameSpace }
    have hstorable : Storable t ↔ Storable s' :=
      (kept_iff (s := t)).symm.trans (kept_iff (s := s'))
    rw [← hstorable]
    exact getSchedule_returned_iff (s := t) hserde ha' (filter_updated hnew)

end

/-- Every half minute, with a buffer of a size. -/
def bufferedHalfMinute (n : Nat) : Core.Schedule :=
  ⟨"s", "default", .interval (.fromSecs 30), ⟨"x", [("key", "value")], "default", "a", .default⟩,
    .buffer n⟩

/-- Another schedule, of every full hour. -/
def fullHours : Core.Schedule :=
  ⟨"t", "", .cron ["0 0 * * * *"], ⟨"y", [], "other", "", ⟨some 60, none, some 5⟩⟩,
    .terminateExisting⟩

theorem bufferedHalfMinute_ascending (n : Nat) : Ascending (bufferedHalfMinute n).action.args :=
  List.pairwise_singleton _ _

theorem empty_new (key : String) : ∀ r ∈ World.empty.db.schedules, r.scheduleId ≠ key :=
  fun _ hr => absurd hr List.not_mem_nil

theorem half_minute_returned :
    Returned ((do
      insertSchedule readingSerde (bufferedHalfMinute 1)
      getSchedule readingCrates readingSerde "s").run .empty).1 (bufferedHalfMinute 1) ∧
    Returned ((do
      insertSchedule readingSerde (bufferedHalfMinute 1)
      updateScheduleSpec readingSerde "s" "default" fullHours
      getSchedule readingCrates readingSerde "s").run .empty).1 fullHours := by
  have hone : Storable (bufferedHalfMinute 1) := by
    refine ⟨?_, ?_⟩
    · rintro duration h
      cases h
      rfl
    · rintro n h
      cases h
      rfl
  have hhours : Storable fullHours := ⟨nofun, nofun⟩
  have hargs : Ascending fullHours.action.args := .nil
  have h := stored_returned_iff (w := .empty) (s := bufferedHalfMinute 1)
    readingSerde_readsBack (empty_new "s") (bufferedHalfMinute_ascending 1) hargs
  exact ⟨h.1.mpr hone, h.2.mpr hhours⟩

/-- A buffer of five is read back as one of one. -/
theorem five_not_returned :
    ¬ ∀ (crates : Crates) (serde : Serde) (w : World) (s s' : Core.Schedule),
      serde.ReadsBack crates → (∀ r ∈ w.db.schedules, r.scheduleId ≠ s.scheduleId) →
      Ascending s.action.args → Ascending s'.action.args →
      Returned ((do
        insertSchedule serde s
        getSchedule crates serde s.scheduleId).run w).1 s ∧
      Returned ((do
        insertSchedule serde s
        updateScheduleSpec serde s.scheduleId s.nameSpace s'
        getSchedule crates serde s.scheduleId).run w).1 s' := by
  intro h
  have hnew := empty_new (bufferedHalfMinute 5).scheduleId
  have hargs := bufferedHalfMinute_ascending 5
  have hfound := (h readingCrates readingSerde .empty (bufferedHalfMinute 5) fullHours
    readingSerde_readsBack hnew hargs .nil).1
  rw [Prog.run_bind, insertSchedule_new hnew] at hfound
  have hfive := (getSchedule_returned_iff readingSerde_readsBack hargs
    (filter_inserted hnew)).mp hfound
  exact absurd (hfive.buffer 5 rfl) (by decide)

/-- No step is in the state that no statement writes. -/
def NoRetried (db : Db) : Prop := ∀ s ∈ db.workflowSteps, s.state ≠ .retried

theorem Write.noRetried (h : Write db db') (hd : NoRetried db) : NoRetried db' := by
  cases h with
  | insertStep s hid hrun hstate hpolicy hretry =>
    intro q hq
    rcases List.mem_append.mp hq with hq | hq
    · exact hd q hq
    · rw [List.mem_singleton.mp hq, hstate]
      decide
  | updateStep stepId state attempt result retryAt hstate hretry =>
    exact Table.forall_update (fun _ _ _ => hstate) hd
  | resetStep stepId => exact Table.forall_update (fun _ _ _ => by simp [Engine.resetStep]) hd
  | _ => exact hd

/-- The functions of the database crate that change runs, steps or activities. -/
inductive Changes : Prog World DbError Unit → Prop
  | insertWorkflow (wf : WorkflowInstance) : Changes (insertWorkflow wf)
  | updateWorkflowState (runId : String) (state : WorkflowState) (result : Option Json)
      (completedAt : Option DateTime) : Changes (updateWorkflowState runId state result completedAt)
  | cancelWorkflow (now : Clock) (runId : String) : Changes (cancelWorkflow now runId)
  | insertWorkflowStep (now : Clock) (step : WorkflowStepInstance) :
      Changes (insertWorkflowStep now step)
  | updateStepState (stepId : String) (state : WorkflowState) (attempt : Option UInt32)
      (result : Option Json) (retryAt : Option DateTime) :
      Changes (updateStepState stepId state attempt result retryAt)
  | insertActivityAttempt (now : Clock) (id stepId : Uuid) (attempt : UInt32) :
      Changes (insertActivityAttempt now id stepId attempt)
  | updateActivityState (now : Clock) (id : String) (state : ActivityState) (result : Option Json)
      (message : Option String) : Changes (updateActivityState now id state result message)
  | heartbeatUpdate (now : Clock) (id : String) : Changes (heartbeatUpdate now id)

/-- The states that these functions, called with any arguments, and the operations of the server
lead to, in any order. -/
inductive Built (crates : Crates) : World → Prop
  | empty : Built crates .empty
  | change {w : World} {p : Prog World DbError Unit} (h : Built crates w) (hp : Changes p) :
      Built crates (p.after w)
  | serve {w : World} (h : Built crates w) (call : Call) :
      Built crates ((server crates).step w call).2

/-- A statement that writes only the steps, and none of them with that state. -/
theorem within_noRetried {f : Db → Except DbError (Unit × Db)}
    (hf : ∀ db db', f db = .ok ((), db') → NoRetried db → NoRetried db') :
    (execute f).Within (fun w w' => NoRetried w.db → NoRetried w'.db) :=
  within_execute (R := fun db db' => NoRetried db → NoRetried db') (fun _ => id)
    (fun db _ db' h => hf db db' h)

theorem Changes.noRetried (h : Changes p) :
    p.Within (fun w w' => NoRetried w.db → NoRetried w'.db) := by
  have hamends : ∀ {q : Prog World DbError Unit}, Amends (fun _ => True) q →
      q.Within (fun w w' => NoRetried w.db → NoRetried w'.db) :=
    fun hq => hq.within.mono (fun hwrite => hwrite.write.noRetried)
  cases h with
  | insertWorkflow wf =>
    apply within_noRetried
    intro db db' he hd
    split at he
    · cases he
    · cases he
      exact hd
  | updateWorkflowState runId state result completedAt =>
    apply within_noRetried
    intro db db' he hd
    cases he
    exact hd
  | cancelWorkflow now runId => exact hamends (Amends.cancelWorkflow now runId)
  | insertWorkflowStep now step =>
    apply within_noRetried
    intro db db' he hd
    split at he
    · cases he
    · rename_i state hstate
      split_ifs at he
      cases he
      intro q hq
      rcases List.mem_append.mp hq with hq | hq
      · exact hd q hq
      · rw [List.mem_singleton.mp hq]
        exact stepState_ne_retried hstate
  | updateStepState stepId state attempt result retryAt =>
    apply within_noRetried
    intro db db' he hd
    split at he
    · rename_i state' hstate
      cases he
      exact Table.forall_update (fun _ _ _ => stepState_ne_retried hstate) hd
    · split_ifs at he
      cases he
      exact hd
  | insertActivityAttempt now id stepId attempt =>
    exact hamends (Amends.insertActivityAttempt now id stepId attempt)
  | updateActivityState now id state result message =>
    exact hamends (Amends.updateActivityState now id state result message)
  | heartbeatUpdate now id => exact hamends (Amends.heartbeatUpdate now id)

theorem Built.noRetried (h : Built crates w) : NoRetried w.db := by
  induction h with
  | empty => exact fun _ hs => absurd hs List.not_mem_nil
  | change _ hp ih => exact hp.noRetried.run (fun _ h => h) (fun hab hbc h => hbc (hab h)) _ ih
  | serve _ call ih => exact (exec_writes crates call.env call.op).after Write.noRetried ih

theorem insertWorkflowStep_ok {now : Clock} {step : WorkflowStepInstance}
    (h : (insertWorkflowStep now step).run w = (.ok (), w')) :
    ∃ state, stepState step.state = some state ∧
      w'.db.workflowSteps = w.db.workflowSteps ++ [stepRow step state now] := by
  rw [insertWorkflowStep, run_execute] at h
  split at h
  · rename_i db' he
    cases h
    split at he
    · cases he
    · rename_i state hstate
      split_ifs at he
      cases he
      exact ⟨state, hstate, rfl⟩
  · cases h

/-- A run with its times in whole seconds. -/
def inSeconds (wf : WorkflowInstance) : WorkflowInstance :=
  { wf with
    startedAt := wf.startedAt.map DateTime.trunc
    completedAt := wf.completedAt.map DateTime.trunc }

/-- A step with the time of its retry in whole seconds. -/
def stepInSeconds (step : WorkflowStepInstance) : WorkflowStepInstance :=
  { step with nextRetryAt := step.nextRetryAt.map DateTime.trunc }

theorem times_recovered {f : String → Except DbError DateTime}
    (hf : ∀ d : DateTime, d.Representable → f d.format = .ok d.trunc) {o : Option DateTime}
    (ho : ∀ d ∈ o, d.Representable) :
    (o.map DateTime.format).mapM f = .ok (o.map DateTime.trunc) := by
  cases o with
  | none => rfl
  | some d => simp [Option.mapM_some, hf d (ho d rfl)]

/-- A number of seconds comes back through its column, also one above `i64::MAX`. -/
theorem seconds_recovered (o : Option UInt64) :
    (o.map UInt64.toInt64).map Int64.toUInt64 = o := by
  cases o <;> simp

section
variable {crates : Crates} {codec : Db.Codec} {policies : List RetryPolicy}
  (hcodec : codec.ReadsBack crates policies)
include hcodec

theorem rowToWorkflow_recovered {wf : WorkflowInstance}
    (hs : ∀ d ∈ wf.startedAt, d.Representable) (hc : ∀ d ∈ wf.completedAt, d.Representable) :
    rowToWorkflow crates codec (workflowColumns crates (workflowRow wf)) = .ok (inSeconds wf) := by
  have hstarted := times_recovered (fun _ => runs_parseDatetime) hs
  have hcompleted := times_recovered (fun _ => runs_parseDatetime) hc
  unfold rowToWorkflow workflowColumns workflowRow
  simp only [hcodec.uuid, hcodec.json, Db.strToWorkflowState_toStr, hcodec.optional, hstarted,
    hcompleted, Db.parsed_some, seconds_recovered]
  rfl

theorem columnsToStep_recovered {step : WorkflowStepInstance} (hstate : step.state = .pending)
    (hp : step.retryPolicy ∈ policies) (hr : ∀ d ∈ step.nextRetryAt, d.Representable)
    (now : Clock) :
    columnsToStep crates codec (stepColumns crates codec (stepRow step .pending now)) =
      .ok (stepInSeconds step) := by
  have hretry := times_recovered (fun _ => steps_parseDatetime) hr
  have hcolumns := columnsToStep_stepColumns hcodec (r := stepRow step .pending now) hp
  rw [hcolumns]
  unfold rowToStep stepRow
  simp only [hretry, seconds_recovered, UInt64.toUInt64_toInt64]
  unfold stepInSeconds
  rw [hstate]
  rfl

/-- A new run is read back. -/
theorem getWorkflow_recovered {w : World} {wf : WorkflowInstance}
    (hnew : ∀ r ∈ w.db.workflows, r.runId ≠ wf.runId)
    (hs : ∀ d ∈ wf.startedAt, d.Representable) (hc : ∀ d ∈ wf.completedAt, d.Representable) :
    ((do
      insertWorkflow wf
      Db.Workflows.getWorkflow crates codec wf.runId.text).run w).1 = .ok (some (inSeconds wf)) := by
  have hn : ¬ ∃ r ∈ w.db.workflows, r.runId = wf.runId := fun ⟨r, hr, he⟩ => hnew r hr he
  have hold : w.db.workflows.filter (fun r => runKey r = wf.runId.text) = [] := by
    refine List.filter_eq_nil_iff.mpr (fun r hr => ?_)
    simpa [runKey, key_iff] using hnew r hr
  have hrow : (w.db.workflows ++ [workflowRow wf]).filter (fun r => runKey r = wf.runId.text) =
      [workflowRow wf] := by
    rw [List.filter_append, hold]
    simp [runKey, workflowRow]
  rw [Prog.run_bind, insertWorkflow, run_execute, if_neg hn]
  simp only [Prog.resume_ok, Db.Workflows.getWorkflow, run_query, hrow,
    rowToWorkflow_recovered hcodec hs hc]
  rfl

/-- A new step is the next one of a run that has no other pending step. -/
theorem getNextStep_recovered {w w' : World} {now : Clock} {step : WorkflowStepInstance}
    (hw : NoRetried w.db) (hstate : step.state = .pending)
    (halone : ∀ r ∈ w.db.workflowSteps, r.workflowRunId = step.workflowRunId → r.state ≠ .pending)
    (hp : step.retryPolicy ∈ policies) (hr : ∀ d ∈ step.nextRetryAt, d.Representable)
    (hrun : (insertWorkflowStep now step).run w = (.ok (), w')) :
    ((getNextStepForWorkflow crates codec step.workflowRunId.text).run w').1 =
      .ok (some (stepInSeconds step)) := by
  obtain ⟨state, hcolumn, hrows⟩ := insertWorkflowStep_ok hrun
  obtain rfl : state = .pending := by
    rw [hstate] at hcolumn
    exact (Option.some.inj hcolumn).symm
  have hold : w.db.workflowSteps.filter (nextFor step.workflowRunId.text) = [] := by
    refine List.filter_eq_nil_iff.mpr (fun r hr => ?_)
    simp only [nextFor, Bool.and_eq_true, decide_eq_true_eq, Bool.or_eq_true, key_iff]
    rintro ⟨hrun, hwaits⟩
    exact hwaits.elim (halone r hr hrun) (hw r hr)
  have hrow : (w.db.workflowSteps ++ [stepRow step .pending now]).filter
      (nextFor step.workflowRunId.text) = [stepRow step .pending now] := by
    rw [List.filter_append, hold]
    simp [nextFor, stepRow]
  have hone : byIndex [stepRow step .pending now] = [stepRow step .pending now] := rfl
  rw [getNextStepForWorkflow, run_query, hrows, hrow, hone]
  simp only [columnsToStep_recovered hcodec hstate hp hr]
  rfl

/-- A run with a new id, and a step of a run without another pending step, are read back as they
were inserted, with their times in whole seconds. -/
theorem records_recovered :
    (∀ (w : World) (wf : WorkflowInstance), (∀ r ∈ w.db.workflows, r.runId ≠ wf.runId) →
      (∀ d ∈ wf.startedAt, d.Representable) → (∀ d ∈ wf.completedAt, d.Representable) →
      ((do
        insertWorkflow wf
        Db.Workflows.getWorkflow crates codec wf.runId.text).run w).1 =
          .ok (some (inSeconds wf))) ∧
    ∀ (w w' : World) (now : Clock) (step : WorkflowStepInstance), Built crates w →
      step.state = .pending →
      (∀ r ∈ w.db.workflowSteps, r.workflowRunId = step.workflowRunId → r.state ≠ .pending) →
      step.retryPolicy ∈ policies → (∀ d ∈ step.nextRetryAt, d.Representable) →
      (insertWorkflowStep now step).run w = (.ok (), w') →
      ((getNextStepForWorkflow crates codec step.workflowRunId.text).run w').1 =
        .ok (some (stepInSeconds step)) :=
  ⟨fun _ _ hnew hs hc => getWorkflow_recovered hcodec hnew hs hc,
    fun _ _ _ _ hw hstate halone hp hr hrun =>
      getNextStep_recovered hcodec hw.noRetried hstate halone hp hr hrun⟩

end

/-- Half a second past noon. -/
def pastNoon : DateTime := ⟨43200500000000⟩

/-- A run with the largest timeout, that has started. -/
def longRun : WorkflowInstance where
  runId := ⟨"r"⟩
  workflowId := "w"
  name := "x"
  taskQueue := "default"
  state := .running
  argsJson := .empty
  resultJson := some .null
  timeouts := ⟨some 18446744073709551615, none, some 0⟩
  startedAt := some pastNoon
  completedAt := none
  nameSpace := "default"

/-- A step of it with the largest numbers, that waits for a retry. -/
def lastStep : WorkflowStepInstance where
  id := ⟨"s"⟩
  workflowRunId := ⟨"r"⟩
  stepIndex := 9223372036854775807
  activityName := "x"
  argsJson := .empty
  retryPolicy := ⟨3, 2⟩
  timeoutSecs := 18446744073709551615
  heartbeatTimeoutSecs := some 9223372036854775808
  state := .pending
  attempt := 4294967295
  resultJson := none
  nextRetryAt := some pastNoon

theorem extremes_recovered :
    ((do
      insertWorkflow longRun
      Db.Workflows.getWorkflow readingCrates readingCodec "r").run .empty).1 =
        .ok (some (inSeconds longRun)) ∧
    ((getNextStepForWorkflow readingCrates readingCodec "r").run
      ((insertWorkflowStep ((turn 0).now 0) lastStep).after
        ((insertWorkflow longRun).after .empty))).1 = .ok (some (stepInSeconds lastStep)) := by
  have hnoon : ∀ d ∈ some pastNoon, d.Representable := by
    rintro d hd
    cases hd
    exact ⟨by decide, by decide⟩
  have hbuilt : Built readingCrates ((insertWorkflow longRun).after .empty) :=
    .change .empty (.insertWorkflow longRun)
  have hnone : ((insertWorkflow longRun).after World.empty).db.workflowSteps = [] := rfl
  have halone : ∀ r ∈ ((insertWorkflow longRun).after World.empty).db.workflowSteps,
      r.workflowRunId = lastStep.workflowRunId → r.state ≠ .pending := by
    rw [hnone]
    exact fun _ hr => absurd hr List.not_mem_nil
  have h := records_recovered reading
  exact ⟨h.1 .empty longRun (fun _ hr => absurd hr List.not_mem_nil) hnoon nofun,
    h.2 _ _ ((turn 0).now 0) lastStep hbuilt rfl halone (by decide) hnoon rfl⟩

end Khronos.Proofs
