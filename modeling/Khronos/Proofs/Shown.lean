import Khronos.Lib.Locality
import Khronos.Proofs.Backed
import Khronos.Proofs.Decoding
import Khronos.Server.Addressed

namespace Khronos.Proofs
open Time Lib Db.Activities Db.Workflows Server

/-- What the rows of a run show to one who does not read the clock times in them. -/
def shows (u : String) (db : Db) : Db := (rowsOf u db).timeless

/-- Which rows there are, and which belong to which. -/
structure Outline where
  schedules : List ScheduleRow
  runs : List Uuid
  steps : List (Uuid × Uuid)
  activities : List (Uuid × Uuid)

def outline (db : Db) : Outline where
  schedules := db.schedules
  runs := db.workflows.map (·.runId)
  steps := db.workflowSteps.map (fun s => (s.id, s.workflowRunId))
  activities := db.activities.map (fun a => (a.id, a.stepId))

/-- An update keeps what says of a step to which run it belongs. -/
abbrev StepKept (f : WorkflowStepRow → WorkflowStepRow) : Prop :=
  ∀ s, (f s).id = s.id ∧ (f s).workflowRunId = s.workflowRunId

abbrev ActivityKept (f : ActivityRow → ActivityRow) : Prop :=
  ∀ a, (f a).id = a.id ∧ (f a).stepId = a.stepId

theorem ofRun_kept {f : WorkflowStepRow → WorkflowStepRow} (hf : StepKept f) (u : String)
    (s : WorkflowStepRow) : Engine.ofRun u (f s) = Engine.ofRun u s := by
  unfold Engine.ofRun
  rw [(hf s).2]

theorem attempted_updateSteps {p : WorkflowStepRow → Bool} {f : WorkflowStepRow → WorkflowStepRow}
    (hf : StepKept f) (u : String) (db : Db) :
    attempted u { db with workflowSteps := Table.update p f db.workflowSteps } =
      attempted u db := by
  funext a
  apply Table.any_update
  intro s
  rw [ofRun_kept hf, (hf s).1]

section Leaves
variable {v : String} {db : Db}

theorem rowsOf_updateRuns {p : WorkflowRow → Bool} {f : WorkflowRow → WorkflowRow}
    (hp : ∀ r, p r = true → runKey r ≠ v) (hf : ∀ r, (f r).runId = r.runId) :
    rowsOf v { db with workflows := Table.update p f db.workflows } = rowsOf v db := by
  have hrows : (Table.update p f db.workflows).filter (fun r => runKey r = v) =
      db.workflows.filter (fun r => runKey r = v) := by
    apply Table.filter_update
    intro r _ hr
    have hn := hp r hr
    unfold runKey at hn ⊢
    rw [hf]
    exact ⟨decide_eq_false hn, decide_eq_false hn⟩
  unfold rowsOf
  rw [hrows]
  rfl

theorem outline_updateRuns {f : WorkflowRow → WorkflowRow} (p : WorkflowRow → Bool)
    (hf : ∀ r, (f r).runId = r.runId) :
    outline { db with workflows := Table.update p f db.workflows } = outline db := by
  unfold outline
  rw [Table.update_column _ _ (fun r _ _ => hf r)]

theorem outline_updateSteps {f : WorkflowStepRow → WorkflowStepRow} (p : WorkflowStepRow → Bool)
    (hf : StepKept f) :
    outline { db with workflowSteps := Table.update p f db.workflowSteps } = outline db := by
  unfold outline
  rw [Table.update_column _ _ (fun s _ _ => Prod.ext (hf s).1 (hf s).2)]

theorem outline_updateActivities {f : ActivityRow → ActivityRow} (p : ActivityRow → Bool)
    (hf : ActivityKept f) :
    outline { db with activities := Table.update p f db.activities } = outline db := by
  unfold outline
  rw [Table.update_column _ _ (fun a _ _ => Prod.ext (hf a).1 (hf a).2)]

theorem rowsOf_updateSteps {p : WorkflowStepRow → Bool} {f : WorkflowStepRow → WorkflowStepRow}
    (hp : ∀ s ∈ db.workflowSteps, p s = true → Engine.ofRun v s = false) (hf : StepKept f) :
    rowsOf v { db with workflowSteps := Table.update p f db.workflowSteps } = rowsOf v db := by
  have hrows : (Table.update p f db.workflowSteps).filter (Engine.ofRun v) =
      db.workflowSteps.filter (Engine.ofRun v) := by
    apply Table.filter_update
    intro s hs hps
    rw [ofRun_kept hf]
    exact ⟨hp s hs hps, hp s hs hps⟩
  unfold rowsOf
  rw [attempted_updateSteps hf, hrows]

theorem attempted_congr {a a' : ActivityRow} (h : a'.stepId = a.stepId) :
    attempted v db a' = attempted v db a := by
  unfold attempted
  rw [h]

theorem rowsOf_updateActivities {p : ActivityRow → Bool} {f : ActivityRow → ActivityRow}
    (hp : ∀ a ∈ db.activities, p a = true → attempted v db a = false) (hf : ActivityKept f) :
    rowsOf v { db with activities := Table.update p f db.activities } = rowsOf v db := by
  have hrows : (Table.update p f db.activities).filter (attempted v db) =
      db.activities.filter (attempted v db) := by
    apply Table.filter_update
    intro a ha hpa
    rw [attempted_congr (hf a).2]
    exact ⟨hp a ha hpa, hp a ha hpa⟩
  unfold rowsOf
  exact congrArg _ hrows

end Leaves

section Shows
variable {u : String} {db db' : Db}

theorem shows_eq_iff : shows u db = shows u db' ↔
    (db.workflows.filter (fun r => runKey r = u)).map WorkflowRow.timeless =
      (db'.workflows.filter (fun r => runKey r = u)).map WorkflowRow.timeless ∧
    (db.workflowSteps.filter (Engine.ofRun u)).map WorkflowStepRow.timeless =
      (db'.workflowSteps.filter (Engine.ofRun u)).map WorkflowStepRow.timeless ∧
    (db.activities.filter (attempted u db)).map ActivityRow.timeless =
      (db'.activities.filter (attempted u db')).map ActivityRow.timeless := by
  simp [shows, rowsOf, Db.timeless]

theorem shows_updateRuns (h : shows u db = shows u db') {p p' : WorkflowRow → Bool}
    {f f' : WorkflowRow → WorkflowRow} (hf : ∀ r, (f r).runId = r.runId)
    (hf' : ∀ r, (f' r).runId = r.runId)
    (hp : ∀ r r', r.timeless = r'.timeless → p r = p' r')
    (hs : ∀ r r', r.timeless = r'.timeless → (f r).timeless = (f' r').timeless) :
    shows u { db with workflows := Table.update p f db.workflows } =
      shows u { db' with workflows := Table.update p' f' db'.workflows } := by
  obtain ⟨hruns, hsteps, hactivities⟩ := shows_eq_iff.mp h
  refine shows_eq_iff.mpr ⟨?_, hsteps, hactivities⟩
  have hkey : ∀ {f : WorkflowRow → WorkflowRow}, (∀ r, (f r).runId = r.runId) →
      ∀ r, decide (runKey (f r) = u) = decide (runKey r = u) := by
    intro f hf r
    unfold runKey
    rw [hf]
  rw [Table.filter_update_within (hkey hf), Table.filter_update_within (hkey hf')]
  exact Table.update_alike hp hs hruns

theorem shows_updateSteps (h : shows u db = shows u db') {p p' : WorkflowStepRow → Bool}
    {f f' : WorkflowStepRow → WorkflowStepRow} (hf : StepKept f) (hf' : StepKept f')
    (hp : ∀ s s', s.timeless = s'.timeless → p s = p' s')
    (hs : ∀ s s', s.timeless = s'.timeless → (f s).timeless = (f' s').timeless) :
    shows u { db with workflowSteps := Table.update p f db.workflowSteps } =
      shows u { db' with workflowSteps := Table.update p' f' db'.workflowSteps } := by
  obtain ⟨hruns, hsteps, hactivities⟩ := shows_eq_iff.mp h
  refine shows_eq_iff.mpr ⟨hruns, ?_, ?_⟩
  · rw [Table.filter_update_within (ofRun_kept hf u), Table.filter_update_within (ofRun_kept hf' u)]
    exact Table.update_alike hp hs hsteps
  · rw [attempted_updateSteps hf, attempted_updateSteps hf']
    exact hactivities

theorem shows_updateActivities (h : shows u db = shows u db') {p p' : ActivityRow → Bool}
    {f f' : ActivityRow → ActivityRow} (hf : ActivityKept f) (hf' : ActivityKept f')
    (hp : ∀ a a', a.timeless = a'.timeless → p a = p' a')
    (hs : ∀ a a', a.timeless = a'.timeless → (f a).timeless = (f' a').timeless) :
    shows u { db with activities := Table.update p f db.activities } =
      shows u { db' with activities := Table.update p' f' db'.activities } := by
  obtain ⟨hruns, hsteps, hactivities⟩ := shows_eq_iff.mp h
  refine shows_eq_iff.mpr ⟨hruns, hsteps, ?_⟩
  change ((Table.update p f db.activities).filter (attempted u db)).map _ =
    ((Table.update p' f' db'.activities).filter (attempted u db')).map _
  rw [Table.filter_update_within (fun a => attempted_congr (hf a).2),
    Table.filter_update_within (fun a => attempted_congr (hf' a).2)]
  exact Table.update_alike hp hs hactivities

end Shows

/-- Rows that look alike have the same columns but for the times. -/
theorem step_alike {s s' : WorkflowStepRow} (h : s.timeless = s'.timeless) :
    s.id = s'.id ∧ s.workflowRunId = s'.workflowRunId ∧ s.state = s'.state ∧
      s.retryPolicyJson = s'.retryPolicyJson := by
  have hid := congrArg WorkflowStepRow.id h
  have hrun := congrArg WorkflowStepRow.workflowRunId h
  have hstate := congrArg WorkflowStepRow.state h
  have hpolicy := congrArg WorkflowStepRow.retryPolicyJson h
  exact ⟨hid, hrun, hstate, hpolicy⟩

theorem activity_alike {a a' : ActivityRow} (h : a.timeless = a'.timeless) :
    a.id = a'.id ∧ a.stepId = a'.stepId ∧ a.state = a'.state ∧ a.attempt = a'.attempt := by
  have hid := congrArg ActivityRow.id h
  have hstep := congrArg ActivityRow.stepId h
  have hstate := congrArg ActivityRow.state h
  have hattempt := congrArg ActivityRow.attempt h
  exact ⟨hid, hstep, hstate, hattempt⟩

theorem run_alike {r r' : WorkflowRow} (h : r.timeless = r'.timeless) :
    r.runId = r'.runId ∧ r.state = r'.state ∧ r.startedAt.isSome = r'.startedAt.isSome := by
  have hid := congrArg WorkflowRow.runId h
  have hstate := congrArg WorkflowRow.state h
  have hstarted := congrArg (fun r => r.startedAt.isSome) h
  simp only [WorkflowRow.timeless, Option.isSome_map] at hstarted
  exact ⟨hid, hstate, hstarted⟩

/-- An activity with its step, as an operation finds them. -/
structure Found (activityId u : String) (db : Db) (a : ActivityRow) (s : WorkflowStepRow) :
    Prop where
  activity : activityOf db activityId = some a
  step : stepOf db a.stepId = some s
  run : s.workflowRunId.text = u

theorem runOfActivity_iff : runOfActivity activityId db = some u ↔
    ∃ a s, Found activityId u db a s := by
  unfold runOfActivity
  constructor
  · intro h
    obtain ⟨a, ha, hs⟩ := Option.bind_eq_some_iff.mp h
    obtain ⟨s, hs, hrun⟩ := Option.map_eq_some_iff.mp hs
    exact ⟨a, s, ha, hs, hrun⟩
  · rintro ⟨a, s, ha, hs, hrun⟩
    rw [ha, Option.bind_some, hs, Option.map_some, hrun]

/-- The activity is one of the run. -/
theorem Found.own (h : Found activityId u db a s) (hw : WellFormed db) :
    ∀ b ∈ db.activities, activityKey b = activityId → attempted u db b = true := by
  obtain ⟨hamem, hkey⟩ := activityOf_mem h.activity
  obtain ⟨hsmem, hsid⟩ := stepOf_mem h.step
  have hrun : Engine.ofRun u s = true := decide_eq_true h.run
  intro b hb hid
  rw [hw.activities.unique hb hamem (hid.trans hkey.symm)]
  exact List.any_eq_true.mpr ⟨s, hsmem, by simp [hrun, hsid]⟩

/-- What is found in one state is found in any other that shows the same of the run. -/
theorem Found.elsewhere (h : Found activityId u db a s) (hw : WellFormed db')
    (hv : shows u db = shows u db') : ∃ a' s', Found activityId u db' a' s' ∧
      a.timeless = a'.timeless ∧ s.timeless = s'.timeless := by
  obtain ⟨-, hsteps, hactivities⟩ := shows_eq_iff.mp hv
  obtain ⟨hamem, hkey⟩ := activityOf_mem h.activity
  obtain ⟨hsmem, hsid⟩ := stepOf_mem h.step
  have hrun : Engine.ofRun u s = true := decide_eq_true h.run
  have hown : attempted u db a = true :=
    List.any_eq_true.mpr ⟨s, hsmem, by simp [hrun, hsid]⟩
  have ha : a.timeless ∈ (db'.activities.filter (attempted u db')).map ActivityRow.timeless :=
    hactivities ▸ List.mem_map.mpr ⟨a, List.mem_filter.mpr ⟨hamem, hown⟩, rfl⟩
  have hs : s.timeless ∈ (db'.workflowSteps.filter (Engine.ofRun u)).map WorkflowStepRow.timeless :=
    hsteps ▸ List.mem_map.mpr ⟨s, List.mem_filter.mpr ⟨hsmem, hrun⟩, rfl⟩
  obtain ⟨a', ha', hsame⟩ := List.mem_map.mp ha
  obtain ⟨s', hs', hsame'⟩ := List.mem_map.mp hs
  obtain ⟨hid, hstep, -, -⟩ := activity_alike hsame
  obtain ⟨hid', hrun', -, -⟩ := step_alike hsame'
  have hfa := hw.activityOf_self (List.mem_filter.mp ha').1
  have hfs := hw.stepOf_self (List.mem_filter.mp hs').1
  rw [activityKey, hid, hkey] at hfa
  rw [hid', hsid, ← hstep] at hfs
  exact ⟨a', s', ⟨hfa, hfs, hrun' ▸ h.run⟩, hsame.symm, hsame'.symm⟩

/-- The rows of another run are not those of a run's activity and step. -/
theorem Found.apart (h : Found activityId u db a s) (hw : WellFormed db) (hv : v ≠ u) :
    (∀ q ∈ db.workflowSteps, stepKey q = s.id.text → Engine.ofRun v q = false) ∧
      ∀ b ∈ db.activities, activityKey b = activityId → attempted v db b = false := by
  obtain ⟨hamem, hkey⟩ := activityOf_mem h.activity
  obtain ⟨hsmem, hsid⟩ := stepOf_mem h.step
  have hother : Engine.ofRun v s = false := decide_eq_false (fun he => hv (he.symm.trans h.run))
  constructor
  · intro q hq hid
    rw [hw.steps.unique hq hsmem hid]
    exact hother
  · intro b hb hid
    rw [hw.activities.unique hb hamem (hid.trans hkey.symm)]
    apply Bool.eq_false_iff.mpr
    intro hown
    obtain ⟨q, hq, hqs⟩ := List.any_eq_true.mp hown
    obtain ⟨hrun, hid⟩ := Bool.and_eq_true_iff.mp hqs
    have he : q.id = s.id := (of_decide_eq_true hid).trans hsid.symm
    rw [hw.steps.unique hq hsmem (congrArg Uuid.text he), hother] at hrun
    cases hrun

theorem mark_kept (env : Env) (rep : Report) : ActivityKept (rep.mark env) :=
  fun a => ⟨mark_id env rep a, mark_stepId env rep a⟩

theorem write_kept (env : Env) (n : UInt32) (policy : RetryPolicy) (rep : Report) :
    StepKept (rep.write env n policy) := by
  intro s
  have h := write_fixed env n policy rep s
  exact ⟨h.id, h.run⟩

theorem mark_alike (env env' : Env) (rep : Report) {a a' : ActivityRow}
    (h : a.timeless = a'.timeless) :
    (rep.mark env a).timeless = (rep.mark env' a').timeless := by
  have hbeat := congrArg ActivityRow.lastHeartbeatAt h
  have hstarted := congrArg ActivityRow.startedAt h
  obtain ⟨hid, hstep, -, hattempt⟩ := activity_alike h
  simp only [ActivityRow.timeless] at hbeat hstarted
  cases rep <;>
    simp [Report.mark, setActivity, ActivityRow.timeless, hid, hstep, hattempt, hbeat, hstarted]

theorem setStep_alike (state : StepState) (n : Option UInt32) (result : Option Json)
    {next next' : Option String} (hn : next.isSome = next'.isSome) {s s' : WorkflowStepRow}
    (h : s.timeless = s'.timeless) :
    (setStep state n result next s).timeless = (setStep state n result next' s').timeless := by
  have hnext : next.map (fun _ => "") = next'.map (fun _ => "") := by
    cases next <;> cases next' <;> simp_all
  have hset : ∀ s : WorkflowStepRow, (setStep state n result next s).timeless =
      setStep state n result (next.map (fun _ => "")) s.timeless := fun _ => rfl
  rw [hset, h, hnext]
  rfl

/-- Whatever the clocks: a retry is timed wherever the policy is a built-in one. -/
theorem write_alike (hp : policy ∈ builtInPolicies) (env env' : Env) (n : UInt32) (rep : Report)
    {s s' : WorkflowStepRow} (h : s.timeless = s'.timeless) :
    (rep.write env n policy s).timeless = (rep.write env' n policy s').timeless := by
  have hfailed : (failedStep (rep.counted n) policy (rep.due env n policy) s).timeless =
      (failedStep (rep.counted n) policy (rep.due env' n policy) s').timeless := by
    unfold failedStep
    split
    · rename_i hlt
      obtain ⟨d, hd⟩ := Option.isSome_iff_exists.mp (builtIn_due hp hlt env)
      obtain ⟨d', hd'⟩ := Option.isSome_iff_exists.mp (builtIn_due hp hlt env')
      rw [hd, hd']
      exact setStep_alike _ _ _ rfl h
    · exact setStep_alike _ _ _ rfl h
  cases rep with
  | result json => exact setStep_alike _ _ _ rfl h
  | failure message => exact hfailed
  | timeout => exact hfailed

theorem reported_leaves (h : Found activityId u db a s) (hw : WellFormed db) (hv : v ≠ u)
    (env : Env) (rep : Report) : rowsOf v (reported env rep a s db) = rowsOf v db := by
  obtain ⟨hsteps, hactivities⟩ := h.apart hw hv
  obtain ⟨-, hkey⟩ := activityOf_mem h.activity
  unfold reported onStep
  rw [rowsOf_updateSteps _ (write_kept _ _ _ _)]
  · unfold onActivity
    apply rowsOf_updateActivities _ (mark_kept env rep)
    intro b hb hid
    exact hactivities b hb ((of_decide_eq_true hid).trans hkey)
  · intro q hq hid
    exact hsteps q hq (of_decide_eq_true hid)

theorem outline_reported (env : Env) (rep : Report) (a : ActivityRow) (s : WorkflowStepRow)
    (db : Db) : outline (reported env rep a s db) = outline db := by
  unfold reported onStep
  rw [outline_updateSteps _ (write_kept _ _ _ _)]
  exact outline_updateActivities _ (mark_kept env rep)

theorem reported_alike (ha : a.timeless = a'.timeless) (hs : s.timeless = s'.timeless)
    (hp : s.retryPolicyJson ∈ builtInPolicies) (hv : shows u db = shows u db') (env env' : Env)
    (rep : Report) : shows u (reported env rep a s db) = shows u (reported env' rep a' s' db') := by
  obtain ⟨hid, -, -, hattempt⟩ := activity_alike ha
  obtain ⟨hsid, -, -, hpolicy⟩ := step_alike hs
  unfold reported onStep
  apply shows_updateSteps _ (write_kept _ _ _ _) (write_kept _ _ _ _)
  · intro q q' hq
    unfold stepKey
    rw [(step_alike hq).1, hsid]
  · intro q q' hq
    rw [← hattempt, ← hpolicy]
    exact write_alike hp env env' a.attempt rep hq
  · unfold onActivity
    apply shows_updateActivities hv (mark_kept _ _) (mark_kept _ _)
    · intro b b' hb
      unfold activityKey
      rw [(activity_alike hb).1, hid]
    · exact fun b b' hb => mark_alike env env' rep hb

theorem startable_run {r : WorkflowRow} (h : Engine.startable u r = true) : runKey r = u :=
  of_decide_eq_true (Bool.and_eq_true_iff.mp h).1

theorem setRun_kept (state : WorkflowState) (result : Option Json) (done : Option String)
    (r : WorkflowRow) : (setRun state result done r).runId = r.runId := rfl

theorem startRun_kept (now : Clock) (r : WorkflowRow) :
    (Engine.startRun now r).runId = r.runId := rfl

theorem setRun_alike (state : WorkflowState) (now now' : String) {r r' : WorkflowRow}
    (h : r.timeless = r'.timeless) :
    (setRun state none (some now) r).timeless = (setRun state none (some now') r').timeless := by
  have hset : ∀ (now : String) (r : WorkflowRow), (setRun state none (some now) r).timeless =
      setRun state none (some "") r.timeless := fun _ _ => rfl
  rw [hset, hset, h]

theorem startRun_alike (now now' : Clock) {r r' : WorkflowRow} (h : r.timeless = r'.timeless) :
    (Engine.startRun now r).timeless = (Engine.startRun now' r').timeless := by
  have hset : ∀ (now : Clock) (r : WorkflowRow), (Engine.startRun now r).timeless =
      { r.timeless with state := .running, startedAt := some "" } := by
    intro now r
    unfold Engine.startRun WorkflowRow.timeless
    cases r.startedAt <;> rfl
  rw [hset, hset, h]

theorem processed_leaves (hv : v ≠ u) (env : Env) (db : Db) :
    rowsOf v (processed env u db) = rowsOf v db := by
  have hbegun : rowsOf v (begun env u db) = rowsOf v db := by
    unfold begun
    apply rowsOf_updateRuns _ (startRun_kept _)
    intro r hr he
    exact hv (he.symm.trans (startable_run hr))
  unfold processed
  split
  · have hset : ∀ r, decide (runKey r = u) = true → runKey r ≠ v :=
      fun r hr he => hv (he.symm.trans (of_decide_eq_true hr))
    exact (rowsOf_updateRuns hset (setRun_kept _ _ _)).trans hbegun
  · exact hbegun

theorem outline_processed (env : Env) (runId : String) (db : Db) :
    outline (processed env runId db) = outline db := by
  have hbegun : outline (begun env runId db) = outline db :=
    outline_updateRuns _ (startRun_kept _)
  unfold processed
  split
  · exact (outline_updateRuns _ (setRun_kept _ _ _)).trans hbegun
  · exact hbegun

/-- The engine decides on a run by what its steps show. -/
theorem decided_shows (u : String) (db : Db) : decided u (shows u db) = decided u db := by
  have hrun : ∀ s : WorkflowStepRow, Engine.ofRun u s.timeless = Engine.ofRun u s := fun _ => rfl
  have hnext : Engine.nextStep u (shows u db) = Engine.nextStep u db := by
    have hwaits : ∀ s : WorkflowStepRow,
        (Engine.ofRun u s && Engine.waiting s.timeless && Engine.ofRun u s) =
          (Engine.ofRun u s && Engine.waiting s) := by
      intro s
      rw [Bool.and_right_comm, Bool.and_self]
      rfl
    simp only [Engine.nextStep, shows, rowsOf, Db.timeless, List.filter_map, List.filter_filter,
      List.map_map, Function.comp_def, hrun, hwaits]
    rfl
  have htotals : Engine.stepTotals u (shows u db) = Engine.stepTotals u db := by
    simp only [Engine.stepTotals, shows, rowsOf, Db.timeless, List.filter_map, List.filter_filter,
      List.length_map, Function.comp_def, hrun, Bool.and_self]
    rfl
  unfold decided
  rw [hnext, htotals]

theorem processed_alike (hv : shows u db = shows u db') (env env' : Env) :
    shows u (processed env u db) = shows u (processed env' u db') := by
  have hbegun : shows u (begun env u db) = shows u (begun env' u db') := by
    unfold begun
    apply shows_updateRuns hv (startRun_kept _) (startRun_kept _)
    · intro r r' hr
      unfold Engine.startable runKey
      rw [(run_alike hr).1, (run_alike hr).2.1]
    · exact fun r r' hr => startRun_alike _ _ hr
  unfold processed
  rw [← decided_shows u db, hv, decided_shows]
  split
  · apply shows_updateRuns hbegun (setRun_kept _ _ _) (setRun_kept _ _ _)
    · intro r r' hr
      unfold runKey
      rw [(run_alike hr).1]
    · exact fun r r' hr => setRun_alike _ _ _ hr
  · exact hbegun

/-- To which run an activity belongs is seen in the outline. -/
theorem attempted_outline (h : outline db = outline db') (u : String) :
    attempted u db = attempted u db' := by
  have hany : ∀ (db : Db) (a : ActivityRow), attempted u db a =
      (outline db).steps.any fun s => decide (s.2.text = u) && decide (s.1 = a.stepId) := by
    intro db a
    unfold outline
    rw [List.any_map]
    rfl
  funext a
  rw [hany, hany, h]

/-- Tables with the same outline that show the same of every run are the same but for the times:
each row belongs to a run. -/
theorem timeless_ext (ho : outline db = outline db') (hw : WellFormed db)
    (h : ∀ u, shows u db = shows u db') : db.timeless = db'.timeless := by
  have hruns : db.workflows.map WorkflowRow.timeless = db'.workflows.map WorkflowRow.timeless := by
    apply Table.ext_of_classes (c := runKey)
    · have hcolumn := congrArg (fun o => o.runs.map Uuid.text) ho
      simp only [outline, List.map_map] at hcolumn
      rw [List.map_map, List.map_map]
      exact hcolumn
    · intro k _
      rw [List.filter_map, List.filter_map]
      exact (shows_eq_iff.mp (h k)).1
  have hsteps : db.workflowSteps.map WorkflowStepRow.timeless =
      db'.workflowSteps.map WorkflowStepRow.timeless := by
    apply Table.ext_of_classes (c := fun s => s.workflowRunId.text)
    · have hcolumn := congrArg (fun o => o.steps.map (fun s => s.2.text)) ho
      simp only [outline, List.map_map] at hcolumn
      rw [List.map_map, List.map_map]
      exact hcolumn
    · intro k _
      rw [List.filter_map, List.filter_map]
      exact (shows_eq_iff.mp (h k)).2.1
  have hactivities : db.activities.map ActivityRow.timeless =
      db'.activities.map ActivityRow.timeless := by
    apply Table.ext_of_classes (c := fun a => a.stepId)
    · have hcolumn := congrArg (fun o => o.activities.map Prod.snd) ho
      simp only [outline, List.map_map] at hcolumn
      rw [List.map_map, List.map_map]
      exact hcolumn
    · -- The attempts of one step are all of the run the step is of.
      intro k hk
      rw [List.map_map] at hk
      obtain ⟨a, ha, rfl⟩ := List.mem_map.mp hk
      obtain ⟨s, hs, hid⟩ := hw.ofStep a ha
      have hown : attempted s.workflowRunId.text db a.timeless = true :=
        List.any_eq_true.mpr ⟨s, hs, by simp [Engine.ofRun, hid, ActivityRow.timeless]⟩
      have hall : ∀ b : ActivityRow, decide (b.stepId = a.timeless.stepId) = true →
          attempted s.workflowRunId.text db b = true :=
        fun b hb => (attempted_congr (of_decide_eq_true hb)).trans hown
      apply Table.filter_agree _ (fun b _ => hall b) (fun b _ => hall b)
      have hshown := (shows_eq_iff.mp (h s.workflowRunId.text)).2.2
      rw [← attempted_outline ho] at hshown
      rw [List.filter_map, List.filter_map]
      exact hshown
  unfold Db.timeless
  have hschedules : db.schedules = db'.schedules := congrArg Outline.schedules ho
  rw [hruns, hsteps, hactivities, hschedules]

end Khronos.Proofs
