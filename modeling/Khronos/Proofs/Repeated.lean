import Khronos.Proofs.Backoff
import Khronos.Proofs.Ended

namespace Khronos.Proofs
open Time Lib Db.Activities Db.Workflows Server Engine

/-- The engine takes events one after the other, each at a clock of its own. -/
def handleAll (events : List (Env × EngineEvent)) : Prog World ε Unit :=
  Prog.forEach events fun (env, event) => handle env event

/-- The run an event has the engine look at. -/
def mentioned : EngineEvent → Option String
  | .workflowCreated runId => some runId
  | .stepCompleted workflowRunId => some workflowRunId
  | _ => none

/-- Events on which the engine looks at runs, and does nothing else. -/
def looks : EngineEvent → Bool
  | .workflowCreated _ | .stepCompleted _ | .scheduleChange => true
  | .retryDue _ | .heartbeatTimeout _ => false

/-- An active run has an id. -/
def ActiveId (db : Db) (u : Uuid) : Prop :=
  ∃ q ∈ db.workflows, q.runId = u ∧ active q = true

/-- The ids whose runs the engine looks at on an event. -/
def Visits (db : Db) (u : Uuid) : EngineEvent → Prop
  | .workflowCreated runId | .stepCompleted runId => runId = u.text
  | .scheduleChange => ActiveId db u
  | .retryDue _ | .heartbeatTimeout _ => False

/-- A list of events is for a run when it mentions it, or is for all and the run is active. -/
theorem visits_iff {db : Db} {u : Uuid} {xs : List (Env × EngineEvent)} :
    (∃ x ∈ xs, Visits db u x.2) ↔ (∃ x ∈ xs, mentioned x.2 = some u.text) ∨
      (∃ x ∈ xs, x.2 = .scheduleChange) ∧ ActiveId db u := by
  have hone : ∀ event, Visits db u event ↔
      mentioned event = some u.text ∨ event = .scheduleChange ∧ ActiveId db u := by
    intro event
    cases event <;> simp [Visits, mentioned]
  simp only [hone]
  grind

theorem mem_activeRuns_iff {db : Db} {u : Uuid} : u ∈ activeRuns db ↔ ActiveId db u := by
  simp only [activeRuns, byStart, List.mem_map, List.mem_insertionSort, List.mem_filter, ActiveId]
  exact exists_congr fun q => by tauto

/-- What is left of the runs after the engine has looked at those of some ids: the rows of
these are as their steps have it, and the others are as they were. -/
structure Looking (p : Uuid → Prop) (db db' : Db) : Prop where
  steps : db'.workflowSteps = db.workflowSteps
  activities : db'.activities = db.activities
  runs : ∃ f : WorkflowRow → WorkflowRow, db'.workflows = db.workflows.map f ∧
    ∀ r, (f r).runId = r.runId ∧ (p r.runId → (f r).state = advancedState db r) ∧
      (¬ p r.runId → (f r).state = r.state)

theorem Looking.none (db : Db) : Looking (fun _ => False) db db :=
  ⟨rfl, rfl, id, by simp, by simp⟩

theorem Looking.congr (h : Looking p db db') (hq : ∀ u, p u ↔ q u) : Looking q db db' := by
  rwa [← funext (fun u => propext (hq u))]

/-- Two looks at the same runs find the same states. -/
theorem Looking.states_eq (h : Looking p db db₁) (h' : Looking p db db₂) :
    db₁.workflows.map (fun r => (r.runId, r.state)) =
      db₂.workflows.map (fun r => (r.runId, r.state)) := by
  obtain ⟨f, hf, hfr⟩ := h.runs
  obtain ⟨g, hg, hgr⟩ := h'.runs
  rw [hf, hg, List.map_map, List.map_map]
  apply List.map_congr_left
  intro r _
  obtain ⟨hfid, hfp, hfn⟩ := hfr r
  obtain ⟨hgid, hgp, hgn⟩ := hgr r
  apply Prod.ext
  · exact hfid.trans hgid.symm
  · by_cases hp : p r.runId
    · exact (hfp hp).trans (hgp hp).symm
    · exact (hfn hp).trans (hgn hp).symm

/-- A run that has not been looked at is as active as before. -/
theorem Looking.activeId (h : Looking p db db') (hu : ¬ p u) :
    ActiveId db' u ↔ ActiveId db u := by
  obtain ⟨f, hf, hfr⟩ := h.runs
  have hsame : ∀ r, r.runId = u → active (f r) = active r := by
    rintro r rfl
    rw [active, (hfr r).2.2 hu, ← active]
  unfold ActiveId
  rw [hf]
  simp only [List.mem_map, exists_exists_and_eq_and]
  apply exists_congr
  intro r
  apply and_congr_right
  intro hr
  rw [(hfr r).1]
  apply and_congr_right
  intro hru
  rw [hsame r hru]

/-- A second look at a run finds it as the first one left it. -/
theorem Looking.trans (h : Looking p db db') (h' : Looking q db' db'') :
    Looking (fun u => p u ∨ q u) db db'' := by
  obtain ⟨f, hf, hfr⟩ := h.runs
  obtain ⟨g, hg, hgr⟩ := h'.runs
  refine ⟨h'.steps.trans h.steps, h'.activities.trans h.activities, g ∘ f, ?_, fun r => ?_⟩
  · rw [hg, hf, List.map_map]
  obtain ⟨hfid, hfp, hfn⟩ := hfr r
  obtain ⟨hgid, hgq, hgn⟩ := hgr (f r)
  rw [hfid] at hgq hgn
  rw [advancedState_congr h.steps] at hgq
  have hstill : advancedState db (f r) = advancedState db r := by
    by_cases hp : p r.runId
    · exact advancedState_again db hfid (hfp hp)
    · unfold advancedState runKey
      rw [hfid, hfn hp]
  refine ⟨hgid.trans hfid, fun hpq => ?_, fun hpq => ?_⟩
  · by_cases hq : q r.runId
    · exact (hgq hq).trans hstill
    · exact (hgn hq).trans (hfp (hpq.resolve_right hq))
  · exact (hgn (fun hq => hpq (.inr hq))).trans (hfn (fun hp => hpq (.inl hp)))

theorem processed_looking (env : Env) (runId : String) (db : Db) :
    Looking (fun u => runId = u.text) db (processed env runId db) := by
  obtain ⟨f, hf, hfr⟩ := processed_runs env runId db
  refine ⟨processed_steps env runId db, processed_activities env runId db, f, hf, fun r => ?_⟩
  obtain ⟨hid, hstate⟩ := hfr r
  refine ⟨hid, fun h => ?_, fun h => ?_⟩
  · rw [hstate, if_pos (show runKey r = runId from h.symm)]
  · rw [hstate, if_neg (fun hk => h hk.symm)]

theorem swept_looking (env : Env) (db : Db) :
    Looking (ActiveId db) db (swept env db (activeRuns db).zipIdx) := by
  obtain ⟨f, hf, hfr⟩ := swept_runs env db (activeRuns db).zipIdx
  refine ⟨swept_steps env db _, swept_activities env db _, f, hf, fun r => ?_⟩
  obtain ⟨hid, hstate⟩ := hfr r
  rw [List.zipIdx_map_fst] at hstate
  refine ⟨hid, fun h => ?_, fun h => ?_⟩
  · rw [hstate, if_pos (mem_activeRuns_iff.mpr h)]
  · rw [hstate, if_neg (fun hm => h (mem_activeRuns_iff.mp hm))]

/-- One event: the engine looks at the runs it is for, and ends without an error. -/
theorem run_handle_looks {event : EngineEvent} (hl : looks event = true) (env : Env) (w : World) :
    ∃ db', (handle env event : Prog World ε Unit).run w = (.ok (), { w with db := db' }) ∧
      Looking (fun u => Visits w.db u event) w.db db' := by
  have hrun : ∀ db', (handler env event).run w = (.ok (), { w with db := db' }) →
      (handle env event : Prog World ε Unit).run w = (.ok (), { w with db := db' }) := by
    intro db' h
    unfold handle
    rw [Prog.run_bind, Prog.run_attempt, h]
    rfl
  cases event with
  | workflowCreated runId => exact ⟨_, hrun _ (run_advanceRun env runId w), processed_looking _ _ _⟩
  | stepCompleted runId => exact ⟨_, hrun _ (run_advanceRun env runId w), processed_looking _ _ _⟩
  | scheduleChange => exact ⟨_, hrun _ (run_processWorkflows env w), swept_looking env w.db⟩
  | retryDue stepId => cases hl
  | heartbeatTimeout activityId => cases hl

/-- The runs an event has the engine look at are the same after an earlier event, apart from
those of the earlier event. -/
theorem Looking.visits (h : Looking p db db') (u : Uuid) (event : EngineEvent) :
    p u ∨ Visits db' u event ↔ p u ∨ Visits db u event := by
  apply or_congr_right'
  intro hu
  cases event with
  | scheduleChange => exact h.activeId hu
  | workflowCreated runId => exact Iff.rfl
  | stepCompleted runId => exact Iff.rfl
  | retryDue stepId => exact Iff.rfl
  | heartbeatTimeout activityId => exact Iff.rfl

/-- A list of events: the engine looks at the runs that some event is for, as the database was
before the first one. -/
theorem run_handleAll {events : List (Env × EngineEvent)}
    (hl : ∀ x ∈ events, looks x.2 = true) (w : World) :
    ∃ db', (handleAll events : Prog World ε Unit).run w = (.ok (), { w with db := db' }) ∧
      Looking (fun u => ∃ x ∈ events, Visits w.db u x.2) w.db db' := by
  induction events generalizing w with
  | nil => exact ⟨w.db, rfl, (Looking.none w.db).congr (by simp)⟩
  | cons x events ih =>
    obtain ⟨db₁, hrun₁, h₁⟩ := run_handle_looks (ε := ε) (hl x (by simp)) x.1 w
    obtain ⟨db₂, hrun₂, h₂⟩ := ih (fun y hy => hl y (by simp [hy])) { w with db := db₁ }
    refine ⟨db₂, ?_, (h₁.trans h₂).congr fun u => ?_⟩
    · change (handle x.1 x.2 >>= fun _ => handleAll events).run w = _
      rw [Prog.run_bind, hrun₁, Prog.resume_ok, hrun₂]
    · have hvisits := h₁.visits u
      grind

/-- Lists of events that look at runs, in any order and with any repetitions: as long as they
mention the same runs, and both or neither have the engine go through all that are active, they
leave every run in the same state, and no step and no activity has changed. -/
theorem handleAll_alike (w : World) {xs ys : List (Env × EngineEvent)}
    (hx : ∀ x ∈ xs, looks x.2 = true) (hy : ∀ y ∈ ys, looks y.2 = true)
    (hmentioned : ∀ runId, (∃ x ∈ xs, mentioned x.2 = some runId) ↔
      ∃ y ∈ ys, mentioned y.2 = some runId)
    (hswept : (∃ x ∈ xs, x.2 = .scheduleChange) ↔ ∃ y ∈ ys, y.2 = .scheduleChange) :
    ∃ dbx dby, (handleAll xs : Prog World ε Unit).run w = (.ok (), { w with db := dbx }) ∧
      (handleAll ys : Prog World ε Unit).run w = (.ok (), { w with db := dby }) ∧
      dbx.workflows.map (fun r => (r.runId, r.state)) =
        dby.workflows.map (fun r => (r.runId, r.state)) ∧
      (dbx.workflowSteps = w.db.workflowSteps ∧ dbx.activities = w.db.activities) ∧
      dby.workflowSteps = w.db.workflowSteps ∧ dby.activities = w.db.activities := by
  obtain ⟨dbx, hrunx, hlx⟩ := run_handleAll (ε := ε) hx w
  obtain ⟨dby, hruny, hly⟩ := run_handleAll (ε := ε) hy w
  refine ⟨dbx, dby, hrunx, hruny, ?_, ⟨hlx.steps, hlx.activities⟩, hly.steps, hly.activities⟩
  have hvisits : ∀ u, (∃ x ∈ xs, Visits w.db u x.2) ↔ ∃ y ∈ ys, Visits w.db u y.2 := by
    intro u
    rw [visits_iff, visits_iff, hmentioned, hswept]
  exact hlx.states_eq (hly.congr fun u => (hvisits u).symm)

/-- A run all whose steps are completed, before the engine has looked at it. -/
def completedUnseen : World :=
  worldAfter [.startWorkflow ⟨"x", [], "", "", none, ""⟩, .pollActivity ⟨"", ["x"]⟩,
    .reportActivityResult ⟨"id-10", ""⟩]

/-- The report of its last step, and the same with repetitions and in another order. -/
def reportedOnce : List (Env × EngineEvent) :=
  [(turn 3, .stepCompleted "id-0"), (turn 4, .scheduleChange)]

def reportedAgain : List (Env × EngineEvent) :=
  [(turn 3, .scheduleChange), (turn 4, .stepCompleted "id-0"), (turn 5, .scheduleChange),
    (turn 6, .workflowCreated "id-0")]

theorem reported_again_alike :
    ∃ dbx dby, (handleAll reportedOnce : Prog World DbError Unit).run completedUnseen =
        (.ok (), { completedUnseen with db := dbx }) ∧
      (handleAll reportedAgain : Prog World DbError Unit).run completedUnseen =
        (.ok (), { completedUnseen with db := dby }) ∧
      dbx.workflows.map (fun r => (r.runId, r.state)) = [(⟨"id-0"⟩, .completed)] ∧
      dby.workflows.map (fun r => (r.runId, r.state)) = [(⟨"id-0"⟩, .completed)] := by
  have honce : ∀ x ∈ reportedOnce, looks x.2 = true := by decide
  have hagain : ∀ x ∈ reportedAgain, looks x.2 = true := by decide
  obtain ⟨dbx, dby, hx, hy, hsame, -⟩ := handleAll_alike completedUnseen honce hagain
    (by simp [reportedOnce, reportedAgain, mentioned]) (by simp [reportedOnce, reportedAgain])
  have hstates : dbx.workflows.map (fun r => (r.runId, r.state)) = [(⟨"id-0"⟩, .completed)] := by
    have hdb : ((handleAll reportedOnce : Prog World DbError Unit).after completedUnseen).db =
        dbx := by rw [Prog.after, hx]
    rw [← hdb]
    decide +kernel
  exact ⟨dbx, dby, hx, hy, hstates, hsame ▸ hstates⟩

end Khronos.Proofs
