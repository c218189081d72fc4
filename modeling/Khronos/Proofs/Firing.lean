import Khronos.Lib.Rely
import Khronos.Proofs.Inserting
import Khronos.Proofs.Starts

namespace Khronos.Proofs
open Time Lib Db.Activities Db.Workflows Server

/-- The ids of the runs there are. -/
def runNames (w : World) : List (Uuid × String) :=
  w.db.workflows.map (fun r => (r.runId, r.workflowId))

/-- The steps there are: their ids, their runs and their activities. -/
def stepLines (w : World) : List (Uuid × Uuid × String) :=
  w.db.workflowSteps.map (fun s => (s.id, s.workflowRunId, s.activityName))

/-- The active runs of a schedule. -/
def activeIds (scheduleId : String) (w : World) : List Uuid :=
  (Scheduler.activeOf scheduleId w.db).map (·.runId)

/-- What is done to the tables while runs come to their end: none is added, and none becomes
active. -/
structure Settles (w w' : World) : Prop where
  runs : runNames w' = runNames w
  steps : stepLines w' = stepLines w
  schedules : w'.db.schedules = w.db.schedules
  still : ∀ scheduleId, ∀ u ∈ activeIds scheduleId w', u ∈ activeIds scheduleId w

theorem Settles.refl (w : World) : Settles w w := ⟨rfl, rfl, rfl, fun _ _ hu => hu⟩

theorem Settles.trans (h : Settles w w') (h' : Settles w' w'') : Settles w w'' :=
  ⟨h'.runs.trans h.runs, h'.steps.trans h.steps, h'.schedules.trans h.schedules,
    fun scheduleId u hu => h.still scheduleId u (h'.still scheduleId u hu)⟩

theorem mem_activeIds {scheduleId : String} {w : World} {u : Uuid} :
    u ∈ activeIds scheduleId w ↔
      ∃ r ∈ w.db.workflows, Scheduler.ofSchedule scheduleId r = true ∧ active r = true ∧
        r.runId = u := by
  simp [activeIds, Scheduler.activeOf, and_assoc]

section
variable {w w' : World}

theorem Settles.updateRuns {p : WorkflowRow → Bool} {f : WorkflowRow → WorkflowRow}
    (hw : w'.db = { w.db with workflows := Table.update p f w.db.workflows })
    (hf : ∀ r, (f r).runId = r.runId ∧ (f r).workflowId = r.workflowId)
    (ha : ∀ r, p r = true → active (f r) = true → active r = true) : Settles w w' where
  runs := by
    unfold runNames
    rw [hw]
    exact Table.update_column _ _ (fun r _ _ => by rw [(hf r).1, (hf r).2])
  steps := by
    unfold stepLines
    rw [hw]
  schedules := by rw [hw]
  still := by
    intro scheduleId u hu
    obtain ⟨q, hq, hof, hactive, rfl⟩ := mem_activeIds.mp hu
    rw [hw] at hq
    obtain ⟨r, hr, rfl⟩ := Table.mem_update.mp hq
    cases hp : p r with
    | true =>
      simp only [hp, if_true, Scheduler.ofSchedule, hf] at hof hactive ⊢
      exact mem_activeIds.mpr ⟨r, hr, hof, ha r hp hactive, rfl⟩
    | false =>
      simp only [hp, Bool.false_eq_true, if_false] at hof hactive ⊢
      exact mem_activeIds.mpr ⟨r, hr, hof, hactive, rfl⟩

theorem Settles.of_same (hw : w'.db.workflows = w.db.workflows)
    (hs : stepLines w' = stepLines w) (hd : w'.db.schedules = w.db.schedules) : Settles w w' where
  runs := by
    unfold runNames
    rw [hw]
  steps := hs
  schedules := hd
  still := by
    intro scheduleId u hu
    unfold activeIds Scheduler.activeOf at hu
    rw [hw] at hu
    exact hu

/-- What completes, fails or cancels runs settles them. -/
theorem Amend.settles (h : Amend (fun state => state = .completed ∨ state = .failed) w.db w'.db) :
    Settles w w' := by
  generalize hdb : w'.db = db' at h
  cases h with
  | updateRun runId state hstate done =>
    refine .updateRuns hdb (fun _ => ⟨rfl, rfl⟩) (fun r _ ha => ?_)
    rcases hstate with rfl | rfl <;> cases ha
  | cancelRun runId now => exact .updateRuns hdb (fun _ => ⟨rfl, rfl⟩) (fun _ _ ha => by cases ha)
  | startRun runId now =>
    refine .updateRuns hdb (fun _ => ⟨rfl, rfl⟩) (fun r hr _ => ?_)
    simp only [Engine.startable, Bool.and_eq_true, decide_eq_true_eq] at hr
    simp [active, hr.2]
  | updateStep stepId state attempt result retryAt hstate hretry =>
    refine .of_same (by rw [hdb]) ?_ (by rw [hdb])
    unfold stepLines
    rw [hdb]
    exact Table.update_column _ _ (fun _ _ _ => rfl)
  | resetStep stepId =>
    refine .of_same (by rw [hdb]) ?_ (by rw [hdb])
    unfold stepLines
    rw [hdb]
    exact Table.update_column _ _ (fun _ _ _ => rfl)
  | still => exact .of_same (by rw [hdb]) (by rw [stepLines, hdb]; rfl) (by rw [hdb])
  | insertActivity a hid hstep =>
    exact .of_same (by rw [hdb]) (by rw [stepLines, hdb]; rfl) (by rw [hdb])
  | updateActivity id state now result message =>
    exact .of_same (by rw [hdb]) (by rw [stepLines, hdb]; rfl) (by rw [hdb])
  | heartbeat id now => exact .of_same (by rw [hdb]) (by rw [stepLines, hdb]; rfl) (by rw [hdb])

theorem inserted_lines (u : Uuid) (w : World) :
    inserted u w = ((stepLines w).filter (fun s => s.2.1 = u)).map (·.2.2) := by
  unfold inserted stepLines
  rw [List.filter_map, List.map_map]
  rfl

theorem Settles.inserted (h : Settles w w') (u : Uuid) : inserted u w' = inserted u w := by
  rw [inserted_lines, inserted_lines, h.steps]

end

theorem acts_insertWorkflow {wf : WorkflowInstance} {w : World}
    (h : ¬ ∃ r ∈ w.db.workflows, r.runId = wf.runId) :
    (insertWorkflow wf).Acts w () { w with
      db := { w.db with workflows := w.db.workflows ++ [workflowRow wf] } } :=
  acts_execute (if_neg h)

theorem acts_insertWorkflowStep {id u : Uuid} {w : World}
    (hid : ¬ ∃ r ∈ w.db.workflowSteps, r.id = id) (hrun : ∃ r ∈ w.db.workflows, r.runId = u)
    (now : Clock) (index : Nat) (args : Json) (d : ActivityStep) :
    (insertWorkflowStep now (freshStep id u index args d)).Acts w () { w with
      db := { w.db with workflowSteps := w.db.workflowSteps ++
        [stepRow (freshStep id u index args d) .pending now] } } :=
  acts_execute ((if_neg hid).trans (if_pos hrun))

/-- A cancellation of an active run succeeds. -/
theorem acts_cancelWorkflow {runId : String} {w : World}
    (h : ∃ r ∈ w.db.workflows, cancellable runId r = true) (now : Clock) :
    (Db.Workflows.cancelWorkflow now runId).Acts w () { w with
      db := { w.db with
        workflows := Table.update (cancellable runId) (cancelRun now) w.db.workflows } } := by
  refine ⟨rfl, (Prog.Acts.bind (acts_execute rfl) _).trans ?_⟩
  rw [if_neg]
  · rfl
  · rw [List.length_eq_zero_iff, List.filter_eq_nil_iff]
    obtain ⟨r, hr, hc⟩ := h
    exact fun hall => hall r hr hc

/-- What is left active of a schedule when one of its runs has been cancelled. -/
theorem activeIds_cancelled (scheduleId : String) (w : World) (u v : Uuid) (now : Clock) :
    v ∈ activeIds scheduleId { w with db := { w.db with
        workflows := Table.update (cancellable u.text) (cancelRun now) w.db.workflows } } ↔
      v ∈ activeIds scheduleId w ∧ v ≠ u := by
  rw [mem_activeIds, mem_activeIds]
  have hc : ∀ r, cancellable u.text r = true ↔ r.runId = u ∧ active r = true := by
    intro r
    rw [cancellable, Bool.and_eq_true, decide_eq_true_iff, runKey, key_iff]
  constructor
  · rintro ⟨q, hq, hof, ha, rfl⟩
    obtain ⟨r, hr, rfl⟩ := Table.mem_update.mp hq
    cases hp : cancellable u.text r with
    | true =>
      rw [hp, if_pos rfl] at ha
      cases ha
    | false =>
      rw [hp, if_neg Bool.false_ne_true] at hof ha
      rw [if_neg Bool.false_ne_true]
      refine ⟨⟨r, hr, hof, ha, rfl⟩, fun he => ?_⟩
      rw [(hc r).mpr ⟨he, ha⟩] at hp
      cases hp
  · rintro ⟨⟨r, hr, hof, ha, rfl⟩, hne⟩
    have hp : ¬ cancellable u.text r = true := fun hp => hne ((hc r).mp hp).1
    refine ⟨_, Table.update_mem hr, ?_⟩
    rw [if_neg hp]
    exact ⟨hof, ha, rfl⟩

/-- The schedule is due. -/
def Due (crates : Crates) (env : Env) (info : ScheduleRow) (w : World) : Prop :=
  ((Scheduler.shouldFire crates (env.part 0) info).run w).1.value? = some true

instance (crates : Crates) (env : Env) (info : ScheduleRow) (w : World) :
    Decidable (Due crates env info w) := inferInstanceAs (Decidable (_ = _))

/-- How many statements `processSchedule` makes up to its list of the active runs. -/
def listed (info : ScheduleRow) : Nat :=
  match info.specType with
  | .cron => 3
  | .interval => 4

/-- No run of the schedule comes to its end, the new one apart. -/
def Lasts (scheduleId : String) (u : Uuid) (w w' : World) : Prop :=
  ∀ v ∈ activeIds scheduleId w, v ≠ u → v ∈ activeIds scheduleId w'

instance (scheduleId : String) (u : Uuid) (w w' : World) : Decidable (Lasts scheduleId u w w') :=
  inferInstanceAs (Decidable (∀ _ ∈ _, _ → _))

theorem due_cron (hspec : info.specType = .cron) (h : Due crates env info w) :
    Scheduler.shouldFire crates (env.part 0) info = return true := by
  unfold Due Scheduler.shouldFire at h
  unfold Scheduler.shouldFire
  rw [hspec] at h ⊢
  dsimp only at h ⊢
  split at h
  · exact congrArg (fun b => Prog.done (.ok b)) (Option.some.inj h)
  · cases Option.some.inj h

/-- An interval schedule reads when its last run started. -/
theorem due_interval (hspec : info.specType = .interval) (h : Due crates env info w) :
    (Scheduler.shouldFire crates (env.part 0) info).Acts w true w := by
  unfold Due Scheduler.shouldFire at h
  unfold Scheduler.shouldFire
  rw [hspec] at h ⊢
  dsimp only at h ⊢
  split at h
  · rename_i secs _
    have hread := acts_attempt_query (ε := DbError)
      (Scheduler.selectLastStarted info.scheduleId) w
    rw [run_checkInterval] at h
    refine ⟨rfl, (hread.bind _).trans ?_⟩
    dsimp only at h ⊢
    generalize unwrapOr none (Scheduler.selectLastStarted info.scheduleId w.db) = last at h ⊢
    cases last with
    | none => rfl
    | some text =>
      unfold intervalPassed at h
      dsimp only at h ⊢
      cases hp : Scheduler.parseDatetime text with
      | error e =>
        rw [hp] at h
        cases h
      | ok last =>
        rw [hp] at h
        exact congrArg (fun b => (Prog.done (.ok b), w)) (Option.some.inj h)
  · cases Option.some.inj h

section
variable (crates : Crates) (env : Env) (scheduleId : String) (info : ScheduleRow) (w : World)

/-- What may happen between two statements of `processSchedule`: from its list of the active runs
on, none of those comes to its end. -/
def Between (n : Nat) (s s' : World) : Prop :=
  Settles s s' ∧ (listed info ≤ n → Lasts scheduleId (env.uuid 0) s s')

/-- The schedule is due when it is checked. -/
def Checked (n : Nat) (s : World) : Prop := n ≤ 1 → Due crates env info s

/-- One run has been started since, with all its steps, and the older ones are over. -/
structure Replaced (s : World) : Prop where
  runs : runNames s = runNames w ++
    [(env.uuid 0, (Scheduler.scheduledInstance crates (env.part 2) info).workflowId)]
  steps : inserted (env.uuid 0) s =
    (scheduleWorkflowDefinition info.actionWorkflowName).map (·.activityName)
  ended : ∀ v ∈ activeIds scheduleId s, v = env.uuid 0

/-- What is left of `processSchedule` fires. -/
def Replaces (p : Prog World DbError Unit) (n : Nat) (s : World) : Prop :=
  p.Assures (Between env scheduleId info) (Checked crates env info)
    (fun r s => r = .ok () ∧ Replaced crates env scheduleId info w s) n s

end

section
variable {crates : Crates} {env : Env} {scheduleId : String} {info : ScheduleRow} {w : World}

theorem Settles.replaced (hs : Settles s s') (h : Replaced crates env scheduleId info w s) :
    Replaced crates env scheduleId info w s' :=
  ⟨hs.runs.trans h.runs, (hs.inserted _).trans h.steps,
    fun v hv => h.ended v (hs.still scheduleId v hv)⟩

theorem Replaces.step {p : Prog World DbError Unit} (hp : p.outcome? = none)
    (h : ∀ s', Between env scheduleId info n s s' → Checked crates env info n s' →
      ∃ q s'', p.advance s' = (q, s'') ∧ Replaces crates env scheduleId info w q (n + 1) s'') :
    Replaces crates env scheduleId info w p n s :=
  .of_advance hp h

theorem Replaces.done (h : Replaced crates env scheduleId info w s) (n : Nat) :
    Replaces crates env scheduleId info w (.done (.ok ())) n s :=
  fun _ hs => ⟨rfl, hs.1.replaced h⟩

theorem Replaces.assures {p : Prog World DbError Unit}
    (h : Replaces crates env scheduleId info w p n s) :
    p.Assures (Between env scheduleId info) (Checked crates env info)
      (fun r s => r = .ok () ∧ Replaced crates env scheduleId info w s) n s := h

-- From here on a program fires by the rules above.
attribute [irreducible] Replaces

theorem run_of_names {s s' : World} {u : Uuid} (h : runNames s' = runNames s) :
    (∃ r ∈ s'.db.workflows, r.runId = u) ↔ ∃ r ∈ s.db.workflows, r.runId = u := by
  have hmem : ∀ s : World, (∃ r ∈ s.db.workflows, r.runId = u) ↔
      u ∈ (runNames s).map (·.1) := by
    intro s
    simp [runNames]
  rw [hmem, hmem, h]

theorem step_of_lines {s s' : World} {u : Uuid} (h : stepLines s' = stepLines s) :
    (∃ r ∈ s'.db.workflowSteps, r.id = u) ↔ ∃ r ∈ s.db.workflowSteps, r.id = u := by
  have hmem : ∀ s : World, (∃ r ∈ s.db.workflowSteps, r.id = u) ↔
      u ∈ (stepLines s).map (·.1) := by
    intro s
    simp [stepLines]
  rw [hmem, hmem, h]

/-- The loop over the steps, whatever is done to the tables in between. -/
theorem replaces_insertSteps (env' : Env) (args : ActivityStep → Json) (event : EngineEvent)
    (ds : List (ActivityStep × Nat)) (n : Nat) {s : World}
    (hids : (ds.map (fun d => env.uuid (d.2 + 1))).Nodup)
    (hnew : ∀ d ∈ ds, ¬ ∃ r ∈ s.db.workflowSteps, r.id = env.uuid (d.2 + 1))
    (hruns : runNames s = runNames w ++
      [(env.uuid 0, (Scheduler.scheduledInstance crates (env.part 2) info).workflowId)])
    (hover : ∀ v ∈ activeIds scheduleId s, v = env.uuid 0)
    (hsteps : inserted (env.uuid 0) s ++ ds.map (·.1.activityName) =
      (scheduleWorkflowDefinition info.actionWorkflowName).map (·.activityName)) :
    Replaces crates env scheduleId info w
      ((Prog.forEach ds fun (d, index) => (insertWorkflowStep (env'.now index)
        (freshStep (env.uuid (index + 1)) (env.uuid 0) index (args d) d)).mapError
          ((fun _ e => e : Nat → DbError → DbError) index)) >>= fun _ => send event) n s := by
  induction ds generalizing n s with
  | nil =>
    rw [List.map_nil, List.append_nil] at hsteps
    apply Replaces.step rfl
    intro s' hs _
    have hreplaced : Replaced crates env scheduleId info w s' :=
      hs.1.replaced ⟨hruns, hsteps, hover⟩
    refine ⟨_, _, rfl, Replaces.done ?_ _⟩
    exact ⟨hreplaced.runs, hreplaced.steps, hreplaced.ended⟩
  | cons d ds ih =>
    rw [List.map_cons, List.nodup_cons] at hids
    rw [Prog.forEach, Prog.bind_assoc]
    apply Replaces.step rfl
    intro s' hs _
    have hid : ¬ ∃ r ∈ s'.db.workflowSteps, r.id = env.uuid (d.2 + 1) := by
      rw [step_of_lines hs.1.steps]
      exact hnew d (by simp)
    have hrun : ∃ r ∈ s'.db.workflows, r.runId = env.uuid 0 := by
      have hmem : env.uuid 0 ∈ (runNames s').map (·.1) := by
        rw [hs.1.runs, hruns]
        simp
      simpa [runNames] using hmem
    refine ⟨_, _, ((acts_insertWorkflowStep hid hrun _ _ _ _).mapError _).bind _,
      ih _ hids.2 ?_ ?_ ?_ ?_⟩
    · rintro e he ⟨r, hr, hre⟩
      rcases List.mem_append.mp hr with hr | hr
      · exact hnew e (by simp [he]) ((step_of_lines hs.1.steps).mp ⟨r, hr, hre⟩)
      · rw [List.mem_singleton.mp hr] at hre
        exact hids.1 (List.mem_map.mpr ⟨e, he, hre.symm⟩)
    · exact hs.1.runs.trans hruns
    · exact fun v hv => hover v (hs.1.still scheduleId v hv)
    · rw [← hsteps, ← hs.1.inserted]
      simp [inserted, stepRow, freshStep]

/-- What the rest of `processSchedule` relies on: ids that are new, and the tables as they were. -/
structure Untouched (env : Env) (w s : World) : Prop where
  fresh : Fresh w.db env
  wellFormed : WellFormed w.db
  runs : runNames s = runNames w
  steps : stepLines s = stepLines w

theorem Untouched.later (h : Untouched env w s) (hs : Settles s s') : Untouched env w s' :=
  ⟨h.fresh, h.wellFormed, hs.runs.trans h.runs, hs.steps.trans h.steps⟩

theorem Untouched.unused (h : Untouched env w s) (hi : i < 6) :
    (¬ ∃ r ∈ s.db.workflows, r.runId = env.uuid i) ∧
      ¬ ∃ r ∈ s.db.workflowSteps, r.id = env.uuid i := by
  rw [run_of_names h.runs, step_of_lines h.steps]
  exact ⟨(fresh_unused h.fresh hi).1, (fresh_unused h.fresh hi).2.1⟩

theorem Untouched.ne (h : Untouched env w s) (hv : v ∈ activeIds scheduleId s) :
    v ≠ env.uuid 0 := by
  rintro rfl
  obtain ⟨r, hr, _, _, hid⟩ := mem_activeIds.mp hv
  exact (h.unused (i := 0) (by decide)).1 ⟨r, hr, hid⟩

theorem Untouched.nodup (h : Untouched env w s) (scheduleId : String) :
    (activeIds scheduleId s).Nodup := by
  have hids : (s.db.workflows.map (·.runId)).Nodup := by
    have hnames : ∀ s : World, s.db.workflows.map (·.runId) = (runNames s).map (·.1) := by
      intro s
      simp [runNames]
    rw [hnames, h.runs, ← hnames]
    apply List.Nodup.of_map Uuid.text
    rw [List.map_map]
    exact h.wellFormed.runs
  exact hids.sublist (List.filter_sublist.map _)

theorem Untouched.none_inserted (h : Untouched env w s) : inserted (env.uuid 0) s = [] := by
  rw [inserted_lines, h.steps, ← inserted_lines]
  exact inserted_none h.wellFormed h.fresh

/-- The steps of a run that has just been inserted. -/
theorem replaces_steps (env' : Env) (row : WorkflowRow) (h : Untouched env w s)
    (henv : env'.uuid = env.uuid) (n : Nat)
    (hover : ∀ v ∈ activeIds scheduleId
      { s with db := { s.db with workflows := s.db.workflows ++ [row] } }, v = env.uuid 0)
    (hrow : (row.runId, row.workflowId) =
      (env.uuid 0, (Scheduler.scheduledInstance crates (env.part 2) info).workflowId)) :
    Replaces crates env scheduleId info w
      (insertSteps env' (env.uuid 0) (fun _ => Scheduler.scheduledArgs info) (fun _ e => e)
        (scheduleWorkflowDefinition info.actionWorkflowName) >>=
          fun _ => send (.workflowCreated (env.uuid 0).text)) n
      { s with db := { s.db with workflows := s.db.workflows ++ [row] } } := by
  have hlength := schedule_definition_length info.actionWorkflowName
  unfold insertSteps
  rw [henv]
  refine replaces_insertSteps env' (fun _ => Scheduler.scheduledArgs info)
    (.workflowCreated (env.uuid 0).text) _ n (stepIds_nodup h.fresh hlength) ?_ ?_ ?_ ?_
  · exact fun d hd => (h.unused (stepIndex_lt hlength d hd)).2
  · rw [← h.runs, ← hrow]
    exact List.map_append
  · exact hover
  · rw [show inserted (env.uuid 0) { s with
      db := { s.db with workflows := s.db.workflows ++ [row] } } = [] from h.none_inserted,
      List.nil_append, show (fun d : ActivityStep × Nat => d.1.activityName) =
      (·.activityName) ∘ Prod.fst from rfl, ← List.map_map, List.zipIdx_map_fst]

/-- When no older run is active, the new one is started. -/
theorem replaces_start (n : Nat) (h : Untouched env w s)
    (hnone : ∀ v, v ∉ activeIds scheduleId s) :
    Replaces crates env scheduleId info w
      (Scheduler.startScheduleWorkflow crates (env.part 2) info) n s := by
  unfold Scheduler.startScheduleWorkflow
  apply Replaces.step rfl
  intro s' hs _
  have hs' := h.later hs.1
  have hinsert : (insertWorkflow (Scheduler.scheduledInstance crates (env.part 2) info)).Acts
      s' () _ := acts_insertWorkflow (hs'.unused (by decide)).1
  refine ⟨_, _, hinsert.bind _, ?_⟩
  refine replaces_steps ((env.part 2).part 1)
    (workflowRow (Scheduler.scheduledInstance crates (env.part 2) info)) hs' rfl (n + 1) ?_ rfl
  · intro v hv
    obtain ⟨q, hq, hof, ha, rfl⟩ := mem_activeIds.mp hv
    rcases List.mem_append.mp hq with hq | hq
    · exact absurd (hs.1.still scheduleId _ (mem_activeIds.mpr ⟨q, hq, hof, ha, rfl⟩)) (hnone _)
    · rw [List.mem_singleton.mp hq]
      rfl

/-- The runs that were listed are cancelled one by one: each is still active when its turn comes. -/
theorem replaces_cancels (env' : Env) (ids : List (Uuid × Nat)) (n : Nat)
    (hn : listed info ≤ n) (h : Untouched env w s) (hids : (ids.map (·.1)).Nodup)
    (hactive : ∀ x ∈ ids, x.1 ∈ activeIds scheduleId s)
    (hall : ∀ v ∈ activeIds scheduleId s, v ∈ ids.map (·.1)) :
    Replaces crates env scheduleId info w
      ((Prog.forEach ids fun (runId, i) => Db.Workflows.cancelWorkflow (env'.now i) runId.text) >>=
        fun _ => Scheduler.startScheduleWorkflow crates (env.part 2) info) n s := by
  induction ids generalizing n s with
  | nil => exact replaces_start n h (fun v hv => by simpa using hall v hv)
  | cons x ids ih =>
    rw [List.map_cons, List.nodup_cons] at hids
    rw [Prog.forEach, Prog.bind_assoc]
    apply Replaces.step rfl
    intro s' hs _
    have hlasts : ∀ y ∈ x :: ids, y.1 ∈ activeIds scheduleId s' :=
      fun y hy => hs.2 hn y.1 (hactive y hy) (h.ne (hactive y hy))
    have hcancellable : ∃ r ∈ s'.db.workflows, cancellable x.1.text r = true := by
      obtain ⟨r, hr, _, ha, hid⟩ := mem_activeIds.mp (hlasts x (by simp))
      exact ⟨r, hr, by simp [cancellable, runKey, hid, ha]⟩
    refine ⟨_, _, (acts_cancelWorkflow hcancellable _).bind _, ih _ (by omega) ?_ hids.2 ?_ ?_⟩
    · apply (h.later hs.1).later
      refine .updateRuns rfl (fun _ => ⟨rfl, rfl⟩) (fun _ _ ha => ?_)
      cases ha
    · intro y hy
      refine (activeIds_cancelled ..).mpr ⟨hlasts y (by simp [hy]), fun he => ?_⟩
      exact hids.1 (List.mem_map.mpr ⟨y, hy, he⟩)
    · intro v hv
      obtain ⟨hv, hne⟩ := (activeIds_cancelled ..).mp hv
      have hmem := hall v (hs.1.still scheduleId v hv)
      rw [List.map_cons, List.mem_cons] at hmem
      exact hmem.resolve_left hne

/-- Once the schedule has been found due: its active runs are counted, listed and cancelled. -/
theorem replaces_overlap (hfits : Scheduler.tooComplex scheduleId = false) (n : Nat)
    (hn : listed info = n + 2) (h : Untouched env w s) :
    Replaces crates env scheduleId info w (do
      let hasRunning ← Scheduler.checkRunningWorkflow scheduleId
      if hasRunning = true then do
        Scheduler.terminateExisting (env.part 1) scheduleId
        Scheduler.startScheduleWorkflow crates (env.part 2) info
      else
        Scheduler.startScheduleWorkflow crates (env.part 2) info) n s := by
  apply Replaces.step rfl
  intro s' hs _
  have hs' := h.later hs.1
  have hcount : (Scheduler.checkRunningWorkflow scheduleId).Acts s'
      (0 < (Scheduler.activeOf scheduleId s'.db).length) s' :=
    acts_query (Scheduler.compared_fits hfits _ _)
  refine ⟨_, _, hcount.bind _, ?_⟩
  split
  · unfold Scheduler.terminateExisting
    rw [Prog.bind_assoc]
    apply Replaces.step rfl
    intro s'' hs'' _
    have hlist : (query (Scheduler.selectActive scheduleId fun runs => runs.map (·.runId))).Acts s''
        (activeIds scheduleId s'') s'' := acts_query (Scheduler.compared_fits hfits _ _)
    refine ⟨_, _, hlist.attempt.bind _, ?_⟩
    rw [unwrapOr_ok]
    apply replaces_cancels (env.part 1) _ _ hn.le (hs'.later hs''.1)
    · rw [List.zipIdx_map_fst]
      exact (hs'.later hs''.1).nodup scheduleId
    · intro x hx
      exact List.fst_mem_of_mem_zipIdx hx
    · intro v hv
      rw [List.zipIdx_map_fst]
      exact hv
  · rename_i hnone
    apply replaces_start _ hs'
    intro v hv
    apply hnone
    rw [decide_eq_true_iff, ← List.length_map (f := (·.runId))]
    exact List.length_pos_of_mem hv

theorem replaces_processSchedule (hfits : Scheduler.tooComplex scheduleId = false)
    (hinfo : Scheduler.scheduleInfo scheduleId w.db = .ok info)
    (hpolicy : info.overlapPolicy = .terminate) (h : Untouched env w w) :
    Replaces crates env scheduleId info w (Scheduler.processSchedule crates env scheduleId) 0 w := by
  unfold Scheduler.processSchedule
  apply Replaces.step rfl
  intro s' hs hdue
  have hread : Scheduler.scheduleInfo scheduleId s'.db = .ok info := by
    unfold Scheduler.scheduleInfo
    rw [hs.1.schedules]
    exact hinfo
  refine ⟨_, _, (acts_query hread).attempt.bind _, ?_⟩
  dsimp only
  rw [hpolicy]
  dsimp only
  have hs' := h.later hs.1
  have hdue := hdue (by decide)
  cases hspec : info.specType with
  | cron =>
    rw [due_cron hspec hdue]
    exact replaces_overlap hfits 1 (by simp [listed, hspec]) hs'
  | interval =>
    apply Replaces.step (Prog.unfinished_bind (due_interval hspec hdue).unfinished _)
    intro s'' hs'' hdue
    refine ⟨_, _, (due_interval hspec (hdue (by decide))).bind _, ?_⟩
    exact replaces_overlap hfits 2 (by simp [listed, hspec]) (hs'.later hs''.1)

theorem Op.concludes_amending {op : Op} (h : op.concludes = true) :
    Op.amending (fun state => state = .completed ∨ state = .failed) op := by
  cases op with
  | reportActivityResult req => trivial
  | reportActivityFailure req => trivial
  | respondActivityTaskCompleted req => trivial
  | respondActivityTaskFailed req => trivial
  | cancelWorkflow req => trivial
  | pollActivity req => cases h
  | pollActivityTaskQueue req => cases h
  | heartbeat req => cases h
  | handle event => cases h
  | startWorkflow req => cases h
  | startWorkflowExecution req => cases h
  | scheduleFire scheduleId => cases h
  | writeSchedules rows notify => cases h

variable {calls : List Call} {events : List (Env × EngineEvent)} {c : Pool Thread World DbError}
  {ts : List (Transition (Pool Thread World DbError) Thread Unit)} {r : Outcome DbError Unit}

/-- The requests and the engine only settle runs. -/
theorem firing_settles (hcalls : ∀ call ∈ calls, call.op.concludes = true)
    (hr : weave.Run (firing crates env scheduleId calls events w) ts c) :
    ∀ x ∈ ts, x.input ≠ .scheduler → Settles x.before.store x.after.store := by
  have hrelation := (weave_within (R := fun t s s' => t ≠ .scheduler → Settles s s') hr ?_).2
  · exact hrelation
  · intro t
    cases t with
    | rpc =>
      refine Prog.Within.tasks fun call hcall => ?_
      exact (exec_amends crates call.env (Op.concludes_amending (hcalls call hcall))).within.mono
        (fun h _ => h.settles)
    | engine =>
      refine Prog.Within.forEach fun event _ => ?_
      exact (Amends.handle ⟨.inl rfl, .inr rfl⟩ _ _).within.mono (fun h _ => h.settles)
    | scheduler => exact Prog.Within.of_all (fun _ _ h => absurd rfl h) _

/-- In every order of the statements in which none of the listed runs comes to its end before it
is cancelled, a schedule that is due fires: one new run, and the older ones are over. No query
of the schedule's runs is refused. -/
theorem fire_not_lost (hw : (server crates).Reachable w) (hf : Fresh w.db env)
    (hfits : Scheduler.tooComplex scheduleId = false)
    (hinfo : Scheduler.scheduleInfo scheduleId w.db = .ok info)
    (hpolicy : info.overlapPolicy = .terminate)
    (hcalls : ∀ call ∈ calls, call.op.concludes = true)
    (hr : weave.Run (firing crates env scheduleId calls events w) ts c)
    (hdue : ∀ x ∈ numbered .scheduler 0 ts, x.2.input = .scheduler → x.1 ≤ 1 →
      Due crates env info x.2.before.store)
    (hlasts : ∀ x ∈ numbered .scheduler 0 ts, x.2.input ≠ .scheduler → listed info ≤ x.1 →
      Lasts scheduleId (env.uuid 0) x.2.before.store x.2.after.store)
    (hdone : (c.thread .scheduler).outcome? = some r) :
    r = .ok () ∧
      runNames c.store = runNames w ++
        [(env.uuid 0, (Scheduler.scheduledInstance crates (env.part 2) info).workflowId)] ∧
      inserted (env.uuid 0) c.store =
        (scheduleWorkflowDefinition info.actionWorkflowName).map (·.activityName) ∧
      ∀ q ∈ w.db.workflows, Scheduler.ofSchedule scheduleId q = true → active q = true →
        ∀ q' ∈ c.store.db.workflows, q'.runId = q.runId → active q' = false := by
  have huntouched : Untouched env w w := ⟨hf, (reachable_readable hw).2, rfl, rfl⟩
  have hsettles := firing_settles hcalls hr
  obtain ⟨m, hassures⟩ := weave_assures (t := .scheduler) (n := 0) hr
    (fun _ s => ⟨Settles.refl s, fun _ v hv _ => hv⟩)
    (fun h h' => ⟨h.1.trans h'.1, fun hn v hv hne => h'.2 hn v (h.2 hn v hv hne) hne⟩)
    (replaces_processSchedule hfits hinfo hpolicy huntouched).assures
    (fun x hx ht => ⟨hsettles x.2 (mem_of_numbered hx) ht, hlasts x hx ht⟩)
    (fun x hx ht => hdue x hx ht)
  obtain ⟨hok, hreplaced⟩ := hassures.outcome ⟨Settles.refl _, fun _ v hv _ => hv⟩ hdone
  refine ⟨hok, hreplaced.runs, hreplaced.steps, fun q hq hof ha q' hq' hid => ?_⟩
  have hold : q.runId ≠ env.uuid 0 := fun he => (huntouched.unused (by decide)).1 ⟨q, hq, he⟩
  have hsame : q'.workflowId = q.workflowId := by
    have hmem : (q'.runId, q'.workflowId) ∈ runNames c.store := List.mem_map_of_mem hq'
    rw [hreplaced.runs] at hmem
    rcases List.mem_append.mp hmem with hmem | hmem
    · obtain ⟨p, hp, he⟩ := List.mem_map.mp hmem
      obtain ⟨hpid, hpname⟩ := Prod.mk.inj he
      have hpq := huntouched.wellFormed.runs.unique hp hq (congrArg Uuid.text (hpid.trans hid))
      rw [← hpname, hpq]
    · exact absurd (hid.symm.trans (Prod.mk.inj (List.mem_singleton.mp hmem)).1) hold
  rw [Bool.eq_false_iff]
  intro ha'
  apply hold
  rw [← hid]
  apply hreplaced.ended
  refine mem_activeIds.mpr ⟨q', hq', ?_, ha', rfl⟩
  rwa [Scheduler.ofSchedule, hsame]

end

/-- A schedule that fires every minute and terminates what still runs. -/
def minutely : ScheduleRow :=
  ⟨"minutely", "default", .interval, none, some 60, .terminate, "job", "default", "", none, ""⟩

/-- It has fired once. -/
def firedOnce : World := (server plainCrates).ending .empty
  (script [.writeSchedules [minutely] false, .scheduleFire "minutely"])

theorem firedOnce_reachable : (server plainCrates).Reachable firedOnce := by
  have hadmitted : (server plainCrates).Admitted .empty
      (script [.writeSchedules [minutely] false, .scheduleFire "minutely"]) := by
    decide +kernel
  exact ⟨.empty, _, rfl, Machine.run_replay _ _ hadmitted⟩

/-- It fires again while its first run is cancelled by a request. -/
def firesAgain : Pool Thread World DbError :=
  firing plainCrates (turn 3) "minutely" [⟨turn 4, .cancelWorkflow ⟨"id-10", "default"⟩⟩] []
    firedOnce

/-- The request comes after the active runs were counted and before they are listed. -/
def beforeList : List Thread :=
  List.replicate 3 .scheduler ++ .rpc :: List.replicate 8 .scheduler

/-- The request comes after they were listed. -/
def afterList : List Thread := List.replicate 4 .scheduler ++ [.rpc, .scheduler]

theorem fired_before_list :
    runNames (weave.ending firesAgain beforeList).store = runNames firedOnce ++
      [(⟨"id-30"⟩, (Scheduler.scheduledInstance plainCrates ((turn 3).part 2) minutely).workflowId)] := by
  have hadmitted : weave.Admitted firesAgain beforeList := by decide +kernel
  have hdone : ((weave.ending firesAgain beforeList).thread .scheduler).outcome?.isSome = true := by
    decide +kernel
  have hinfo : Scheduler.scheduleInfo "minutely" firedOnce.db = .ok minutely := rfl
  exact (fire_not_lost firedOnce_reachable (by decide +kernel) (by decide) hinfo rfl
    (by decide +kernel) (Machine.run_replay _ _ hadmitted) (by decide +kernel)
    (by decide +kernel) (Option.some_get hdone).symm).2.1

/-- A run that comes to its end between the list and its cancellation makes the fire fail. -/
theorem fire_lost :
    ¬ ∀ crates env scheduleId calls events w info ts c r, (server crates).Reachable w →
      Fresh w.db env → Scheduler.tooComplex scheduleId = false →
      Scheduler.scheduleInfo scheduleId w.db = .ok info →
      info.overlapPolicy = .terminate → (∀ call ∈ calls, call.op.concludes = true) →
      weave.Run (firing crates env scheduleId calls events w) ts c →
      (∀ x ∈ numbered .scheduler 0 ts, x.2.input = .scheduler → x.1 ≤ 1 →
        Due crates env info x.2.before.store) →
      (c.thread .scheduler).outcome? = some r →
      r = .ok () ∧
        runNames c.store = runNames w ++
          [(env.uuid 0, (Scheduler.scheduledInstance crates (env.part 2) info).workflowId)] ∧
        inserted (env.uuid 0) c.store =
          (scheduleWorkflowDefinition info.actionWorkflowName).map (·.activityName) ∧
        ∀ q ∈ w.db.workflows, Scheduler.ofSchedule scheduleId q = true → active q = true →
          ∀ q' ∈ c.store.db.workflows, q'.runId = q.runId → active q' = false := by
  intro h
  have hadmitted : weave.Admitted firesAgain afterList := by decide +kernel
  have hdone : ((weave.ending firesAgain afterList).thread .scheduler).outcome?.isSome = true := by
    decide +kernel
  have hall := h plainCrates (turn 3) "minutely" _ _ firedOnce minutely _ _ _ firedOnce_reachable
    (by decide +kernel) (by decide) rfl rfl (by decide +kernel) (Machine.run_replay _ _ hadmitted)
    (by decide +kernel) (Option.some_get hdone).symm
  have hlength := congrArg List.length hall.2.1
  exact absurd hlength (by decide +kernel)

end Khronos.Proofs
