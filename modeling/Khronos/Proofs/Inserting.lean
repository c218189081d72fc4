import Khronos.Proofs.Advance
import Khronos.Proofs.Decoding
import Khronos.Server.Replays
import Khronos.Server.Threads

namespace Khronos.Proofs
open Time Lib Db.Activities Db.Workflows Server Engine

/-- The activities of the steps that a run has so far. -/
def inserted (u : Uuid) (w : World) : List String :=
  (w.db.workflowSteps.filter (fun s => s.workflowRunId = u)).map (·.activityName)

/-- A run is completed. -/
def Completed (u : Uuid) (w : World) : Prop :=
  ∃ r ∈ w.db.workflows, r.runId = u ∧ r.state = .completed

/-- An action that completes a run. -/
def Completes (u : Uuid) (w w' : World) : Prop := ¬ Completed u w ∧ Completed u w'

instance (u : Uuid) (w : World) : Decidable (Completed u w) :=
  inferInstanceAs (Decidable (∃ _ ∈ _, _))

instance (u : Uuid) (w w' : World) : Decidable (Completes u w w') :=
  inferInstanceAs (Decidable (_ ∧ _))

/-- The steps of a run say that it is completed. -/
abbrev Done (u : Uuid) (w : World) : Prop := Concluded w.db u .completed

instance (u : Uuid) (w : World) : Decidable (Done u w) :=
  inferInstanceAs (Decidable ((∃ _ ∈ _, _) ∧ ∀ _ ∈ _, _))

/-- The next action of a thread may complete a run. -/
def Decided (u : Uuid) (p : Prog World DbError Unit) : Prop := ¬ p.Clears (Completes u)

/-- The next action of a thread is the read that decides on it. -/
def Deciding (u : Uuid) (p : Prog World DbError Unit) : Prop := ∃ w, Decided u (p.advance w).1

/-- The engine reads the steps of a run when either not all that it has are completed or it has
all of them, and none is taken out of completed before it writes. -/
structure Unhurried (u : Uuid) (defs : List ActivityStep) (c : Pool Thread World DbError)
    (t : Thread) : Prop where
  read : t = .engine → Deciding u (c.thread .engine) → Done u c.store →
    (inserted u c.store).length = defs.length
  write : t ≠ .engine → Decided u (c.thread .engine) → Done u c.store → Done u (c.step t).store

section
variable {u : Uuid} {w w' : World}

theorem completes_irrefl (u : Uuid) (w : World) : ¬ Completes u w w := fun h => h.1 h.2

theorem completed_update {p : WorkflowRow → Bool} {f : WorkflowRow → WorkflowRow}
    (hw : w'.db.workflows = Table.update p f w.db.workflows)
    (hf : ∀ r, (f r).runId = r.runId)
    (h : ∀ r, p r = true → r.runId = u → (f r).state ≠ .completed) : ¬ Completes u w w' := by
  rintro ⟨hn, q, hq, hid, hstate⟩
  rw [hw] at hq
  obtain ⟨r, hr, rfl⟩ := Table.mem_update.mp hq
  cases hp : p r with
  | true =>
    simp only [hp, if_true, hf] at hid hstate
    exact h r hp hid hstate
  | false =>
    simp only [hp, Bool.false_eq_true, if_false] at hid hstate
    exact hn ⟨r, hr, hid, hstate⟩

theorem completed_same (hw : w'.db.workflows = w.db.workflows) : ¬ Completes u w w' := by
  rintro ⟨hn, hc⟩
  unfold Completed at hc
  rw [hw] at hc
  exact hn hc

/-- What sets no run to completed completes none. -/
theorem Amend.quiet (h : Amend (fun state => state ≠ .completed) w.db w'.db) :
    ¬ Completes u w w' := by
  generalize hdb : w'.db = db' at h
  have hrows : w'.db.workflows = db'.workflows := by rw [hdb]
  cases h with
  | still => exact completed_same hrows
  | updateRun runId state hstate done =>
    exact completed_update hrows (fun _ => rfl) (fun _ _ _ => hstate)
  | cancelRun runId now => exact completed_update hrows (fun _ => rfl) (fun _ _ _ => nofun)
  | startRun runId now => exact completed_update hrows (fun _ => rfl) (fun _ _ _ => nofun)
  | updateStep stepId state attempt result retryAt hstate hretry => exact completed_same hrows
  | resetStep stepId => exact completed_same hrows
  | insertActivity a hid hstep => exact completed_same hrows
  | updateActivity id state now result message => exact completed_same hrows
  | heartbeat id now => exact completed_same hrows

/-- Only the start of a run inserts steps. -/
theorem Amend.inserted {P : WorkflowState → Prop} (h : Amend P w.db w'.db) :
    inserted u w' = inserted u w := by
  generalize hdb : w'.db = db' at h
  unfold Proofs.inserted
  rw [hdb]
  cases h with
  | updateStep stepId state attempt result retryAt hstate hretry =>
    exact Table.update_selected _ _ (fun _ => ⟨rfl, rfl⟩)
  | resetStep stepId => exact Table.update_selected _ _ (fun _ => ⟨rfl, rfl⟩)
  | still => rfl
  | updateRun runId state hstate done => rfl
  | cancelRun runId now => rfl
  | startRun runId now => rfl
  | insertActivity a hid hstep => rfl
  | updateActivity id state now result message => rfl
  | heartbeat id now => rfl

end

/-- The engine sets a run to completed only after it has read that its steps are. -/
abbrev Careful (u : Uuid) (p : Prog World ε α) : Prop := p.Heeds (Completes u) (Done u)

section
variable (u : Uuid)

theorem Amends.careful {p : Prog World ε α} (h : Amends (fun state => state ≠ .completed) p) :
    Careful u p :=
  .of_within (completes_irrefl u) (h.within.mono Amend.quiet)

theorem careful_query (f : Db → Except DbError α) : Careful u (query f) := (Amends.query f).careful u

theorem done_of_verdict (h : verdict (stepTotals u.text db) = some .completed) :
    Concluded db u .completed := by
  unfold verdict at h
  split at h
  · rename_i htotal
    split at h
    · cases h
    · split at h
      · rename_i hall
        exact ⟨stepTotals_total.mp htotal, stepTotals_completed.mp hall⟩
      · cases h
  · cases h

theorem careful_processSingleWorkflow (env : Env) (runId : String) :
    Careful u (processSingleWorkflow env runId) := by
  have hstart : Amends (fun state => state ≠ .completed) (execute fun db =>
      let workflows := Table.update (startable runId) (startRun (env.now 0)) db.workflows
      .ok ((), { db with workflows })) := by
    apply Amends.execute
    intro db a db' he
    cases he
    exact .startRun runId (env.now 0)
  refine (hstart.careful u).bind fun _ => (careful_query u _).bind fun next => ?_
  cases next with
  | some index =>
    exact (careful_query u _).bind fun _ => (careful_query u _).bind fun _ => (Amends.pure _).careful u
  | none =>
    apply Prog.Heeds.read (completes_irrefl u)
    · intro w totals he hn
      cases he
      cases hv : verdict (stepTotals runId w.db) with
      | none =>
        rw [hv] at hn
        exact absurd (completes_irrefl u) hn
      | some state =>
        rw [hv] at hn
        by_cases hrun : runId = u.text
        · subst hrun
          rcases verdict_states hv with rfl | rfl
          · exact done_of_verdict u hv
          · exact absurd ((Amends.updateWorkflowState _ (by simp) _).careful u).clears hn
        · refine absurd ?_ hn
          intro w
          refine completed_update rfl (fun _ => rfl) ?_
          intro r hr hid
          exact absurd ((of_decide_eq_true hr).symm.trans (congrArg Uuid.text hid)) hrun
    · intro totals
      split
      · exact Prog.Heralds.execute (completes_irrefl u) _ _
      · trivial

theorem careful_advanceRun (env : Env) (runId : String) : Careful u (advanceRun env runId) :=
  (careful_processSingleWorkflow u _ _).bind fun _ => (Amends.scheduleTimers _ _).careful u

theorem careful_handleRetryDue (env : Env) (stepId : String) :
    Careful u (handleRetryDue env stepId) := by
  refine (careful_query u _).bind fun (state, runId) => ?_
  dsimp only
  split
  · refine Prog.Heeds.bind (Amends.careful u (Amends.execute ?_)) fun _ => careful_advanceRun u _ _
    intro db a db' he
    cases he
    exact .resetStep stepId
  · exact (Amends.done _).careful u

theorem careful_handleHeartbeatTimeout (env : Env) (id : String) :
    Careful u (handleHeartbeatTimeout env id) := by
  refine (careful_query u _).bind fun (state, stepId) => ?_
  dsimp only
  split
  · refine (careful_query u _).attempt.bind fun policy => (careful_query u _).attempt.bind fun attempt =>
      ((Amends.updateActivityState _ _ _ _ _).careful u).bind fun _ => ?_
    split
    · split
      · exact (Amends.done _).careful u
      · rename_i hretry
        refine Prog.Heeds.bind (Amends.careful u (Amends.updateStepState _ _ _ _ ?_)) fun _ =>
          (Amends.arm _ _ _).careful u
        intro d hd
        cases hd
        exact retryTime_representable hretry
    · exact ((Amends.updateStepState _ _ _ _ (by simp)).careful u).bind fun _ =>
        (careful_query u _).bind fun _ => careful_processSingleWorkflow u _ _
  · exact (Amends.done _).careful u

theorem careful_handle (env : Env) (event : EngineEvent) :
    Careful u (Engine.handle env event : Prog World ε Unit) := by
  refine Prog.Heeds.bind (Prog.Heeds.attempt ?_) fun _ => (Amends.pure _).careful u
  cases event with
  | workflowCreated runId => exact careful_advanceRun u _ _
  | stepCompleted runId => exact careful_advanceRun u _ _
  | scheduleChange =>
    exact (careful_query u _).bind fun _ =>
      .forEach (completes_irrefl u) (fun _ _ => careful_advanceRun u _ _)
  | retryDue stepId => exact careful_handleRetryDue u _ _
  | heartbeatTimeout id => exact careful_handleHeartbeatTimeout u _ _

end

theorem inserted_same (h : w'.db.workflowSteps = w.db.workflowSteps) (u : Uuid) :
    inserted u w' = inserted u w := by
  unfold inserted
  rw [h]

theorem appends_execute {view : World → List ν} {f : Db → Except DbError (α × Db)}
    {error : DbError → ε} {x : ν} {rest : List ν} {g : α → Prog World ε β}
    (hf : ∀ w a db', f w.db = .ok (a, db') → view { w with db := db' } = view w ++ [x])
    (hg : ∀ a, (g a).Appends view rest) :
    ((execute f).mapError error >>= g).Appends view (x :: rest) := by
  refine Prog.Appends.execute ?_ hg
  intro w a w' he
  obtain ⟨db', hdb, rfl⟩ := executed he
  exact hf w a db' hdb

/-- A run has no steps before it is inserted. -/
theorem inserted_none (hw : WellFormed w.db) (hf : Fresh w.db env) :
    inserted (env.uuid 0) w = [] := by
  refine List.map_eq_nil_iff.mpr (List.filter_eq_nil_iff.mpr ?_)
  intro s hs he
  obtain ⟨r, hr, hid⟩ := hw.ofRun s hs
  apply hf.2 0 (by decide)
  rw [← of_decide_eq_true he, ← hid]
  exact List.mem_append_left _ (List.mem_append_left _ (List.mem_map_of_mem hr))

/-- An insert of a step adds its activity, if it succeeds. -/
theorem insertWorkflowStep_appends (now : Clock) (id u : Uuid) (index : Nat) (args : Json)
    (d : ActivityStep) (failed : DbError → ε) {rest : List String} {g : Unit → Prog World ε α}
    (hg : (g ()).Appends (inserted u) rest) :
    ((insertWorkflowStep now (freshStep id u index args d)).mapError failed >>= g).Appends
      (inserted u) (d.activityName :: rest) := by
  refine appends_execute ?_ (fun _ => hg)
  intro w a db' hd
  split at hd
  · cases hd
  · split at hd
    · cases hd
    · split at hd
      · cases hd
        simp [inserted, stepRow, freshStep]
      · cases hd

/-- The loop inserts the steps of a definition, one after the other. -/
theorem insertSteps_appends (env : Env) (u : Uuid) (args : ActivityStep → Json)
    (failed : Nat → DbError → ε) (defs : List ActivityStep) {rest : List String}
    {g : Unit → Prog World ε α} (hg : (g ()).Appends (inserted u) rest) :
    (insertSteps env u args failed defs >>= g).Appends (inserted u)
      (defs.map (·.activityName) ++ rest) := by
  have hnames : defs.map (·.activityName) = defs.zipIdx.map (fun d => d.1.activityName) := by
    rw [show (fun d : ActivityStep × Nat => d.1.activityName) =
      (·.activityName) ∘ Prod.fst from rfl, ← List.map_map, List.zipIdx_map_fst]
  rw [hnames]
  refine Prog.Appends.forEach ?_ hg
  intro d _ rest g hg
  exact insertWorkflowStep_appends _ _ _ _ _ _ _ hg

theorem startScheduleWorkflow_appends (crates : Crates) (env : Env) (info : ScheduleRow) :
    (Scheduler.startScheduleWorkflow crates env info).Appends (inserted (env.uuid 0))
      ((scheduleWorkflowDefinition info.actionWorkflowName).map (·.activityName)) := by
  unfold Scheduler.startScheduleWorkflow
  -- Nothing here depends on which definition it is.
  generalize scheduleWorkflowDefinition info.actionWorkflowName = defs
  rw [← List.append_nil (List.map _ defs)]
  apply Prog.Appends.after
  · have hsteps : (insertWorkflow (Scheduler.scheduledInstance crates env info)).Within
        (fun w w' => w'.db.workflowSteps = w.db.workflowSteps) := by
      apply within_execute (R := fun db db' => db'.workflowSteps = db.workflowSteps) (fun _ => rfl)
      intro db a db' he
      split at he
      · cases he
      · cases he
        rfl
    exact hsteps.mono (fun h => inserted_same h _)
  · intro _
    apply insertSteps_appends
    apply Prog.Appends.of_within
    intro w
    exact ⟨rfl, trivial⟩

theorem Op.ofWorker_amending {op : Op} (h : op.ofWorker = true) :
    Op.amending (fun state => state ≠ .completed) op := by
  cases op with
  | pollActivity req => exact nofun
  | pollActivityTaskQueue req => exact nofun
  | reportActivityResult req => trivial
  | reportActivityFailure req => trivial
  | respondActivityTaskCompleted req => trivial
  | respondActivityTaskFailed req => trivial
  | heartbeat req => trivial
  | cancelWorkflow req => cases h
  | handle event => cases h
  | startWorkflow req => cases h
  | startWorkflowExecution req => cases h
  | scheduleFire scheduleId => cases h
  | writeSchedules rows notify => cases h

/-- What holds while a run is being started, as long as the engine is not in a hurry. -/
structure Growing (u : Uuid) (defs : List ActivityStep) (c : Pool Thread World DbError) : Prop where
  scheduler : ∃ rest, (c.thread .scheduler).Appends (inserted u) rest ∧
    inserted u c.store ++ rest = defs.map (·.activityName)
  rpc : (c.thread .rpc).Within (fun w w' => Amend (fun state => state ≠ .completed) w.db w'.db)
  engine : (c.thread .engine).Within (fun w w' => Amend (fun _ => True) w.db w'.db)
  heralds : (c.thread .engine).Heralds (Completes u) (Done u)
  decided : Decided u (c.thread .engine) →
    inserted u c.store = defs.map (·.activityName) ∧ Done u c.store

section
variable {u : Uuid} {defs : List ActivityStep} {c : Pool Thread World DbError}

/-- A run that has as many steps as its definition has exactly those. -/
theorem Growing.whole (h : Growing u defs c)
    (hlength : (inserted u c.store).length = defs.length) :
    inserted u c.store = defs.map (·.activityName) := by
  obtain ⟨rest, _, hrest⟩ := h.scheduler
  have hl := congrArg List.length hrest
  rw [List.length_append, List.length_map] at hl
  have hnil := List.eq_nil_of_length_eq_zero (l := rest) (by omega)
  rw [hnil, List.append_nil] at hrest
  exact hrest

theorem Growing.step (h : Growing u defs c) {t : Thread} (hi : (c.thread t).outcome? = none)
    (hc : Unhurried u defs c t) : Growing u defs (c.step t) := by
  cases t with
  | rpc =>
    obtain ⟨hwrite, hrest⟩ := h.rpc.advance hi c.store
    have hsame : inserted u (c.step .rpc).store = inserted u c.store := hwrite.inserted
    refine ⟨?_, hrest, h.engine, h.heralds, fun hn => ?_⟩
    · rw [hsame]
      exact h.scheduler
    · obtain ⟨hall, hdone⟩ := h.decided hn
      exact ⟨hsame.trans hall, hc.write (by decide) hn hdone⟩
  | engine =>
    obtain ⟨hwrite, hrest⟩ := h.engine.advance hi c.store
    obtain ⟨hread, hheralds⟩ := h.heralds.advance hi c.store
    have hsame : inserted u (c.step .engine).store = inserted u c.store := hwrite.inserted
    refine ⟨?_, h.rpc, hrest, hheralds, fun hn => ?_⟩
    · rw [hsame]
      exact h.scheduler
    · obtain ⟨hstore, hdone⟩ := hread hn
      have hstore' : (c.step .engine).store = c.store := hstore
      rw [hstore']
      exact ⟨h.whole (hc.read rfl ⟨c.store, hn⟩ hdone), hdone⟩
  | scheduler =>
    obtain ⟨rest, happends, hrest⟩ := h.scheduler
    obtain ⟨new, rest', rfl, hview, happends'⟩ := happends.advance c.store
    have hinserted : inserted u (c.step .scheduler).store = inserted u c.store ++ new := hview
    refine ⟨⟨rest', happends', ?_⟩, h.rpc, h.engine, h.heralds, fun hn => ?_⟩
    · rw [hinserted, List.append_assoc]
      exact hrest
    · obtain ⟨hall, hdone⟩ := h.decided hn
      have hnew : new ++ rest' = [] := by
        rw [hall] at hrest
        exact List.append_right_eq_self.mp hrest
      refine ⟨?_, hc.write (by decide) hn hdone⟩
      rw [hinserted, (List.append_eq_nil_iff.mp hnew).1, List.append_nil]
      exact hall

end

section
variable {crates : Crates} {env : Env} {info : ScheduleRow} {calls : List Call}
  {events : List (Env × EngineEvent)} {w : World} {c : Pool Thread World DbError}
  {ts : List (Transition (Pool Thread World DbError) Thread Unit)}

theorem growing_starting (hw : (server crates).Reachable w) (hf : Fresh w.db env)
    (hcalls : ∀ call ∈ calls, call.op.ofWorker = true) :
    Growing (env.uuid 0) (scheduleWorkflowDefinition info.actionWorkflowName)
      (startingRun crates env info calls events w) where
  scheduler := by
    refine ⟨_, startScheduleWorkflow_appends crates env info, ?_⟩
    have hnone : inserted (env.uuid 0) w = [] := inserted_none (reachable_readable hw).2 hf
    change inserted (env.uuid 0) w ++ _ = _
    rw [hnone, List.nil_append]
  rpc := Prog.Within.tasks fun call hcall =>
    (exec_amends crates call.env (Op.ofWorker_amending (hcalls call hcall))).within
  engine := Prog.Within.forEach fun _ _ => (Amends.handle ⟨trivial, trivial⟩ _ _).within
  heralds := (Prog.Heeds.forEach (completes_irrefl _) fun event _ =>
    careful_handle _ _ event.2).heralds
  decided hn := absurd (Prog.Heeds.forEach (completes_irrefl _) fun event _ =>
    careful_handle _ _ event.2).clears hn

/-- In every order of the statements in which the engine is never in a hurry, it completes the
run only when all steps of its definition have been inserted and are completed. -/
theorem completed_when_inserted (hw : (server crates).Reachable w) (hf : Fresh w.db env)
    (hcalls : ∀ call ∈ calls, call.op.ofWorker = true)
    (hr : weave.Run (startingRun crates env info calls events w) ts c)
    (hts : ∀ x ∈ ts, Unhurried (env.uuid 0)
      (scheduleWorkflowDefinition info.actionWorkflowName) x.before x.input) :
    ∀ x ∈ ts, x.input = .engine → Completes (env.uuid 0) x.before.store x.after.store →
      inserted (env.uuid 0) x.before.store =
          (scheduleWorkflowDefinition info.actionWorkflowName).map (·.activityName) ∧
        Done (env.uuid 0) x.before.store := by
  intro x hx hengine hcompletes
  obtain ⟨pre, post, rfl⟩ := List.append_of_mem hx
  obtain ⟨hpre, _, he, _⟩ := hr.at
  have hgrowing : Growing (env.uuid 0) (scheduleWorkflowDefinition info.actionWorkflowName)
      x.before :=
    hpre.keeps_when (fun _ _ h hi hc => h.step hi hc) (growing_starting hw hf hcalls)
      (fun y hy => hts y (List.mem_append_left _ hy))
  apply hgrowing.decided
  intro hclears
  apply hclears x.before.store
  rw [he, hengine] at hcompletes
  exact hcompletes

end

/-- A schedule that is written before it fires. -/
def hourlyJob : ScheduleRow :=
  ⟨"hourly", "default", .interval, none, some 3600, .buffer, "job", "default", "", none, ""⟩

def scheduledOnly : World :=
  (server plainCrates).ending .empty (script [.writeSchedules [hourlyJob] false])

theorem scheduledOnly_reachable : (server plainCrates).Reachable scheduledOnly := by
  have hadmitted : (server plainCrates).Admitted .empty
      (script [.writeSchedules [hourlyJob] false]) := by
    decide +kernel
  exact ⟨.empty, _, rfl, Machine.run_replay _ _ hadmitted⟩

/-- A worker polls for a step and reports its result, in two turns. -/
def worked (i : Nat) (activity : String) : List Call :=
  [⟨turn i, .pollActivity ⟨"", [activity]⟩⟩,
    ⟨turn (i + 1), .reportActivityResult ⟨(turn i |>.uuid 0).text, ""⟩⟩]

/-- The run starts while workers do these activities; the engine is told once. -/
def startedWith (activities : List String) : Pool Thread World DbError :=
  startingRun plainCrates (turn 1) hourlyJob
    (activities.zipIdx.flatMap fun (activity, i) => worked (2 * i + 2) activity)
    [(turn 20, .stepCompleted "id-10")] scheduledOnly

def wholeJob : Pool Thread World DbError := startedWith ((cronPipeline 600).map (·.activityName))

/-- The scheduler inserts all, then the workers do all, then the engine decides. -/
def inTurn : List Thread :=
  List.replicate 7 .scheduler ++ List.replicate 45 .rpc ++ List.replicate 4 .engine

theorem completed_in_turn :
    ∃ x ∈ weave.replay wholeJob inTurn, Completes ⟨"id-10"⟩ x.before.store x.after.store ∧
      inserted ⟨"id-10"⟩ x.before.store = (cronPipeline 600).map (·.activityName) ∧
        Done ⟨"id-10"⟩ x.before.store := by
  have hadmitted : weave.Admitted wholeJob inTurn := by decide +kernel
  have hts : ∀ x ∈ weave.replay wholeJob inTurn,
      (x.input = .engine → Done ⟨"id-10"⟩ x.before.store →
        (inserted ⟨"id-10"⟩ x.before.store).length = 5) ∧
      (x.input ≠ .engine → Done ⟨"id-10"⟩ x.before.store →
        Done ⟨"id-10"⟩ (x.before.step x.input).store) := by
    decide +kernel
  have hcompletes : ∃ x ∈ weave.replay wholeJob inTurn, x.input = .engine ∧
      Completes ⟨"id-10"⟩ x.before.store x.after.store := by
    decide +kernel
  obtain ⟨x, hx, hengine, hcompletes⟩ := hcompletes
  exact ⟨x, hx, hcompletes, completed_when_inserted scheduledOnly_reachable (by decide +kernel)
    (by decide +kernel) (Machine.run_replay _ _ hadmitted)
    (fun x hx => ⟨fun ht _ => (hts x hx).1 ht, fun ht _ => (hts x hx).2 ht⟩)
    x hx hengine hcompletes⟩

/-- The worker is done with the first step, and the engine told, before the second is inserted. -/
def inBetween : List Thread :=
  List.replicate 2 .scheduler ++ List.replicate 9 .rpc ++ List.replicate 4 .engine

/-- The engine completes a run one of whose five steps has been inserted. -/
theorem completed_early :
    ¬ ∀ crates env info calls events w ts c, (server crates).Reachable w →
      info ∈ w.db.schedules → Fresh w.db env →
      (∀ call ∈ calls, call.op.ofWorker = true) →
      weave.Run (startingRun crates env info calls events w) ts c →
      ∀ x ∈ ts, x.input = .engine → Completes (env.uuid 0) x.before.store x.after.store →
        inserted (env.uuid 0) x.before.store =
            (scheduleWorkflowDefinition info.actionWorkflowName).map (·.activityName) ∧
          Done (env.uuid 0) x.before.store := by
  intro h
  have hadmitted : weave.Admitted (startedWith ["execute_cron_job"]) inBetween := by
    decide +kernel
  have hall := h plainCrates (turn 1) hourlyJob _ _ scheduledOnly _ _ scheduledOnly_reachable
    (by decide +kernel) (by decide +kernel) (by decide +kernel) (Machine.run_replay _ _ hadmitted)
  have hearly : ∃ x ∈ weave.replay (startedWith ["execute_cron_job"]) inBetween,
      x.input = .engine ∧ Completes ⟨"id-10"⟩ x.before.store x.after.store ∧
        (inserted ⟨"id-10"⟩ x.before.store).length = 1 := by
    decide +kernel
  obtain ⟨x, hx, hengine, hcompletes, hone⟩ := hearly
  have hfive := congrArg List.length (hall x hx hengine hcompletes).1
  rw [show (turn 1).uuid 0 = ⟨"id-10"⟩ by decide +kernel, hone] at hfive
  exact absurd hfive (by decide +kernel)

end Khronos.Proofs
