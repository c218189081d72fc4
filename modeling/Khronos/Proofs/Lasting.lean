import Khronos.Proofs.Moves
import Khronos.Proofs.Ownership

namespace Khronos.Proofs
open Time Lib Db.Activities Db.Workflows Server

/-- What no statement takes back of a run: its ids, and when it started once it has. -/
structure Lasting (r r' : WorkflowRow) : Prop where
  id : r'.runId = r.runId
  workflowId : r'.workflowId = r.workflowId
  started : ∀ t, r.startedAt = some t → r'.startedAt = some t
  stamped : ∀ t, r'.startedAt = some t → r.startedAt = some t ∨ ∃ c : Clock, t = c.datetime

theorem Lasting.refl (r : WorkflowRow) : Lasting r r := ⟨rfl, rfl, fun _ h => h, fun _ h => .inl h⟩

theorem Lasting.trans (h : Lasting r q) (h' : Lasting q p) : Lasting r p where
  id := h'.id.trans h.id
  workflowId := h'.workflowId.trans h.workflowId
  started t ht := h'.started t (h.started t ht)
  stamped t ht := (h'.stamped t ht).elim (h.stamped t) .inr

theorem setRun_lasting (state : WorkflowState) (result : Option Json) (completed : Option String)
    (r : WorkflowRow) : Lasting r (setRun state result completed r) :=
  ⟨rfl, rfl, fun _ h => h, fun _ h => .inl h⟩

theorem cancelRun_lasting (now : Clock) (r : WorkflowRow) : Lasting r (cancelRun now r) :=
  ⟨rfl, rfl, fun _ h => h, fun _ h => .inl h⟩

theorem startRun_lasting (now : Clock) (r : WorkflowRow) : Lasting r (Engine.startRun now r) where
  id := rfl
  workflowId := rfl
  started t h := by simp [Engine.startRun, h]
  stamped t h := by
    cases hs : r.startedAt with
    | some u => exact .inl (by simpa [Engine.startRun, hs] using h)
    | none => exact .inr ⟨now, by simpa [Engine.startRun, hs, eq_comm] using h⟩

/-- Every row of a table lasts in another one. -/
def Last (t t' : List WorkflowRow) : Prop :=
  ∃ f : WorkflowRow → WorkflowRow, t' = t.map f ∧ ∀ r ∈ t, Lasting r (f r)

theorem Last.refl (t : List WorkflowRow) : Last t t := ⟨id, by simp, fun r _ => .refl r⟩

theorem Last.trans (h : Last t u) (h' : Last u v) : Last t v := by
  obtain ⟨f, rfl, hf⟩ := h
  obtain ⟨g, rfl, hg⟩ := h'
  exact ⟨g ∘ f, by simp, fun r hr => (hf r hr).trans (hg _ (List.mem_map.mpr ⟨r, hr, rfl⟩))⟩

theorem last_update {f : WorkflowRow → WorkflowRow} (hf : ∀ r, Lasting r (f r))
    (p : WorkflowRow → Bool) (t : List WorkflowRow) : Last t (Table.update p f t) := by
  refine ⟨_, rfl, fun r _ => ?_⟩
  split
  · exact hf r
  · exact .refl r

theorem Cancels.last (h : Cancels p t t') : Last t t' := by
  obtain ⟨f, rfl, hf⟩ := h
  refine ⟨f, rfl, fun r hr => ?_⟩
  rcases hf r hr with he | ⟨_, _, now, he⟩
  · rw [he]
    exact .refl r
  · rw [he]
    exact cancelRun_lasting now r

theorem Terminated.last (h : Terminated crates env scheduleId w t) : Last w.db.workflows t := by
  rcases h with rfl | ⟨_, _, _, _, hc⟩
  · exact .refl _
  · exact hc.last

theorem processed_last (env : Env) (runId : String) (db : Db) :
    Last db.workflows (processed env runId db).workflows := by
  have hbegun : Last db.workflows (begun env runId db).workflows :=
    last_update (startRun_lasting (env.now 0)) _ _
  unfold processed
  split
  · exact hbegun.trans (last_update (setRun_lasting _ _ _) _ _)
  · exact hbegun

theorem swept_last (env : Env) (db : Db) (runs : List (Uuid × Nat)) :
    Last db.workflows (swept env db runs).workflows := by
  induction runs generalizing db with
  | nil => exact .refl _
  | cons r runs ih => exact (processed_last _ _ _).trans (ih _)

/-- Whether an operation may put a new run into the table. -/
def starting : Op → Bool
  | .startWorkflow _ | .startWorkflowExecution _ | .scheduleFire _ => true
  | _ => false

theorem Effect.last (h : Effect crates env op w w') (hop : starting op = false) :
    Last w.db.workflows w'.db.workflows := by
  cases h with
  | still => exact .refl _
  | schedules rows notify hrows queue hq => exact .refl _
  | started run new queue hstart hid hstate hnew =>
    rcases hstart with ⟨req, rfl, _⟩ | ⟨req, rfl, _⟩ <;> cases hop
  | fired scheduleId hfire _ hf =>
    subst hfire
    cases hop
  | dispatched s hs => exact last_update (setRun_lasting _ _ _) _ _
  | reported id rep hrep ht a s ha hs queue hq => exact .refl _
  | retimed id hbeat a s ha hs hr hlt => exact .refl _
  | expired id hbeat a s ha hs hr hlt =>
    exact processed_last (env.part 3) s.workflowRunId.text (Proofs.reported env .timeout a s w.db)
  | beaten id t ht => exact .refl _
  | cancelled req hcancel => exact last_update (cancelRun_lasting (env.now 0)) _ _
  | advanced runId hevent => exact processed_last _ _ _
  | swept hsweep => exact swept_last _ _ _

/-- What an operation does to the runs: they last, and there may be a new one. -/
structure Grown (env : Env) (db db' : Db) (t new : List WorkflowRow) : Prop where
  last : Last db.workflows t
  runs : db'.workflows = t ++ new
  fresh : ∀ r ∈ new, r.runId = env.uuid 0
  stamped : ∀ r ∈ new, ∀ t, r.startedAt = some t → ∃ c : Clock, t = c.datetime

theorem Last.grown (h : Last db.workflows db'.workflows) (env : Env) :
    Grown env db db' db'.workflows [] :=
  ⟨h, by simp, fun r hr => by simp at hr, fun r hr => by simp at hr⟩

theorem exec_grown (hw : WellFormed w.db) (hf : Fresh w.db env) (crates : Crates) (op : Op) :
    ∃ t new, Grown env w.db ((exec crates env op).after w).db t new := by
  have heffect := exec_effect hw hf crates op
  have hquiet : starting op = false →
      ∃ t new, Grown env w.db ((exec crates env op).after w).db t new :=
    fun hop => ⟨_, _, (heffect.last hop).grown env⟩
  cases op with
  | startWorkflow req =>
    unfold exec
    rw [Prog.after_bind_pure]
    unfold Prog.after
    rw [run_startWorkflow hf]
    refine ⟨_, [_], Last.refl _, rfl, ?_, ?_⟩
    · intro r hr
      rw [List.mem_singleton.mp hr]
      rfl
    · intro r hr t ht
      rw [List.mem_singleton.mp hr] at ht
      cases ht
  | startWorkflowExecution req =>
    unfold exec
    rw [Prog.after_bind_pure]
    unfold Prog.after
    rw [run_startWorkflowExecution hf]
    refine ⟨_, [_], Last.refl _, rfl, ?_, ?_⟩
    · intro r hr
      rw [List.mem_singleton.mp hr]
      rfl
    · intro r hr t ht
      rw [List.mem_singleton.mp hr] at ht
      cases ht
  | scheduleFire scheduleId =>
    rw [after_scheduleFire]
    rcases processSchedule_cases hw hf crates scheduleId with ⟨t, ht, he⟩ | ⟨info, t, h, he⟩
    · rw [he]
      exact ⟨t, [], ht.last, by simp [withRuns], by simp, by simp⟩
    · rw [he]
      refine ⟨t, [_], h.runs.last, rfl, ?_, ?_⟩
      · intro r hr
        rw [List.mem_singleton.mp hr]
        rfl
      · intro r hr u hu
        rw [List.mem_singleton.mp hr] at hu
        exact ⟨(env.part 2).now 0, (Option.some.inj hu).symm⟩
  | pollActivity req => exact hquiet rfl
  | pollActivityTaskQueue req => exact hquiet rfl
  | reportActivityResult req => exact hquiet rfl
  | reportActivityFailure req => exact hquiet rfl
  | respondActivityTaskCompleted req => exact hquiet rfl
  | respondActivityTaskFailed req => exact hquiet rfl
  | heartbeat req => exact hquiet rfl
  | cancelWorkflow req => exact hquiet rfl
  | handle event => exact hquiet rfl
  | writeSchedules rows notify => exact hquiet rfl

theorem Last.forward (h : Last t t') (hr : r ∈ t) : ∃ r' ∈ t', Lasting r r' := by
  obtain ⟨f, rfl, hf⟩ := h
  exact ⟨f r, List.mem_map.mpr ⟨r, hr, rfl⟩, hf r hr⟩

theorem Last.backward (h : Last t t') (hr : r' ∈ t') : ∃ r ∈ t, Lasting r r' := by
  obtain ⟨f, rfl, hf⟩ := h
  obtain ⟨r, hmem, rfl⟩ := List.mem_map.mp hr
  exact ⟨r, hmem, hf r hmem⟩

theorem step_lasting (hw : WellFormed w.db) {call : Call} (hc : (server crates).admits w call)
    (hr : r ∈ w.db.workflows) :
    ∃ r' ∈ ((server crates).step w call).2.db.workflows, Lasting r r' := by
  obtain ⟨t, new, hg⟩ := exec_grown hw hc crates call.op
  obtain ⟨r', hr', hl⟩ := hg.last.forward hr
  have hmem : r' ∈ ((exec crates call.env call.op).after w).db.workflows := by
    rw [hg.runs]
    exact List.mem_append_left _ hr'
  exact ⟨r', hmem, hl⟩

theorem run_lasting {v w : World} {ts : List ServerStep} (hrun : (server crates).Run v ts w)
    (hv : WellFormed v.db) (hr : r ∈ v.db.workflows) :
    WellFormed w.db ∧ ∃ r' ∈ w.db.workflows, Lasting r r' := by
  refine hrun.keeps (P := fun w => WellFormed w.db ∧ ∃ r' ∈ w.db.workflows, Lasting r r') ?_
    ⟨hv, r, hr, .refl r⟩
  rintro w call ⟨hw, q, hq, hl⟩ hc
  obtain ⟨r', hr', hl'⟩ := step_lasting hw hc hq
  exact ⟨step_wellFormed crates call hw, r', hr', hl.trans hl'⟩

/-- Every start that is stored has been read off a clock. -/
def Stamped (db : Db) : Prop :=
  ∀ r ∈ db.workflows, ∀ t, r.startedAt = some t → ∃ c : Clock, t = c.datetime

theorem step_stamped (hw : WellFormed w.db) {call : Call} (hc : (server crates).admits w call)
    (h : Stamped w.db) : Stamped ((server crates).step w call).2.db := by
  obtain ⟨t, new, hg⟩ := exec_grown hw hc crates call.op
  intro r' hr' u hu
  rcases List.mem_append.mp (hg.runs ▸ hr') with hr' | hr'
  · obtain ⟨r, hr, hl⟩ := hg.last.backward hr'
    exact (hl.stamped u hu).elim (h r hr u) id
  · exact hg.stamped r' hr' u hu

theorem run_stamped {ts : List ServerStep} (hr : (server crates).Run .empty ts w) :
    WellFormed w.db ∧ Stamped w.db := by
  have hempty : Stamped World.empty.db := by
    intro r hr
    cases hr
  exact hr.keeps (P := fun w => WellFormed w.db ∧ Stamped w.db)
    (fun _ call h hc => ⟨step_wellFormed crates call h.1, step_stamped h.1 hc h.2⟩) ⟨.empty, hempty⟩

/-- A step of the server in which a schedule starts the run of an id. -/
def StartsRun (scheduleId : String) (u : Uuid) (τ : ServerStep) : Prop :=
  τ.input.op = .scheduleFire scheduleId ∧ τ.input.env.uuid 0 = u ∧
    ∃ r ∈ τ.after.db.workflows, r.runId = u

/-- The row of the run that a schedule starts. -/
abbrev firedRow (crates : Crates) (env : Env) (info : ScheduleRow) : WorkflowRow :=
  workflowRow (Scheduler.scheduledInstance crates (env.part 2) info)

theorem startsRun_fired (hw : WellFormed w.db) {call : Call} (hc : (server crates).admits w call)
    (h : StartsRun scheduleId u ((server crates).transition w call)) :
    ∃ info t, Fires crates call.env scheduleId w info t ∧
      ((server crates).step w call).2 = firedWorld crates call.env info t w := by
  obtain ⟨env, op⟩ := call
  obtain ⟨hop, hu, r, hr, hid⟩ := h
  obtain rfl : op = .scheduleFire scheduleId := hop
  have hafter : (exec crates env (.scheduleFire scheduleId)).after w = _ :=
    after_scheduleFire env scheduleId w
  rcases processSchedule_cases hw hc crates scheduleId with ⟨t, ht, he⟩ | ⟨info, t, h, he⟩
  · have hstep : ((server crates).step w ⟨env, .scheduleFire scheduleId⟩).2 = withRuns w t :=
      hafter.trans he
    have hmem : r.runId ∈ t.map (·.runId) := by
      refine List.mem_map.mpr ⟨r, ?_, rfl⟩
      change r ∈ ((server crates).step w ⟨env, .scheduleFire scheduleId⟩).2.db.workflows at hr
      rw [hstep] at hr
      exact hr
    rw [ht.runIds] at hmem
    obtain ⟨q, hq, hqr⟩ := List.mem_map.mp hmem
    exact absurd ⟨q, hq, hqr.trans (hid.trans hu.symm)⟩ (fresh_unused hc (by omega)).1
  · exact ⟨info, t, h, hafter.trans he⟩

theorem firedWorld_runs (crates : Crates) (env : Env) (info : ScheduleRow) (t : List WorkflowRow)
    (w : World) :
    (firedWorld crates env info t w).db.workflows = t ++ [firedRow crates env info] := rfl

theorem firedRow_mem (h : w' = firedWorld crates env info t w) :
    firedRow crates env info ∈ w'.db.workflows := by
  rw [h, firedWorld_runs]
  simp

theorem scheduleInfo_id (h : Scheduler.scheduleInfo scheduleId db = .ok info) :
    info ∈ db.schedules ∧ info.scheduleId = scheduleId := by
  unfold Scheduler.scheduleInfo queryRow at h
  split at h
  · rename_i row rest hrows
    cases h
    have hmem : info ∈ db.schedules.filter (fun r => r.scheduleId = scheduleId) := by
      rw [hrows]
      exact List.mem_cons_self
    simpa using List.mem_filter.mp hmem
  · cases h

theorem firedRow_own (h : Scheduler.scheduleInfo scheduleId db = .ok info) (crates : Crates)
    (env : Env) : Scheduler.ofSchedule scheduleId (firedRow crates env info) = true := by
  have hid : (firedRow crates env info).workflowId =
      workflowIdOf info.scheduleId (shortId (env.uuid 0)) := rfl
  rw [(scheduleInfo_id h).2] at hid
  exact ofSchedule_own hid

end Khronos.Proofs
