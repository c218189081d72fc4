import Khronos.Proofs.Ended
import Khronos.Proofs.Moves

namespace Khronos.Proofs
open Time Lib Db.Activities Db.Workflows Server Engine

/-- What an operation other than a poll can make of the state of a run. -/
inductive Turned (env : Env) (op : Op) (db : Db) (r : WorkflowRow) : WorkflowState → Prop
  | same (hop : op ≠ .handle .scheduleChange) : Turned env op db r r.state
  | cancelled (ha : active r = true) : Turned env op db r .cancelled
  | looked (hop : op = .handle (.workflowCreated r.runId.text) ∨
      op = .handle (.stepCompleted r.runId.text)) : Turned env op db r (advancedState db r)
  | expired (id : String) (hop : op = .handle (.heartbeatTimeout id)) (a : ActivityRow)
      (s : WorkflowStepRow) (ha : activityOf db id = some a) (hs : stepOf db a.stepId = some s)
      (hrun : s.workflowRunId = r.runId) :
      Turned env op db r (advancedState (reported env .timeout a s db) r)
  | swept (hop : op = .handle .scheduleChange) :
      Turned env op db r (if active r = true then advancedState db r else r.state)

/-- A run that has an activity in the second tables has one in the first. -/
def Followed (db db' : Db) : Prop :=
  ∀ a' ∈ db'.activities, ∀ s' ∈ db'.workflowSteps, s'.id = a'.stepId →
    ∃ a ∈ db.activities, ∃ s ∈ db.workflowSteps, s.id = a.stepId ∧
      s.workflowRunId = s'.workflowRunId

/-- Where the runs and the activities come from after an operation that hands out nothing. -/
structure Turns (env : Env) (op : Op) (db db' : Db) : Prop where
  runs : ∀ r' ∈ db'.workflows, (r'.runId = env.uuid 0 ∧ r'.state = .pending) ∨
    ∃ r ∈ db.workflows, r'.runId = r.runId ∧ Turned env op db r r'.state
  attempts : Followed db db'

theorem same_followed {db db' : Db} (hs : db'.workflowSteps = db.workflowSteps)
    (ha : db'.activities = db.activities) : Followed db db' :=
  fun a' ha' s' hs' hid => ⟨a', ha ▸ ha', s', hs ▸ hs', hid, rfl⟩

theorem started_followed {db db' : Db} (hw : WellFormed db) (hnew : FreshSteps env now db new)
    (hs : db'.workflowSteps = db.workflowSteps ++ new) (ha : db'.activities = db.activities) :
    Followed db db' := by
  intro a' ha' s' hs' hid
  rw [ha] at ha'
  rw [hs] at hs'
  rcases List.mem_append.mp hs' with hold | hold
  · exact ⟨a', ha', s', hold, hid, rfl⟩
  · obtain ⟨s, hmem, he⟩ := hw.ofStep a' ha'
    refine absurd ?_ (hnew.unused s' hold)
    simp only [takenIds, List.mem_append, List.mem_map]
    exact .inl (.inr ⟨s, hmem, he.trans hid.symm⟩)

theorem reported_followed (hw : WellFormed db) (ha : a ∈ db.activities)
    (hs : s ∈ db.workflowSteps) : Followed db (reported env rep a s db) := by
  intro a' ha' s' hs' hid
  have hold : ∃ b ∈ db.activities, b.stepId = a'.stepId := by
    rcases (mem_reported_activities hw ha).mp ha' with rfl | ⟨hb, _⟩
    · exact ⟨a, ha, by cases rep <;> rfl⟩
    · exact ⟨a', hb, rfl⟩
  obtain ⟨b, hb, hstep⟩ := hold
  rcases (mem_reported_steps hw hs).mp hs' with rfl | ⟨hs', _⟩
  · have hfixed := write_fixed env a.attempt s.retryPolicyJson rep s
    exact ⟨b, hb, s, hs, hfixed.id.symm.trans (hid.trans hstep.symm), hfixed.run.symm⟩
  · exact ⟨b, hb, s', hs', hid.trans hstep.symm, rfl⟩

theorem Cancels.turned (h : Cancels p db.workflows t) (hop : op ≠ .handle .scheduleChange) :
    ∀ r' ∈ t, ∃ r ∈ db.workflows, r'.runId = r.runId ∧ Turned env op db r r'.state := by
  obtain ⟨f, rfl, hf⟩ := h
  intro r' hr'
  obtain ⟨r, hr, rfl⟩ := List.mem_map.mp hr'
  refine ⟨r, hr, ?_⟩
  rcases hf r hr with he | ⟨_, ha, now, he⟩
  · rw [he]
    exact ⟨rfl, .same hop⟩
  · rw [he]
    exact ⟨rfl, .cancelled ha⟩

theorem Terminated.turned (h : Terminated crates env scheduleId w t)
    (hop : op ≠ .handle .scheduleChange) :
    ∀ r' ∈ t, ∃ r ∈ w.db.workflows, r'.runId = r.runId ∧ Turned env op w.db r r'.state := by
  rcases h with rfl | ⟨_, _, _, _, hc⟩
  · exact fun r hr => ⟨r, hr, rfl, .same hop⟩
  · exact hc.turned hop

theorem Looked.turned {p : WorkflowRow → Prop} [DecidablePred p] (h : Looked p d db')
    (hd : d.workflows = db.workflows) (hlook : ∀ r, p r → Turned env op db r (advancedState d r))
    (hsame : ∀ r, ¬ p r → Turned env op db r r.state) :
    ∀ r' ∈ db'.workflows, ∃ r ∈ db.workflows, r'.runId = r.runId ∧ Turned env op db r r'.state := by
  intro r' hr'
  obtain ⟨r, hr, hid, hstate⟩ := h.runs r' hr'
  refine ⟨r, hd ▸ hr, hid, ?_⟩
  rw [hstate]
  split
  · exact hlook r ‹_›
  · exact hsame r ‹_›

theorem effect_turns (hw : WellFormed w.db) (hop : op ≠ .handle .scheduleChange)
    (h : Effect crates env op w w') :
    (∃ s, chosen env op w.db = some s ∧ w'.db = dispatched env s w.db) ∨
      Turns env op w.db w'.db := by
  have hsame : ∀ r' ∈ w.db.workflows, (r'.runId = env.uuid 0 ∧ r'.state = .pending) ∨
      ∃ r ∈ w.db.workflows, r'.runId = r.runId ∧ Turned env op w.db r r'.state :=
    fun r hr => .inr ⟨r, hr, rfl, .same hop⟩
  cases h with
  | still => exact .inr ⟨hsame, same_followed rfl rfl⟩
  | schedules rows notify _ queue _ => exact .inr ⟨hsame, same_followed rfl rfl⟩
  | started run new queue _ hid hstate hnew =>
    refine .inr ⟨fun r' hr' => ?_, started_followed hw hnew rfl rfl⟩
    rcases List.mem_append.mp hr' with hr' | hr'
    · exact hsame r' hr'
    · rw [List.mem_singleton.mp hr']
      exact .inl ⟨hid, hstate⟩
  | fired scheduleId _ _ hfired =>
    cases hfired with
    | cut t ht => exact .inr ⟨fun r' hr' => .inr (ht.turned hop r' hr'), same_followed rfl rfl⟩
    | started t ht hfires run new hid hstate hnew =>
      refine .inr ⟨fun r' hr' => ?_, started_followed hw hnew rfl rfl⟩
      rcases List.mem_append.mp hr' with hr' | hr'
      · exact .inr (ht.turned hop r' hr')
      · rw [List.mem_singleton.mp hr']
        exact .inl ⟨hid, hstate⟩
  | dispatched s hs => exact .inl ⟨s, hs, rfl⟩
  | reported id rep _ _ a s ha hs queue _ =>
    exact .inr ⟨hsame, reported_followed hw (activityOf_mem ha).1 (stepOf_mem hs).1⟩
  | retimed id _ a s ha hs _ _ =>
    exact .inr ⟨hsame, reported_followed hw (activityOf_mem ha).1 (stepOf_mem hs).1⟩
  | expired id hexp a s ha hs _ _ =>
    have hfollowed : Followed w.db (reported env .timeout a s w.db) :=
      reported_followed hw (activityOf_mem ha).1 (stepOf_mem hs).1
    have hruns : (reported env .timeout a s w.db).workflows = w.db.workflows := rfl
    refine .inr ⟨fun r' hr' => .inr ?_, fun a' ha' s' hs' =>
      hfollowed a' (by simpa using ha') s' (by simpa using hs')⟩
    exact (processed_looked _ _ _).turned hruns
      (fun r hk => .expired id hexp a s ha hs (key_iff.mp hk).symm) (fun _ _ => .same hop) r' hr'
  | beaten id t hbeat =>
    refine .inr ⟨hsame, fun a' ha' s' hs' hid => ?_⟩
    subst hbeat
    obtain ⟨a, ha, rfl⟩ := Table.mem_update.mp ha'
    refine ⟨a, ha, s', hs', hid.trans ?_, rfl⟩
    split <;> rfl
  | cancelled req _ =>
    have hc := cancels_update (p := fun _ => true) (t := w.db.workflows) (env.now 0)
      req.workflowRunId (fun _ _ _ => rfl)
    exact .inr ⟨fun r' hr' => .inr (hc.turned hop r' hr'), same_followed rfl rfl⟩
  | advanced runId hlook =>
    refine .inr ⟨fun r' hr' => .inr ?_, same_followed (by simp) (by simp)⟩
    refine (processed_looked _ _ _).turned rfl (fun r hk => ?_) (fun _ _ => .same hop) r' hr'
    subst hk
    exact .looked hlook
  | swept hsweep => exact absurd hsweep hop

theorem exec_turns (hw : WellFormed w.db) (hf : Fresh w.db env) (crates : Crates) (op : Op) :
    (∃ s, chosen env op w.db = some s ∧
      ((exec crates env op).after w).db = dispatched env s w.db) ∨
        Turns env op w.db ((exec crates env op).after w).db := by
  by_cases hop : op = .handle .scheduleChange
  · subst hop
    rw [after_handle]
    unfold Prog.after
    rw [show Engine.handler env .scheduleChange = Engine.processWorkflows env from rfl,
      run_processWorkflows]
    refine .inr ⟨fun r' hr' => .inr ?_, same_followed (by simp) (by simp)⟩
    obtain ⟨r, hr, hid, hstate⟩ := (swept_looked hw env).runs r' hr'
    refine ⟨r, hr, hid, ?_⟩
    rw [hstate]
    exact .swept rfl
  · exact effect_turns hw hop (exec_effect hw hf crates op)

/-- No text of the engine's makes a run pending. -/
theorem advancedState_not_pending (db : Db) (r : WorkflowRow) : advancedState db r ≠ .pending := by
  intro h
  unfold advancedState at h
  cases hd : decided (runKey r) db with
  | some state =>
    rw [hd] at h
    have hc := decided_iff.mp hd
    rw [show state = .pending from h] at hc
    exact hc
  | none =>
    rw [hd, Option.getD_none] at h
    split_ifs at h with hp
    exact hp h

theorem Turned.pending (h : Turned env op db r state) (hp : state = .pending) :
    r.state = .pending := by
  cases h with
  | same hop => exact hp
  | cancelled ha => cases hp
  | looked hop => exact absurd hp (advancedState_not_pending db r)
  | expired id hop a s ha hstep hrun => exact absurd hp (advancedState_not_pending _ r)
  | swept hop =>
    split at hp
    · exact absurd hp (advancedState_not_pending db r)
    · exact hp

/-- A run of which a step has been handed out is not pending any more. -/
def Begun (db : Db) : Prop :=
  ∀ a ∈ db.activities, ∀ s ∈ db.workflowSteps, s.id = a.stepId →
    ∀ r ∈ db.workflows, r.runId = s.workflowRunId → r.state ≠ .pending

theorem dispatched_run (hr' : r' ∈ (dispatched env s db).workflows) :
    ∃ r ∈ db.workflows, r'.runId = r.runId ∧
      ((r.runId = s.workflowRunId ∧ r'.state = .running) ∨
        (r.runId ≠ s.workflowRunId ∧ r' = r)) := by
  obtain ⟨r, hr, rfl⟩ := Table.mem_update.mp hr'
  refine ⟨r, hr, ?_⟩
  by_cases hk : runKey r = s.workflowRunId.text
  · rw [if_pos (decide_eq_true hk)]
    exact ⟨rfl, .inl ⟨key_iff.mp hk, rfl⟩⟩
  · rw [if_neg (by simpa using hk)]
    exact ⟨rfl, .inr ⟨fun he => hk (key_iff.mpr he), rfl⟩⟩

theorem dispatched_begun (hw : WellFormed db) (hs : s ∈ db.workflowSteps) (hb : Begun db) :
    Begun (dispatched env s db) := by
  intro a' ha' s' hs' hid r' hr' hrun hp
  obtain ⟨r, hr, hrid, ⟨_, hstate⟩ | ⟨hne, rfl⟩⟩ := dispatched_run hr'
  · rw [hp] at hstate
    cases hstate
  · rcases (mem_dispatched_steps hw hs).mp hs' with rfl | ⟨hold, hsne⟩
    · exact hne hrun
    · rcases mem_dispatched_activities.mp ha' with ha' | rfl
      · exact hb a' ha' s' hold hid r' hr hrun hp
      · exact hsne hid

theorem turns_begun (hw : WellFormed db) (hf : Fresh db env) (h : Turns env op db db')
    (hb : Begun db) : Begun db' := by
  intro a' ha' s' hs' hid r' hr' hrun hp
  obtain ⟨a, ha, s, hs, hsa, hsr⟩ := h.attempts a' ha' s' hs' hid
  rcases h.runs r' hr' with ⟨hnew, _⟩ | ⟨r, hr, hrid, hturn⟩
  · obtain ⟨q, hq, hqs⟩ := hw.ofRun s hs
    exact (fresh_unused hf (i := 0) (by omega)).1 ⟨q, hq, hqs.trans (hsr.trans (hrun.symm.trans hnew))⟩
  · exact hb a ha s hs hsa r hr (hrid.symm.trans (hrun.trans hsr.symm)) (hturn.pending hp)

theorem step_begun (hw : WellFormed w.db) {call : Call} (hc : (server crates).admits w call)
    (hb : Begun w.db) : Begun ((server crates).step w call).2.db := by
  change Begun ((exec crates call.env call.op).after w).db
  rcases exec_turns hw hc crates call.op with ⟨s, hs, he⟩ | h
  · rw [he]
    exact dispatched_begun hw (chosen_mem hs).1 hb
  · exact turns_begun hw hc h hb

theorem run_begun {ts : List ServerStep} (hr : (server crates).Run .empty ts w) :
    WellFormed w.db ∧ Begun w.db := by
  have hempty : Begun World.empty.db := by
    intro a ha
    cases ha
  exact hr.keeps (P := fun w => WellFormed w.db ∧ Begun w.db)
    (fun _ call h hc => ⟨step_wellFormed crates call h.1, step_begun h.1 hc h.2⟩) ⟨.empty, hempty⟩

end Khronos.Proofs
