import Khronos.Proofs.Order
import Khronos.Server.Attached

namespace Khronos.Proofs
open Time Lib Db.Activities Db.Workflows Server

/-- The last sign of life of an activity, as an instant: its last heartbeat, or its start. -/
def lastSign (a : ActivityRow) : Option DateTime :=
  (a.lastHeartbeatAt.or a.startedAt).bind fun t =>
    NaiveDateTime.parseFromStr t "%Y-%m-%d %H:%M:%S"

/-- Every running activity whose step has a heartbeat timeout has a timer for it that goes off
in time. -/
def Watched (w : World) : Prop :=
  ∀ a ∈ w.db.activities, a.state = .running → ∀ s ∈ w.db.workflowSteps, s.id = a.stepId →
    ∀ secs, s.heartbeatTimeoutSecs = some secs →
      ∃ t ∈ w.timers, t.event = .heartbeatTimeout a.id.text ∧
        ∃ d, lastSign a = some d ∧ t.deadline.nanos ≤ d.nanos + secs.toInt * second

/-- A poll's oldest offered step has a heartbeat timeout. -/
def HandsOutTimed (o : Occurrence) (w : World) : Prop :=
  ∃ op s, o.action = .serve op ∧ Foremost o.env op w.db s ∧ s.heartbeatTimeoutSecs ≠ none

/-- No step with a heartbeat timeout has a running activity. -/
def Untimed (db : Db) : Prop :=
  ∀ a ∈ db.activities, a.state = .running → ∀ s ∈ db.workflowSteps, s.id = a.stepId →
    s.heartbeatTimeoutSecs = none

theorem write_timeout (env : Env) (n : UInt32) (policy : RetryPolicy) (rep : Report)
    (s : WorkflowStepRow) :
    (rep.write env n policy s).heartbeatTimeoutSecs = s.heartbeatTimeoutSecs := by
  have hfailed : ∀ counted due,
      (failedStep counted policy due s).heartbeatTimeoutSecs = s.heartbeatTimeoutSecs := by
    intro counted due
    unfold failedStep
    split
    · cases due <;> rfl
    · rfl
  cases rep with
  | result json => rfl
  | failure message => exact hfailed _ _
  | timeout => exact hfailed _ _

theorem moved_untimed {crates : Crates} (hw : WellFormed db) (hu : Untimed db)
    (hn : ∀ s, Foremost env op db s → s.heartbeatTimeoutSecs = none)
    (hm : Moved crates env op db db') : Untimed db' := by
  intro a' ha' hrun s' hs' hid
  cases hm with
  | still hs ha => exact hu a' (ha ▸ ha') hrun s' (hs ▸ hs') hid
  | beaten id hs ha =>
    rw [ha] at ha'
    obtain ⟨a, hmem, rfl⟩ := Table.mem_update.mp ha'
    have hsame : ∀ b : Bool, (if b then beat (env.now 0) a else a).state = a.state ∧
        (if b then beat (env.now 0) a else a).stepId = a.stepId := by
      intro b
      cases b <;> exact ⟨rfl, rfl⟩
    exact hu a hmem ((hsame _).1 ▸ hrun) s' (hs ▸ hs') (hid.trans (hsame _).2)
  | started new hop hnew hs ha =>
    rw [ha] at ha'
    rw [hs] at hs'
    rcases List.mem_append.mp hs' with hold | hold
    · exact hu a' ha' hrun s' hold hid
    · obtain ⟨s, hmem, he⟩ := hw.ofStep a' ha'
      refine absurd ?_ (hnew.unused s' hold)
      simp only [takenIds, List.mem_append, List.mem_map]
      exact .inl (.inr ⟨s, hmem, he.trans hid.symm⟩)
  | dispatched s hc hs ha =>
    have hmem := (chosen_mem hc).1
    rw [hs, mem_dispatched_steps hw hmem] at hs'
    rw [ha, mem_dispatched_activities] at ha'
    have hnone := hn s (chosen_foremost hc)
    rcases hs' with rfl | ⟨hold, hne⟩
    · exact hnone
    · rcases ha' with ha' | rfl
      · exact hu a' ha' hrun s' hold hid
      · exact absurd hid hne
  | reported id rep hop a s hact hstep hh hs ha =>
    have hmem := (stepOf_mem hstep).1
    rw [hs, mem_reported_steps hw hmem] at hs'
    rw [ha, mem_reported_activities hw (activityOf_mem hact).1] at ha'
    rcases ha' with rfl | ⟨ha', _⟩
    · exact absurd hrun (mark_not_running env rep a)
    · rcases hs' with rfl | ⟨hold, _⟩
      · rw [write_timeout]
        exact hu a' ha' hrun s hmem ((write_fixed _ _ _ _ _).id.symm.trans hid)
      · exact hu a' ha' hrun s' hold hid

/-- Every timer is there for a retry. -/
def RetriesOnly (w : World) : Prop := ∀ t ∈ w.timers, ∃ stepId, t.event = .retryDue stepId

theorem effect_retriesOnly (h : Effect crates env op w w') (ht : RetriesOnly w) :
    RetriesOnly w' := by
  cases h with
  | retimed id hop a s ha hs hr hlt =>
    intro t hmem
    rcases List.mem_append.mp hmem with hmem | hmem
    · exact ht t hmem
    · unfold retryTimers at hmem
      split at hmem
      · exact ⟨_, congrArg Timer.event (List.mem_singleton.mp hmem)⟩
      · cases hmem
  | fired scheduleId hop _ hfired => cases hfired <;> exact ht
  | still => exact ht
  | schedules rows notify hop queue hq => exact ht
  | started run new queue hop hid hstate hnew => exact ht
  | dispatched s hs => exact ht
  | reported id rep hop hrep a s ha hs queue hq => exact ht
  | expired id hop a s ha hs hr hlt => exact ht
  | beaten id t hbeat => exact ht
  | cancelled req hop => exact ht
  | advanced runId hop => exact ht
  | swept hop => exact ht

/-- What holds of an attached server: its timers are all for retries. -/
structure Unarmed (w : World) : Prop where
  wellFormed : WellFormed w.db
  timers : RetriesOnly w

theorem attached_step_unarmed (h : Unarmed w) (crates : Crates) {o : Occurrence}
    (hc : (attached crates).admits w o) : Unarmed ((attached crates).step w o).2 := by
  obtain ⟨env, action⟩ := o
  cases action with
  | serve op =>
    exact ⟨step_wellFormed crates ⟨env, op⟩ h.wellFormed,
      effect_retriesOnly (exec_effect h.wellFormed hc.1 crates op) h.timers⟩
  | receive =>
    change Unarmed (receive crates env w)
    unfold receive
    cases hq : w.queue with
    | nil => exact h
    | cons e queue =>
      have heffect := exec_effect (w := { w with queue }) h.wellFormed hc.1 crates (.handle e)
      exact ⟨step_wellFormed (w := { w with queue }) crates ⟨env, .handle e⟩ h.wellFormed,
        effect_retriesOnly heffect h.timers⟩
  | timer i =>
    change Unarmed (goOff i w)
    unfold goOff
    split
    · exact ⟨h.wellFormed, fun t ht => h.timers t (List.mem_of_mem_eraseIdx ht)⟩
    · exact h
  | restart => exact ⟨h.wellFormed, fun t ht => by cases ht⟩

theorem attached_step_untimed {w : World} (hw : WellFormed w.db) (hu : Untimed w.db)
    (crates : Crates) {o : Occurrence} (hc : (attached crates).admits w o)
    (hn : ¬ HandsOutTimed o w) : Untimed ((attached crates).step w o).2.db := by
  obtain ⟨env, action⟩ := o
  cases action with
  | serve op =>
    refine moved_untimed hw hu (fun s hs => ?_) (exec_effect hw hc.1 crates op).moved
    by_contra hne
    exact hn ⟨op, s, rfl, hs, hne⟩
  | receive =>
    change Untimed (receive crates env w).db
    unfold receive
    cases hq : w.queue with
    | nil => exact hu
    | cons e queue =>
      have heffect := exec_effect (w := { w with queue }) hw hc.1 crates (.handle e)
      exact moved_untimed hw hu (fun s hs => absurd rfl (foremost_not_handle hs _)) heffect.moved
  | timer i =>
    change Untimed (goOff i w).db
    unfold goOff
    split <;> exact hu
  | restart => exact hu

/-- Without a heartbeat timer, only activities that need none are watched. -/
theorem watched_iff (h : RetriesOnly w) : Watched w ↔ Untimed w.db := by
  constructor
  · intro hw a ha hrun s hs hid
    cases hsecs : s.heartbeatTimeoutSecs with
    | none => rfl
    | some secs =>
      obtain ⟨t, ht, hevent, _⟩ := hw a ha hrun s hs hid secs hsecs
      obtain ⟨stepId, hretry⟩ := h t ht
      rw [hretry] at hevent
      cases hevent
  · intro hu a ha hrun s hs hid secs hsecs
    rw [hu a ha hrun s hs hid] at hsecs
    cases hsecs

/-- In every run of the attached server: as long as no poll hands out a step with a heartbeat
timeout, every activity that needs a heartbeat timer has one whenever no event is queued; and at
any time that is so exactly when no activity that runs needs one. -/
theorem attached_watched {ts : List AttachedStep} (hr : (attached crates).Run .empty ts w) :
    ((∀ τ ∈ ts, ¬ HandsOutTimed τ.input τ.before) → w.queue = [] → Watched w) ∧
    (Watched w ↔ Untimed w.db) := by
  have hunarmed := hr.keeps (P := Unarmed)
    (fun _ _ h hc => attached_step_unarmed h crates hc) ⟨.empty, fun t ht => by cases ht⟩
  have hiff := watched_iff hunarmed.timers
  refine ⟨fun hn _ => hiff.mpr ?_, hiff⟩
  have hempty : Untimed World.empty.db := by
    intro a ha
    cases ha
  exact (hr.keeps_when (P := fun w => Unarmed w ∧ Untimed w.db)
    (C := fun w o => ¬ HandsOutTimed o w)
    (fun w o h hc hno => ⟨attached_step_unarmed h.1 crates hc,
      attached_step_untimed h.1.wellFormed h.2 crates hc hno⟩)
    ⟨⟨.empty, fun t ht => by cases ht⟩, hempty⟩ hn).2

/-- The second step of the cron pipeline, which has no heartbeat timeout, is handed out. -/
def untimedStep : List Action :=
  [.serve (.startWorkflow ⟨"cron_job_workflow", [], "", "", none, ""⟩), .receive,
    .serve (.pollActivity ⟨"", ["save_cron_output"]⟩)]

theorem untimed_step_watched :
    (∃ a ∈ ((attached plainCrates).ending .empty (story untimedStep)).db.activities,
      a.state = .running) ∧
    ((attached plainCrates).ending .empty (story untimedStep)).queue = [] ∧
    Watched ((attached plainCrates).ending .empty (story untimedStep)) := by
  have hquiet : ∀ τ ∈ (attached plainCrates).replay .empty (story untimedStep),
      (match τ.input.action with
        | .serve op => τ.before.db.workflowSteps.all (fun s =>
          !offered τ.input.env op τ.before.db s || s.heartbeatTimeoutSecs.isNone)
        | _ => true) = true := by decide +kernel
  have hempty : ((attached plainCrates).ending .empty (story untimedStep)).queue = [] := by
    decide +kernel
  refine ⟨by decide +kernel, hempty, (attached_watched
    (Machine.run_replay World.empty (story untimedStep) (by decide +kernel))).1 ?_ hempty⟩
  rintro τ hτ ⟨op, s, hop, ⟨hoff, pre, post, he, _⟩, hsome⟩
  have hall := hquiet τ hτ
  rw [hop] at hall
  have hs := List.all_eq_true.mp hall s (by rw [he]; simp)
  rw [hoff] at hs
  exact hsome (by simpa using hs)

/-- An activity with a heartbeat timeout runs, and no event is queued. -/
def timedStep : List Action :=
  [.serve (.startWorkflow ⟨"x", [], "", "", none, ""⟩), .receive,
    .serve (.pollActivity ⟨"", ["x"]⟩)]

/-- Nothing waits for its heartbeat. -/
theorem timed_step_unwatched :
    ¬ ∀ (crates : Crates) (w : World), (attached crates).Reachable w → w.queue = [] →
      Watched w := by
  intro h
  have hreach : (attached plainCrates).Reachable
      ((attached plainCrates).ending .empty (story timedStep)) :=
    ⟨.empty, _, rfl, Machine.run_replay _ _ (by decide +kernel)⟩
  have hneeds : ∃ a ∈ ((attached plainCrates).ending .empty (story timedStep)).db.activities,
      a.state = .running ∧
        ∃ s ∈ ((attached plainCrates).ending .empty (story timedStep)).db.workflowSteps,
          s.id = a.stepId ∧ s.heartbeatTimeoutSecs = some 60 := by decide +kernel
  have hnone : ((attached plainCrates).ending .empty (story timedStep)).timers.length = 0 := by
    decide +kernel
  obtain ⟨a, ha, hrun, s, hs, hid, hsecs⟩ := hneeds
  obtain ⟨t, ht, _⟩ := h plainCrates _ hreach (by decide +kernel) a ha hrun s hs hid 60 hsecs
  rw [List.eq_nil_of_length_eq_zero hnone] at ht
  cases ht

end Khronos.Proofs
