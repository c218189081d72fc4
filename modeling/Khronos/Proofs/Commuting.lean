import Khronos.Proofs.Backoff
import Khronos.Proofs.Shown

namespace Khronos.Proofs
open Time Lib Db.Activities Db.Workflows Server

/-- What every operation keeps of the tables. -/
def Sound (w : World) : Prop := Readable w.db ∧ WellFormed w.db

theorem after_mapError (p : Prog World ε α) (f : ε → ε') (w : World) :
    (p.mapError f).after w = p.after w := by
  unfold Prog.after
  rw [Prog.run_mapError]

theorem perform_after (crates : Crates) (env : Env) (op : RunOp) (w : World) :
    (perform crates env op).after w = (exec crates env op.op).after w := by
  cases op with
  | reportActivityResult req => exact (after_mapError _ _ w).trans (Prog.after_bind_pure _ _ _).symm
  | reportActivityFailure req => exact (after_mapError _ _ w).trans (Prog.after_bind_pure _ _ _).symm
  | heartbeat req => exact (after_mapError _ _ w).trans (Prog.after_bind_pure _ _ _).symm
  | cancelWorkflow req => exact (after_mapError _ _ w).trans (Prog.after_bind_pure _ _ _).symm
  | heartbeatTimeout activityId =>
    refine ((Prog.after_bind_pure _ _ _).trans (after_mapError _ _ w)).trans ?_
    exact (after_handle env (.heartbeatTimeout activityId) w).symm
  | workflowCreated runId =>
    refine ((Prog.after_bind_pure _ _ _).trans (after_mapError _ _ w)).trans ?_
    exact (after_handle env (.workflowCreated runId) w).symm
  | stepCompleted workflowRunId =>
    refine ((Prog.after_bind_pure _ _ _).trans (after_mapError _ _ w)).trans ?_
    exact (after_handle env (.stepCompleted workflowRunId) w).symm

theorem perform_sound (h : Sound w) (crates : Crates) (env : Env) (op : RunOp) :
    Sound ((perform crates env op).after w) := by
  rw [perform_after]
  exact ⟨(exec_writes crates env op.op).after Write.readable h.1,
    (exec_writes crates env op.op).after Write.wellFormed h.2⟩

/-- Two performances for a run: the answers are the same, they show the same of the run
afterwards, and the first adds no row and leaves those of other runs as they are. -/
structure Twins (u : String) (w : World) (r r' : α × World) : Prop where
  answer : r.1 = r'.1
  shown : shows u r.2.db = shows u r'.2.db
  outline : outline r.2.db = outline w.db
  leaves : ∀ v, v ≠ u → rowsOf v r.2.db = rowsOf v w.db

theorem Twins.mapError {p p' : Prog World ε α} (h : Twins u w (p.run w) (p'.run w'))
    (f : ε → ε') : Twins u w ((p.mapError f).run w) ((p'.mapError f).run w') := by
  rw [Prog.run_mapError, Prog.run_mapError]
  exact ⟨congrArg (Outcome.mapError f) h.answer, h.shown, h.outline, h.leaves⟩

theorem Twins.told {p p' : Prog World ε α} (h : Twins u w (p.run w) (p'.run w')) (f : α → β) :
    Twins u w ((p >>= fun a => pure (f a)).run w) ((p' >>= fun a => pure (f a)).run w') := by
  rw [Prog.run_bind_pure, Prog.run_bind_pure]
  exact ⟨congrArg (Outcome.map f) h.answer, h.shown, h.outline, h.leaves⟩

section
variable {crates : Crates} {env env' : Env}

theorem run_reportActivityResult (h : Found req.activityId u w.db a s) (crates : Crates)
    (env : Env) (hjson : parsedResult crates req.resultJson = .ok json) :
    (reportActivityResult crates env req).run w = (.ok true, { w with
      db := reported env (.result json) a s w.db
      queue := enqueue w.queue (.stepCompleted s.workflowRunId.text) }) := by
  unfold reportActivityResult
  rw [hjson]
  dsimp only
  rw [Prog.run_bind, reportResult_known h.activity h.step]
  rfl

theorem run_reportActivityFailure (h : Found req.activityId u w.db a s)
    (hp : s.retryPolicyJson ∈ builtInPolicies) (env : Env) :
    (reportActivityFailure env req).run w = (.ok true, { w with
      db := reported env (.failure req.errorMessage) a s w.db }) := by
  unfold reportActivityFailure
  rw [Prog.run_bind, reportFailure_known h.activity h.step]
  split
  · rename_i hlt
    have hcounted : (Report.failure req.errorMessage).counted a.attempt <
        s.retryPolicyJson.maximumAttempts := hlt
    rw [if_pos (builtIn_due hp hcounted env)]
    rfl
  · rfl

end

section
variable {u : String} {w w' : World} {env env' : Env}

theorem twins_reportResult (h : Found req.activityId u w.db a s) (hw : Sound w) (hw' : Sound w')
    (hv : shows u w.db = shows u w'.db) (crates : Crates) :
    Twins u w ((reportActivityResult crates env req).run w)
      ((reportActivityResult crates env' req).run w') := by
  obtain ⟨a', s', h', ha, hs⟩ := h.elsewhere hw'.2 hv
  have hp := hw.1.builtIn s (stepOf_mem h.step).1
  cases hjson : parsedResult crates req.resultJson with
  | error status =>
    unfold reportActivityResult
    rw [hjson]
    exact ⟨rfl, hv, rfl, fun _ _ => rfl⟩
  | ok json =>
    rw [run_reportActivityResult h crates env hjson, run_reportActivityResult h' crates env' hjson]
    exact ⟨rfl, reported_alike ha hs hp hv env env' _, outline_reported _ _ _ _ _,
      fun v hne => reported_leaves h hw.2 hne env _⟩

theorem twins_reportFailure (h : Found req.activityId u w.db a s) (hw : Sound w) (hw' : Sound w')
    (hv : shows u w.db = shows u w'.db) :
    Twins u w ((reportActivityFailure env req).run w)
      ((reportActivityFailure env' req).run w') := by
  obtain ⟨a', s', h', ha, hs⟩ := h.elsewhere hw'.2 hv
  have hp := hw.1.builtIn s (stepOf_mem h.step).1
  have hp' := hw'.1.builtIn s' (stepOf_mem h'.step).1
  rw [run_reportActivityFailure h hp env, run_reportActivityFailure h' hp' env']
  exact ⟨rfl, reported_alike ha hs hp hv env env' _, outline_reported _ _ _ _ _,
    fun v hne => reported_leaves h hw.2 hne env _⟩

/-- A timer that finds the activity running reports it, and decides on the run if the step has
no attempt left. -/
theorem twins_timeout (h : Found activityId u w.db a s) (hw : Sound w) (hw' : Sound w')
    (hv : shows u w.db = shows u w'.db) :
    Twins u w ((Engine.handleHeartbeatTimeout env activityId).run w)
      ((Engine.handleHeartbeatTimeout env' activityId).run w') := by
  obtain ⟨a', s', h', ha, hs⟩ := h.elsewhere hw'.2 hv
  obtain ⟨-, -, hstate, hattempt⟩ := activity_alike ha
  obtain ⟨-, -, -, hpolicy⟩ := step_alike hs
  have hp := hw.1.builtIn s (stepOf_mem h.step).1
  have hp' := hw'.1.builtIn s' (stepOf_mem h'.step).1
  have hshown := reported_alike ha hs hp hv env env' .timeout
  by_cases hr : a.state = .running
  · rw [run_timeout h.activity h.step hr, run_timeout h'.activity h'.step (hstate ▸ hr)]
    by_cases hlt : a.attempt < s.retryPolicyJson.maximumAttempts
    · have hlt' : a'.attempt < s'.retryPolicyJson.maximumAttempts := by
        rw [← hattempt, ← hpolicy]
        exact hlt
      have hcounted : Report.timeout.counted a.attempt < s.retryPolicyJson.maximumAttempts := hlt
      have hcounted' : Report.timeout.counted a'.attempt < s'.retryPolicyJson.maximumAttempts :=
        hlt'
      rw [if_pos hlt, if_pos hlt', if_pos (builtIn_due hp hcounted env),
        if_pos (builtIn_due hp' hcounted' env')]
      exact ⟨rfl, hshown, outline_reported _ _ _ _ _,
        fun v hne => reported_leaves h hw.2 hne env _⟩
    · have hlt' : ¬ a'.attempt < s'.retryPolicyJson.maximumAttempts := by
        rw [← hattempt, ← hpolicy]
        exact hlt
      rw [if_neg hlt, if_neg hlt', h.run, h'.run]
      exact ⟨rfl, processed_alike hshown _ _,
        (outline_processed _ _ _).trans (outline_reported _ _ _ _ _),
        fun v hne => (processed_leaves hne _ _).trans (reported_leaves h hw.2 hne env _)⟩
  · rw [run_timeout_idle h.activity hr, run_timeout_idle h'.activity (hstate ▸ hr)]
    exact ⟨rfl, hv, rfl, fun _ _ => rfl⟩

theorem beats_alike {b b' : ActivityRow} (h : b.timeless = b'.timeless) :
    beats activityId b = beats activityId b' := by
  obtain ⟨hid, -, hstate, -⟩ := activity_alike h
  unfold beats activityKey
  rw [hid, hstate]

theorem beat_alike (now now' : Clock) {b b' : ActivityRow} (h : b.timeless = b'.timeless) :
    (beat now b).timeless = (beat now' b').timeless := by
  have hset : ∀ (now : Clock) (b : ActivityRow), (beat now b).timeless =
      { b.timeless with lastHeartbeatAt := some "" } := fun _ _ => rfl
  rw [hset, hset, h]

theorem twins_heartbeat (h : Found activityId u w.db a s) (hw : Sound w) (hw' : Sound w')
    (hv : shows u w.db = shows u w'.db) (now now' : Clock) :
    Twins u w ((heartbeatUpdate now activityId).run w)
      ((heartbeatUpdate now' activityId).run w') := by
  obtain ⟨a', s', h', -, -⟩ := h.elsewhere hw'.2 hv
  have hown : ∀ {w : World} {a : ActivityRow} {s : WorkflowStepRow}, Found activityId u w.db a s →
      Sound w → ∀ b ∈ w.db.activities, beats activityId b = true → attempted u w.db b = true := by
    intro w a s h hw b hb hbeat
    exact h.own hw.2 b hb (of_decide_eq_true (Bool.and_eq_true_iff.mp hbeat).1)
  have hcount : (w.db.activities.filter (beats activityId)).length =
      (w'.db.activities.filter (beats activityId)).length :=
    Table.count_alike (fun _ _ => beats_alike) (hown h hw) (hown h' hw') (shows_eq_iff.mp hv).2.2
  rw [run_heartbeatUpdate, run_heartbeatUpdate, hcount]
  refine ⟨rfl, ?_, outline_updateActivities _ (fun _ => ⟨rfl, rfl⟩), fun v hne => ?_⟩
  · exact shows_updateActivities hv (fun _ => ⟨rfl, rfl⟩) (fun _ => ⟨rfl, rfl⟩)
      (fun _ _ => beats_alike) (fun _ _ => beat_alike now now')
  · refine rowsOf_updateActivities (f := beat now) ?_ (fun _ => ⟨rfl, rfl⟩)
    intro b hb hbeat
    exact (h.apart hw.2 hne).2 b hb (of_decide_eq_true (Bool.and_eq_true_iff.mp hbeat).1)

theorem cancellable_alike {r r' : WorkflowRow} (h : r.timeless = r'.timeless) :
    cancellable runId r = cancellable runId r' := by
  obtain ⟨hid, hstate, -⟩ := run_alike h
  unfold cancellable runKey active
  rw [hid, hstate]

theorem cancelRun_alike (now now' : Clock) {r r' : WorkflowRow} (h : r.timeless = r'.timeless) :
    (cancelRun now r).timeless = (cancelRun now' r').timeless := by
  have hset : ∀ (now : Clock) (r : WorkflowRow), (cancelRun now r).timeless =
      { r.timeless with state := .cancelled, completedAt := some "" } := fun _ _ => rfl
  rw [hset, hset, h]

theorem twins_cancel (hv : shows u w.db = shows u w'.db) (now now' : Clock) :
    Twins u w ((Db.Workflows.cancelWorkflow now u).run w)
      ((Db.Workflows.cancelWorkflow now' u).run w') := by
  have hkey : ∀ r, cancellable u r = true → runKey r = u := fun r hr =>
    of_decide_eq_true (Bool.and_eq_true_iff.mp hr).1
  have hcount : (w.db.workflows.filter (cancellable u)).length =
      (w'.db.workflows.filter (cancellable u)).length :=
    Table.count_alike (fun _ _ => cancellable_alike)
      (fun r _ hr => decide_eq_true (hkey r hr)) (fun r _ hr => decide_eq_true (hkey r hr))
      (shows_eq_iff.mp hv).1
  rw [run_cancelWorkflow, run_cancelWorkflow, hcount]
  refine ⟨rfl, ?_, outline_updateRuns _ (fun _ => rfl), fun v hne => ?_⟩
  · exact shows_updateRuns hv (fun _ => rfl) (fun _ => rfl) (fun _ _ => cancellable_alike)
      (fun _ _ => cancelRun_alike now now')
  · exact rowsOf_updateRuns (fun r hr he => hne (he.symm.trans (hkey r hr))) (fun _ => rfl)

theorem twins_advance (hv : shows u w.db = shows u w'.db) :
    Twins u w ((Engine.advanceRun env u).run w) ((Engine.advanceRun env' u).run w') := by
  rw [run_advanceRun, run_advanceRun]
  exact ⟨rfl, processed_alike hv _ _, outline_processed _ _ _,
    fun v hne => processed_leaves hne _ _⟩

/-- An operation on a run does the same in two states that show the same of it, whatever its
clocks read. -/
theorem perform_twins (hw : Sound w) (hw' : Sound w') (crates : Crates)
    (hop : addressee w.db op = some u) (hv : shows u w.db = shows u w'.db) (env env' : Env) :
    Twins u w ((perform crates env op).run w) ((perform crates env' op).run w') := by
  cases op with
  | reportActivityResult req =>
    obtain ⟨a, s, h⟩ := runOfActivity_iff.mp hop
    exact (twins_reportResult h hw hw' hv crates).mapError _
  | reportActivityFailure req =>
    obtain ⟨a, s, h⟩ := runOfActivity_iff.mp hop
    exact (twins_reportFailure h hw hw' hv).mapError _
  | heartbeat req =>
    obtain ⟨a, s, h⟩ := runOfActivity_iff.mp hop
    exact (((twins_heartbeat h hw hw' hv _ _).mapError _).told _).mapError _
  | heartbeatTimeout activityId =>
    obtain ⟨a, s, h⟩ := runOfActivity_iff.mp hop
    exact ((twins_timeout h hw hw' hv).mapError _).told _
  | cancelWorkflow req =>
    obtain rfl := Option.some.inj hop
    exact (((twins_cancel hv _ _).mapError _).told _).mapError _
  | workflowCreated runId =>
    obtain rfl := Option.some.inj hop
    exact ((twins_advance hv).mapError _).told _
  | stepCompleted workflowRunId =>
    obtain rfl := Option.some.inj hop
    exact ((twins_advance hv).mapError _).told _

/-- Which run an operation is about is seen in what the run shows. -/
theorem addressee_kept (hw' : Sound w') (hop : addressee w.db op = some u)
    (hv : shows u w.db = shows u w'.db) : addressee w'.db op = some u := by
  have hfound : ∀ {activityId : String}, runOfActivity activityId w.db = some u →
      runOfActivity activityId w'.db = some u := by
    intro activityId hrun
    obtain ⟨a, s, h⟩ := runOfActivity_iff.mp hrun
    obtain ⟨a', s', h', -, -⟩ := h.elsewhere hw'.2 hv
    exact runOfActivity_iff.mpr ⟨a', s', h'⟩
  cases op with
  | reportActivityResult req => exact hfound hop
  | reportActivityFailure req => exact hfound hop
  | heartbeat req => exact hfound hop
  | heartbeatTimeout activityId => exact hfound hop
  | cancelWorkflow req => exact hop
  | workflowCreated runId => exact hop
  | stepCompleted workflowRunId => exact hop

end

theorem perform_outline (hw : Sound w) (crates : Crates) (env : Env)
    (hop : addressee w.db op = some u) :
    outline ((perform crates env op).after w).db = outline w.db :=
  (perform_twins hw hw crates hop rfl env env).outline

theorem perform_leaves (hw : Sound w) (crates : Crates) (env : Env)
    (hop : addressee w.db op = some u) (hv : v ≠ u) :
    rowsOf v ((perform crates env op).after w).db = rowsOf v w.db :=
  (perform_twins hw hw crates hop rfl env env).leaves v hv

theorem perform_local (crates : Crates) (env env' : Env) (op : RunOp) (u : String) :
    Local (fun v w => shows v w.db) Sound (fun w => addressee w.db op = some u) u
      (perform crates env op).run (perform crates env' op).run where
  meant := fun _ _ _ ht hv hop => addressee_kept ht hop hv
  safe := fun _ hs _ => ⟨perform_sound hs crates env op, perform_sound hs crates env' op⟩
  leaves := by
    intro w hw hop v hne
    exact ⟨congrArg Db.timeless (perform_leaves hw crates env hop hne),
      congrArg Db.timeless (perform_leaves hw crates env' hop hne)⟩
  alike := by
    intro w w' hw hw' hop hv
    have h := perform_twins hw hw' crates hop hv env env'
    exact ⟨h.answer, h.shown⟩

/-- Two operations on two runs, in either order and whatever the clocks read in it: the tables are
the same in the end but for the times, each operation answers the same in either place, and in
either place it leaves every row of the other's run as it is. -/
structure EitherOrder (crates : Crates) (w : World) (u v : String) (p q : RunOp)
    (e e' d d' : Env) : Prop where
  tables : ((perform crates d q).after ((perform crates e p).after w)).db.timeless =
    ((perform crates e' p).after ((perform crates d' q).after w)).db.timeless
  answer : ((perform crates e p).run w).1 =
    ((perform crates e' p).run ((perform crates d' q).after w)).1
  answer' : ((perform crates d q).run ((perform crates e p).after w)).1 =
    ((perform crates d' q).run w).1
  leaves : rowsOf v ((perform crates e p).after w).db = rowsOf v w.db
  leaves' : rowsOf u ((perform crates d' q).after w).db = rowsOf u w.db
  second : rowsOf v ((perform crates e' p).after ((perform crates d' q).after w)).db =
    rowsOf v ((perform crates d' q).after w).db
  second' : rowsOf u ((perform crates d q).after ((perform crates e p).after w)).db =
    rowsOf u ((perform crates e p).after w).db

theorem different_runs_commute (hw : (server crates).Reachable w) {p q : RunOp} {u v : String}
    (hp : addressee w.db p = some u) (hq : addressee w.db q = some v) (huv : u ≠ v)
    (e e' d d' : Env) : EitherOrder crates w u v p q e e' d d' := by
  have hs : Sound w := reachable_readable hw
  have hsp := perform_sound hs crates e p
  have hsq := perform_sound hs crates d' q
  have hlp := perform_local crates e e' p u
  have hlq := perform_local crates d d' q v
  obtain ⟨hanswer, hanswer', hview⟩ := hlp.commute hlq huv hs hp hq
  have hleaves := perform_leaves hs crates e hp huv.symm
  have hleaves' := perform_leaves hs crates d' hq huv
  have hp' : addressee ((perform crates d' q).after w).db p = some u :=
    addressee_kept hsq hp (congrArg Db.timeless hleaves'.symm)
  have hq' : addressee ((perform crates e p).after w).db q = some v :=
    addressee_kept hsp hq (congrArg Db.timeless hleaves.symm)
  have houtline : outline ((perform crates d q).after ((perform crates e p).after w)).db =
      outline ((perform crates e' p).after ((perform crates d' q).after w)).db :=
    calc outline ((perform crates d q).after ((perform crates e p).after w)).db
      _ = outline ((perform crates e p).after w).db := perform_outline hsp crates d hq'
      _ = outline w.db := perform_outline hs crates e hp
      _ = outline ((perform crates d' q).after w).db := (perform_outline hs crates d' hq).symm
      _ = outline ((perform crates e' p).after ((perform crates d' q).after w)).db :=
        (perform_outline hsq crates e' hp').symm
  exact {
    tables := timeless_ext houtline (perform_sound hsp crates d q).2 hview
    answer := hanswer
    answer' := hanswer'
    leaves := hleaves
    leaves' := hleaves'
    second := perform_leaves hsq crates e' hp' huv.symm
    second' := perform_leaves hsp crates d hq' huv }

/-- Two runs, the first of which has its activity out with a worker. -/
def pairOfRuns : World :=
  worldAfter [.startWorkflow ⟨"x", [], "", "", none, ""⟩,
    .startWorkflow ⟨"y", [], "", "", none, ""⟩, .pollActivity ⟨"", ["x"]⟩]

theorem report_and_cancel_commute :
    EitherOrder plainCrates pairOfRuns "id-0" "id-10" (.reportActivityResult ⟨"id-20", ""⟩)
      (.cancelWorkflow ⟨"id-10", ""⟩) (turn 3) (turn 6) (turn 4) (turn 5) ∧
    ((perform plainCrates (turn 3) (.reportActivityResult ⟨"id-20", ""⟩)).run pairOfRuns).1 =
      .ok true ∧
    ((perform plainCrates (turn 5) (.cancelWorkflow ⟨"id-10", ""⟩)).run pairOfRuns).1 = .ok true := by
  have hreach : (server plainCrates).Reachable pairOfRuns :=
    ⟨_, _, rfl, script_run _ (by decide +kernel)⟩
  refine ⟨different_runs_commute hreach (by decide +kernel) (by decide +kernel) (by decide) _ _ _ _,
    ?_, ?_⟩
  · rfl
  · rfl

end Khronos.Proofs
