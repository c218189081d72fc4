import Khronos.Proofs.Decoding
import Khronos.Server.Threads

namespace Khronos.Proofs
open Time Lib Db.Activities Db.Workflows Server Engine

/-- What stays true of an activity and its step while others write on them. -/
structure Concerns (a : ActivityRow) (s : WorkflowStepRow) (w : World) : Prop where
  activity : ∃ q, activityOf w.db a.id.text = some q ∧ q.stepId = a.stepId ∧ q.attempt = a.attempt
  step : ∃ q, stepOf w.db a.stepId = some q ∧ Fixed q s

/-- What a reader sees of a step. -/
def shown (stepId : Uuid) (w : World) : Option (StepState × Option Json) :=
  (stepOf w.db stepId).map (fun s => (s.state, s.resultJson))

theorem acts_updateActivityState (state : ActivityState) (state' : AttemptState)
    (hs : attemptState state = some state') (now : Clock) (activityId : String)
    (result : Option Json) (message : Option String) (w : World) :
    (updateActivityState now activityId state result message).Acts w () { w with
      db := onActivity activityId (setActivity state' now result message) w.db } :=
  acts_execute (by rw [hs]; rfl)

theorem acts_updateStepState (state : WorkflowState) (state' : StepState)
    (hs : stepState state = some state') (stepId : String) (n : Option UInt32)
    (result : Option Json) (next : Option DateTime) (w : World) :
    (updateStepState stepId state n result next).Acts w () { w with
      db := onStep stepId (setStep state' n result (next.map DateTime.format)) w.db } :=
  acts_execute (by rw [hs]; rfl)

section
variable {a : ActivityRow} {s : WorkflowStepRow} {w : World}

theorem Concerns.stepId (h : Concerns a s w) : activityStepId a.id.text w.db = .ok a.stepId := by
  obtain ⟨q, hq, hstep, _⟩ := h.activity
  rw [activityStepId, queryRow_filter,
    show w.db.activities.find? (fun r => activityKey r = a.id.text) = some q from hq]
  exact congrArg Except.ok hstep

theorem Concerns.attempt (h : Concerns a s w) :
    currentAttempt a.id.text w.db = .ok a.attempt := by
  obtain ⟨q, hq, _, hattempt⟩ := h.activity
  rw [currentAttempt, queryRow_filter,
    show w.db.activities.find? (fun r => activityKey r = a.id.text) = some q from hq]
  exact congrArg Except.ok hattempt

theorem Concerns.policy (h : Concerns a s w) :
    stepRetryPolicy a.stepId.text w.db = .ok s.retryPolicyJson := by
  obtain ⟨q, hq, hf⟩ := h.step
  rw [stepRetryPolicy, queryRow_filter,
    show w.db.workflowSteps.find? (fun r => stepKey r = a.stepId.text) = some q
      from find_key.trans hq]
  exact congrArg Except.ok hf.policy

theorem Concerns.run (h : Concerns a s w) : stepRunId a.stepId.text w.db = .ok s.workflowRunId := by
  obtain ⟨q, hq, hf⟩ := h.step
  rw [stepRunId_known hq, hf.run]

theorem Concerns.onActivity (h : Concerns a s w) (state : AttemptState) (now : Clock)
    (result : Option Json) (message : Option String) :
    Concerns a s { w with
      db := Proofs.onActivity a.id.text (setActivity state now result message) w.db } where
  activity := by
    obtain ⟨q, hq, hstep, hattempt⟩ := h.activity
    exact ⟨_, activityOf_onActivity hq (fun _ => rfl), hstep, hattempt⟩
  step := h.step

theorem Concerns.onStep (h : Concerns a s w) (state : StepState) (n : Option UInt32)
    (result : Option Json) (next : Option String) :
    Concerns a s { w with
      db := Proofs.onStep a.stepId.text (setStep state n result next) w.db } where
  activity := h.activity
  step := by
    obtain ⟨q, hq, hf⟩ := h.step
    exact ⟨_, stepOf_onStep hq (fun _ => rfl), hf.id, hf.run, hf.index, hf.name, hf.policy,
      hf.created⟩

theorem Concerns.shown_onStep (h : Concerns a s w) (state : StepState) (n : Option UInt32)
    (result : Option Json) (next : Option String) :
    shown a.stepId { w with
      db := Proofs.onStep a.stepId.text (setStep state n result next) w.db } =
        some (state, result) := by
  obtain ⟨q, hq, _⟩ := h.step
  exact congrArg (Option.map fun s => (s.state, s.resultJson))
    (stepOf_onStep hq (f := setStep state n result next) (fun _ => rfl))

end

/-- No activity and no step is written. -/
def Aside (w w' : World) : Prop :=
  w'.db.activities = w.db.activities ∧ w'.db.workflowSteps = w.db.workflowSteps

theorem Aside.refl (w : World) : Aside w w := ⟨rfl, rfl⟩

theorem Aside.shown (h : Aside w w') (stepId : Uuid) : shown stepId w' = shown stepId w := by
  unfold Proofs.shown stepOf
  rw [h.2]

theorem Aside.concerns (h : Aside w w') (hc : Concerns a s w) : Concerns a s w' where
  activity := by
    unfold activityOf
    rw [h.1]
    exact hc.activity
  step := by
    unfold stepOf
    rw [h.2]
    exact hc.step

/-- What only writes runs does not interfere. -/
theorem aside_under {I : World → Prop} {p : Prog World ε α} (h : p.Within Aside)
    (hI : ∀ {w w'}, Aside w w' → I w → I w') (stepId : Uuid) :
    p.Under I (fun w w' => shown stepId w' = shown stepId w) :=
  (h.under hI).mono (fun hs => hs.shown stepId)

theorem aside_query (f : Db → Except DbError α) : (query f).Within Aside :=
  Prog.Within.query Aside.refl _ _

theorem aside_processSingleWorkflow (env : Env) (runId : String) :
    (processSingleWorkflow env runId).Within Aside := by
  have hexecute : ∀ f : Db → List WorkflowRow,
      (execute fun db => .ok ((), { db with workflows := f db })).Within Aside := by
    intro f
    refine Prog.Within.execute Aside.refl _ ?_
    intro w a w' h
    cases h
    exact ⟨rfl, rfl⟩
  refine (hexecute _).bind fun _ => (aside_query _).bind fun next => ?_
  split
  · exact (aside_query _).bind fun _ => (aside_query _).bind fun _ => trivial
  · refine (aside_query _).bind fun totals => ?_
    split
    · exact hexecute _
    · trivial

/-- What is left of a report once it has written on its activity. -/
def recordResult (activityId : String) (resultJson : Json) (findRun : String) :
    Prog World Status Unit := do
  let stepId ← (query (activityStepId activityId)).mapError
    (Status.internal "Failed to find activity")
  (updateStepState stepId.text .completed none (some resultJson) none).mapError
    (Status.internal "Failed to update step")
  let workflowRunId ← (query (stepRunId stepId.text)).mapError (Status.internal findRun)
  send (.stepCompleted workflowRunId.text)

theorem reportResult_marks (env : Env) (activityId : String) (json : Json) (text : String)
    (w : World) :
    (reportResult env activityId json text).advance w = (recordResult activityId json text, { w with
      db := onActivity activityId (setActivity .completed (env.now 0) (some json) none) w.db }) :=
  ((acts_updateActivityState .completed .completed rfl _ _ _ _ w).mapError _).bind _

/-- Then its second action, and no other, writes the result on the step. -/
theorem recordResult_sets {I : World → Prop} (a : ActivityRow) (s : WorkflowStepRow)
    (hI : ∀ {w}, I w → Concerns a s w)
    (hset : ∀ {w} (json : Json), I w → I { w with
      db := onStep a.stepId.text (setStep .completed none (some json) none) w.db })
    (haside : ∀ {w w'}, Aside w w' → I w → I w') (json : Json) (text : String) :
    (recordResult a.id.text json text).Sets I (shown a.stepId) (some (.completed, some json)) 1 := by
  unfold recordResult
  apply Prog.Sets.before rfl
  intro w hw
  refine ⟨_, w, ((acts_query (hI hw).stepId).mapError _).bind _, hw, rfl, ?_⟩
  apply Prog.Sets.now rfl
  intro w hw
  refine ⟨_, _, ((acts_updateStepState .completed .completed rfl _ _ _ _ w).mapError _).bind _,
    hset json hw, (hI hw).shown_onStep _ _ _ _, ?_⟩
  refine aside_under ?_ haside _
  exact ((aside_query _).mapError _).bind fun _ => fun w => ⟨Aside.refl w, trivial⟩

theorem reportResult_sets (a : ActivityRow) (s : WorkflowStepRow) (env : Env) (json : Json)
    (text : String) :
    (reportResult env a.id.text json text).Sets (Concerns a s) (shown a.stepId)
      (some (.completed, some json)) 2 := by
  apply Prog.Sets.before rfl
  intro w hc
  exact ⟨_, _, reportResult_marks _ _ _ _ w, hc.onActivity _ _ _ _, rfl,
    recordResult_sets a s id (fun _ hc => hc.onStep _ _ _ _) Aside.concerns json text⟩

/-- A report on an activity and a step that there are succeeds. -/
theorem reportResult_ends (a : ActivityRow) (s : WorkflowStepRow) (env : Env) (json : Json)
    (text : String) :
    (reportResult env a.id.text json text).Ends (Concerns a s) (fun r => ∃ u, r = .ok u) := by
  apply Prog.Ends.of_advance rfl
  intro w hc
  refine ⟨_, _, reportResult_marks _ _ _ _ w, ?_⟩
  apply Prog.Ends.of_advance rfl
  intro w hc
  refine ⟨_, _, ((acts_query hc.stepId).mapError _).bind _, ?_⟩
  apply Prog.Ends.of_advance rfl
  intro w hc
  refine ⟨_, _, ((acts_updateStepState .completed .completed rfl _ _ _ _ w).mapError _).bind _, ?_⟩
  apply Prog.Ends.of_advance rfl
  intro w hc
  refine ⟨_, _, ((acts_query hc.run).mapError _).bind _, ?_⟩
  intro w hc
  exact ⟨(), rfl⟩

/-- A write of the step, and what follows it. -/
theorem updateStepState_sets (a : ActivityRow) (s : WorkflowStepRow) (state : WorkflowState)
    {state' : StepState} (hs : stepState state = some state') (n : Option UInt32)
    (next : Option DateTime) {tail : Unit → Prog World DbError Unit}
    (htail : ∀ u, (tail u).Within Aside) :
    (updateStepState a.stepId.text state n none next >>= tail).Sets (Concerns a s)
      (shown a.stepId) (some (state', none)) 0 := by
  apply Prog.Sets.now rfl
  intro w hc
  exact ⟨_, _, (acts_updateStepState state state' hs _ _ _ _ w).bind _, hc.onStep _ _ _ _,
    hc.shown_onStep _ _ _ _, aside_under (htail ()) Aside.concerns _⟩

/-- How a timeout ends: a retry, or a failure for good. -/
def giveUp (env : Env) (stepId : Uuid) (retryPolicy : RetryPolicy) (attempt : UInt32) :
    Prog World DbError Unit :=
  if attempt < retryPolicy.maximumAttempts then
    match retryTime (env.now 0) retryPolicy (predecessor attempt) with
    | none => Prog.panic
    | some nextRetryAt => do
      updateStepState stepId.text .pending (some attempt) none (some nextRetryAt)
      arm (env.now 2) nextRetryAt (.retryDue stepId.text)
  else do
    updateStepState stepId.text .failed (some attempt) none none
    let workflowRunId ← query (stepRunId stepId.text)
    processSingleWorkflow (env.part 3) workflowRunId.text

/-- What is left of a timeout once it has found its activity running. -/
def timedOut (env : Env) (activityId : String) (stepId : Uuid) : Prog World DbError Unit := do
  let policy ← (query (stepRetryPolicy stepId.text)).attempt
  let attempt ← (query (currentAttempt activityId)).attempt
  updateActivityState (env.now 1) activityId .failed none (some "Heartbeat timeout")
  giveUp env stepId (unwrapOr RetryPolicy.default (policy : Except DbError RetryPolicy))
    (unwrapOr 0 (attempt : Except DbError UInt32))

theorem timeout_checks {stepId : Uuid}
    (h : activityStatus activityId w.db = .ok (.running, stepId)) (env : Env) :
    (handleHeartbeatTimeout env activityId).advance w = (timedOut env activityId stepId, w) :=
  (acts_query h).bind _

theorem handle_checks {stepId : Uuid}
    (h : activityStatus activityId w.db = .ok (.running, stepId)) (env : Env) :
    (Engine.handle env (.heartbeatTimeout activityId) : Prog World ε Unit).advance w =
      ((timedOut env activityId stepId).attempt >>= fun _ : Except DbError Unit => return (), w) := by
  have hcheck := timeout_checks h env
  refine (Prog.advance_bind rfl _ _).trans ?_
  rw [Prog.advance_attempt, show (handler env (.heartbeatTimeout activityId)).advance w = _
    from hcheck]

theorem timeout_passes {state : AttemptState} {stepId : Uuid}
    (h : activityStatus activityId w.db = .ok (state, stepId)) (hn : state ≠ .running) (env : Env) :
    (handleHeartbeatTimeout env activityId).advance w = (return (), w) := by
  refine ((acts_query h).bind _).trans ?_
  exact congrArg (·, w) (if_neg hn)

theorem giveUp_sets (a : ActivityRow) (s : WorkflowStepRow)
    (hp : s.retryPolicyJson ∈ builtInPolicies) (env : Env) :
    ∃ state, state ≠ .completed ∧
      (giveUp env a.stepId s.retryPolicyJson a.attempt).Sets (Concerns a s) (shown a.stepId)
        (some (state, none)) 0 := by
  unfold giveUp
  by_cases hlt : a.attempt < s.retryPolicyJson.maximumAttempts
  · have hcounted : Report.timeout.counted a.attempt < s.retryPolicyJson.maximumAttempts := hlt
    obtain ⟨due, hdue⟩ := Option.isSome_iff_exists.mp (builtIn_due hp hcounted env)
    have hretry : retryTime (env.now 0) s.retryPolicyJson (predecessor a.attempt) = some due := hdue
    rw [if_pos hlt, hretry]
    exact ⟨.pending, by decide, updateStepState_sets a s .pending rfl _ _
      (fun _ w => ⟨Aside.refl w, trivial⟩)⟩
  · rw [if_neg hlt]
    exact ⟨.failed, by decide, updateStepState_sets a s .failed rfl _ _
      (fun _ => (aside_query _).bind fun _ => aside_processSingleWorkflow _ _)⟩

/-- Once it has found its activity running, a timeout writes the step with its fourth action. -/
theorem timedOut_sets (a : ActivityRow) (s : WorkflowStepRow)
    (hp : s.retryPolicyJson ∈ builtInPolicies) (env : Env) :
    ∃ state, state ≠ .completed ∧
      (timedOut env a.id.text a.stepId).Sets (Concerns a s) (shown a.stepId)
        (some (state, none)) 3 := by
  obtain ⟨state, hstate, hsets⟩ := giveUp_sets a s hp env
  refine ⟨state, hstate, ?_⟩
  unfold timedOut
  apply Prog.Sets.before rfl
  intro w hc
  refine ⟨_, w, (acts_query hc.policy).attempt.bind _, hc, rfl, ?_⟩
  apply Prog.Sets.before rfl
  intro w hc
  refine ⟨_, w, (acts_query hc.attempt).attempt.bind _, hc, rfl, ?_⟩
  apply Prog.Sets.before rfl
  intro w hc
  exact ⟨_, _, (acts_updateActivityState .failed .failed rfl _ _ _ _ w).bind _,
    hc.onActivity _ _ _ _, rfl, hsets⟩

/-- An activity that does not run any more. -/
structure Stopped (a : ActivityRow) (s : WorkflowStepRow) (w : World) : Prop where
  concerns : Concerns a s w
  stopped : ∃ q, activityOf w.db a.id.text = some q ∧ q.state ≠ .running

theorem status_of_activity (h : activityOf db activityId = some q) :
    activityStatus activityId db = .ok (q.state, q.stepId) := by
  rw [activityStatus, queryRow_filter,
    show db.activities.find? (fun r => activityKey r = activityId) = some q from h]

/-- The timer of an activity that has stopped writes nothing. -/
theorem handle_stopped (a : ActivityRow) (s : WorkflowStepRow) (env : Env) :
    (Engine.handle env (.heartbeatTimeout a.id.text) : Prog World ε Unit).Under (Stopped a s)
      (fun w w' => shown a.stepId w' = shown a.stepId w) := by
  refine Prog.Under.bind (Prog.Under.attempt ?_) (fun _ => trivial)
  apply Prog.Under.of_advance
  intro w hw
  obtain ⟨q, hq, hn⟩ := hw.stopped
  exact ⟨_, w, timeout_passes (status_of_activity hq) hn env, hw, rfl, trivial⟩

/-- A report whose text is read is one on its activity, and the answer to it. -/
theorem reporting (h : parsedResult crates req.resultJson = .ok json) (env : Env) :
    (do let _ ← reportActivityResult crates env req; return () : Prog World Status Unit) =
      reportResult env req.activityId json "Failed to find step" >>= fun _ => return () := by
  unfold reportActivityResult
  rw [h]
  exact Prog.bind_assoc _ _ _

theorem shown_completed {stepId : Uuid} :
    shown stepId w = some (.completed, some json) ↔
      ∃ s ∈ stepOf w.db stepId, s.state = .completed ∧ s.resultJson = some json := by
  unfold shown
  rw [Option.map_eq_some_iff]
  exact exists_congr fun s => and_congr_right fun _ => Prod.mk.injEq .. ▸ Iff.rfl

section
variable {crates : Crates} {req : ReportActivityResultRequest} {w : World} {a : ActivityRow}
  {s : WorkflowStepRow} {json : Json} {c : Pool Thread World Status}
  {ts : List (Transition (Pool Thread World Status) Thread Unit)}

/-- The tables once a report has written on its activity. -/
def marked (a : ActivityRow) (env : Env) (json : Json) (w : World) : World :=
  { w with db := onActivity a.id.text (setActivity .completed (env.now 0) (some json) none) w.db }

/-- The report has been first: the timer finds that its activity has stopped. -/
theorem reported_first (hc : Concerns a s w) (env : Env) {k : Unit → Prog World Status Unit}
    (hk : ∀ u, k u = return ()) (timing : Env)
    (hr : weave.Run (connections (marked a env json w)
      (recordResult a.id.text json "Failed to find step" >>= k)
      (Engine.handle timing (.heartbeatTimeout a.id.text)) (return ())) ts c)
    (hdone : (c.thread .rpc).outcome? ≠ none) :
    shown a.stepId c.store = some (.completed, some json) := by
  have hstopped : Stopped a s (marked a env json w) := by
    obtain ⟨q, hq, _⟩ := hc.activity
    exact ⟨hc.onActivity _ _ _ _, _, activityOf_onActivity hq (fun _ => rfl), nofun⟩
  have hsets := recordResult_sets (I := Stopped a s) a s (fun h => h.concerns)
    (fun _ h => ⟨h.concerns.onStep _ _ _ _, h.stopped⟩)
    (fun hs h => ⟨hs.concerns h.concerns, by
      unfold activityOf
      rw [hs.1]
      exact h.stopped⟩) json "Failed to find step"
  refine (weave_sets (t := .rpc) hr (hsets.bind (fun u => ?_)) ?_ hstopped hdone).1
  · rw [hk u]
    trivial
  · intro x hx
    cases x with
    | rpc => exact absurd rfl hx
    | engine => exact handle_stopped a s timing
    | scheduler => trivial

/-- The timer has checked its activity before: whoever writes the step last decides. -/
theorem timed_first (hc : Concerns a s w) (hp : s.retryPolicyJson ∈ builtInPolicies)
    (env timing : Env)
    (hr : weave.Run (connections w
      (reportResult env a.id.text json "Failed to find step" >>= fun _ => return ())
      ((timedOut timing a.id.text a.stepId).attempt >>=
        fun _ : Except DbError Unit => return ()) (return ())) ts c)
    (hdone : ∀ t, (c.thread t).outcome? ≠ none) :
    (c.thread .rpc).outcome? = some (.ok ()) ∧
      ((shown a.stepId c.store = some (.completed, some json) ∧
          After (ts.map (·.input)) .rpc 2 .engine 3) ∨
        ((∃ state, state ≠ .completed ∧ shown a.stepId c.store = some (state, none)) ∧
          After (ts.map (·.input)) .engine 3 .rpc 2)) := by
  obtain ⟨state, hstate, htimed⟩ := timedOut_sets a s hp timing
  have hreport := (reportResult_sets a s env json "Failed to find step").bind
    (f := fun _ => (return () : Prog World Status Unit)) (fun _ => trivial)
  have hengine := (htimed.attempt (δ := Status)).bind
    (f := fun _ => (return () : Prog World Status Unit)) (fun _ => trivial)
  have hends := (reportResult_ends a s env json "Failed to find step").bind
    (Q := fun r => r = .ok ()) (f := fun _ => (return () : Prog World Status Unit)) (fun _ => rfl)
  constructor
  · have hrpc : (c.thread .rpc).Ends (Concerns a s) (fun r => r = .ok ()) := by
      refine weave_ends (R := fun _ _ => True) hr (fun x => ?_) hc hends
      cases x with
      | rpc => exact hreport.under
      | engine => exact hengine.under
      | scheduler => trivial
    obtain ⟨r, hr⟩ := Option.ne_none_iff_exists'.mp (hdone .rpc)
    rw [hr, hrpc.outcome hr]
  · have hlast := weave_last hr (t := .rpc) (u := .engine) (by decide) hreport hengine
      (fun x hx hx' => by
        cases x with
        | rpc => exact absurd rfl hx
        | engine => exact absurd rfl hx'
        | scheduler => trivial) hc (hdone .rpc) (hdone .engine)
    exact hlast.imp_right (fun h => ⟨⟨state, hstate, h.1⟩, h.2⟩)

/-- Once both have finished, a result whose report has succeeded is on its step, if and only if
the report came before the check of the timer, or wrote the step after the timer did. -/
theorem result_survives_iff (hw : (server crates).Reachable w)
    (ha : activityOf w.db req.activityId = some a) (hrunning : a.state = .running)
    (hjson : parsedResult crates req.resultJson = .ok json) (env timing : Env)
    (hr : weave.Run (reportRace crates env timing req w) ts c)
    (hdone : ∀ t, (c.thread t).outcome? ≠ none) :
    ((c.thread .rpc).outcome? = some (.ok ()) →
        ∃ s ∈ stepOf c.store.db a.stepId, s.state = .completed ∧ s.resultJson = some json) ↔
      (ts.map (·.input)).head? = some .rpc ∨ After (ts.map (·.input)) .rpc 2 .engine 4 := by
  obtain ⟨hd, hwf⟩ := reachable_readable hw
  obtain ⟨hmem, hid⟩ := activityOf_mem ha
  obtain ⟨s, hs⟩ := hwf.stepOf hmem
  have hp := hd.builtIn s (stepOf_mem hs).1
  have hc : Concerns a s w := ⟨⟨a, hid.symm ▸ ha, rfl, rfl⟩, ⟨s, hs, Fixed.refl s⟩⟩
  rw [← shown_completed]
  unfold reportRace at hr
  rw [reporting hjson, ← hid] at hr
  cases ts with
  | nil =>
    rw [hr.nothing] at hdone
    exact absurd rfl (hdone .rpc)
  | cons x ts =>
    obtain ⟨i, hi, rfl, hnext⟩ := hr.first
    cases i with
    | scheduler => cases hi
    | rpc =>
      have hstep : (weave.step (connections w
          (reportResult env a.id.text json "Failed to find step" >>= fun _ => return ())
          (Engine.handle timing (.heartbeatTimeout a.id.text)) (return ())) .rpc).2 =
          connections (marked a env json w)
            (recordResult a.id.text json "Failed to find step" >>= fun _ => return ())
            (Engine.handle timing (.heartbeatTimeout a.id.text)) (return ()) := by
        refine (connections_rpc _ _ _ _).trans ?_
        rw [Prog.advance_bind rfl, reportResult_marks]
        rfl
      rw [hstep] at hnext
      exact iff_of_true (fun _ => reported_first hc env (fun _ => rfl) timing hnext (hdone .rpc))
        (.inl rfl)
    | engine =>
      have hstep : (weave.step (connections w
          (reportResult env a.id.text json "Failed to find step" >>= fun _ => return ())
          (Engine.handle timing (.heartbeatTimeout a.id.text)) (return ())) .engine).2 =
          connections w
            (reportResult env a.id.text json "Failed to find step" >>= fun _ => return ())
            ((timedOut timing a.id.text a.stepId).attempt >>=
              fun _ : Except DbError Unit => return ()) (return ()) := by
        refine (connections_engine _ _ _ _).trans ?_
        rw [handle_checks (hrunning ▸ status_of_activity (hid.symm ▸ ha))]
      rw [hstep] at hnext
      obtain ⟨hok, hlast⟩ := timed_first hc hp env timing hnext hdone
      change _ ↔ some Thread.engine = some .rpc ∨ After (.engine :: ts.map (·.input)) .rpc 2 .engine 4
      rcases hlast with ⟨hshown, hafter⟩ | ⟨⟨state, hstate, hshown⟩, hafter⟩
      · exact iff_of_true (fun _ => hshown) (.inr (hafter.cons .engine))
      · refine iff_of_false (fun h => ?_) ?_
        · rw [hshown] at h
          cases h hok
        · rintro (he | he)
          · cases he
          · exact (hafter.cons .engine).asymm he

end

/-- A run is started, and its step handed out. -/
def handedOver : World := (server plainCrates).ending .empty
  (script [.startWorkflow ⟨"x", [], "", "", none, ""⟩, .pollActivity ⟨"", ["x"]⟩])

theorem handedOver_reachable : (server plainCrates).Reachable handedOver := by
  have hadmitted : (server plainCrates).Admitted .empty
      (script [.startWorkflow ⟨"x", [], "", "", none, ""⟩, .pollActivity ⟨"", ["x"]⟩]) := by
    decide +kernel
  exact ⟨.empty, _, rfl, Machine.run_replay _ _ hadmitted⟩

theorem handedOver_activity : (activityOf handedOver.db "id-10").isSome = true := by decide +kernel

/-- The activity of the step that was handed out. -/
def handedActivity : ActivityRow := (activityOf handedOver.db "id-10").get handedOver_activity

/-- Its result comes in while its timer goes off. -/
def handedRace : Pool Thread World Status :=
  reportRace plainCrates (turn 2) (turn 3) ⟨"id-10", ""⟩ handedOver

/-- The whole timeout comes between the check of the timer and the report. -/
def timedBefore : List Thread := List.replicate 6 .engine ++ List.replicate 5 .rpc

/-- The whole report does. -/
def reportedBetween : List Thread :=
  .engine :: List.replicate 5 .rpc ++ List.replicate 5 .engine

theorem result_survives_timeout :
    let c := weave.ending handedRace timedBefore
    (c.thread .rpc).outcome? = some (.ok ()) →
      ∃ s ∈ stepOf c.store.db handedActivity.stepId,
        s.state = .completed ∧ s.resultJson = some .empty := by
  have hadmitted : weave.Admitted handedRace timedBefore := by decide +kernel
  have hrun := Machine.run_replay _ _ hadmitted
  have hjson : parsedResult plainCrates "" = .ok .empty := rfl
  have hiff := result_survives_iff handedOver_reachable (a := handedActivity)
    (Option.some_get handedOver_activity).symm (by decide +kernel) hjson (turn 2) (turn 3) hrun
    (fun t => by cases t <;> decide +kernel)
  exact hiff.mpr (.inr ⟨List.replicate 6 .engine ++ List.replicate 2 .rpc,
    List.replicate 2 .rpc, by decide +kernel, by decide +kernel, by decide +kernel⟩)

/-- A result is reported with success and lost to the timer that had checked before. -/
theorem result_lost :
    ¬ ∀ crates env timing req w a json ts c, (server crates).Reachable w →
      activityOf w.db req.activityId = some a → a.state = .running →
      parsedResult crates req.resultJson = .ok json →
      weave.Run (reportRace crates env timing req w) ts c →
      (∀ t, (c.thread t).outcome? ≠ none) → (c.thread .rpc).outcome? = some (.ok ()) →
      ∃ s ∈ stepOf c.store.db a.stepId, s.state = .completed ∧ s.resultJson = some json := by
  intro h
  have hadmitted : weave.Admitted handedRace reportedBetween := by decide +kernel
  obtain ⟨s, hs, hstate, _⟩ := h plainCrates (turn 2) (turn 3) ⟨"id-10", ""⟩ handedOver
    handedActivity .empty _ _ handedOver_reachable (Option.some_get handedOver_activity).symm
    (by decide +kernel) rfl (Machine.run_replay _ _ hadmitted)
    (fun t => by cases t <;> decide +kernel) rfl
  have hpending : (stepOf (weave.ending handedRace reportedBetween).store.db
      handedActivity.stepId).map (·.state) = some .pending := by decide +kernel
  have hcompleted := (congrArg (Option.map WorkflowStepRow.state) hs).symm.trans hpending
  rw [Option.map_some, hstate] at hcompleted
  cases hcompleted

end Khronos.Proofs
