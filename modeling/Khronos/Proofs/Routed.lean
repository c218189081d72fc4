import Khronos.Proofs.Served
import Khronos.Worker.Poller

namespace Khronos.Proofs
open Time Lib Db.Activities Db.Workflows Server

/-- A poll that a step is chosen for hands this step out. -/
theorem chosen_handedOut (hd : Readable w.db) (hw : WellFormed w.db) {call : Call}
    (hc : (server crates).admits w call) (hs : chosen call.env call.op w.db = some s) :
    handedOut crates ((server crates).transition w call) = some (newAttempt call.env s) := by
  obtain ⟨env, op⟩ := call
  have hrow : activityOf (dispatched env s w.db) (env.uuid 0).text = some (newAttempt env s) := by
    have hnone : w.db.activities.find? (fun r => activityKey r = (env.uuid 0).text) = none := by
      apply List.find?_eq_none.mpr
      intro r hr hk
      exact (fresh_unused hc (by omega)).2.2 ⟨r, hr, key_iff.mp (of_decide_eq_true hk)⟩
    change (w.db.activities ++ [newAttempt env s]).find? _ = _
    rw [List.find?_append, hnone, Option.none_or, List.find?_singleton]
    exact if_pos (decide_eq_true rfl)
  have hasks := (chosen_mem hs).2.2
  cases op with
  | pollActivity req =>
    obtain ⟨x, -, hrun⟩ := pollActivity_handed hd hw hc hs
    change (((exec crates env (.pollActivity req)).run w).1.value?.bind (Reply.task crates)).bind
      (activityOf ((exec crates env (.pollActivity req)).run w).2.db) = _
    unfold exec
    simp only [Prog.run_bind, hrun, Prog.resume_ok]
    exact hrow
  | pollActivityTaskQueue req =>
    obtain ⟨resp, hname, htoken, -, hrun⟩ := pollActivityTaskQueue_handed crates hd hw hc hs
    change (((exec crates env (.pollActivityTaskQueue req)).run w).1.value?.bind
      (Reply.task crates)).bind (activityOf ((exec crates env (.pollActivityTaskQueue req)).run w).2.db)
        = _
    unfold exec
    simp only [Prog.run_bind, hrun, Prog.resume_ok]
    change (resp.activityType.map _).bind _ = _
    rw [hname, htoken, Option.map_some, fromUtf8Lossy_intoBytes]
    exact hrow
  | startWorkflow req => cases hasks
  | startWorkflowExecution req => cases hasks
  | scheduleFire scheduleId => cases hasks
  | reportActivityResult req => cases hasks
  | reportActivityFailure req => cases hasks
  | respondActivityTaskCompleted req => cases hasks
  | respondActivityTaskFailed req => cases hasks
  | heartbeat req => cases hasks
  | cancelWorkflow req => cases hasks
  | handle event => cases hasks
  | writeSchedules rows notify => cases hasks

/-- The queue that a poll asks for. -/
def requestedQueue : Op → Option String
  | .pollActivity req => some req.taskQueue
  | .pollActivityTaskQueue req => some (req.taskQueue.getD "")
  | _ => none

/-- A task that is handed out is of a step of a run on the queue that was asked for. -/
def Routed (crates : Crates) (τ : ServerStep) : Prop :=
  ∀ a q, handedOut crates τ = some a → requestedQueue τ.input.op = some q →
    ∃ s ∈ τ.after.db.workflowSteps, s.id = a.stepId ∧ OnQueue τ.after.db q s

/-- A step stands before another one in the order in which a poll looks at them: it is older, or it
is not younger and comes first in the table. -/
def Precedes (db : Db) (s t : WorkflowStepRow) : Prop :=
  textLe t.createdAt s.createdAt = false ∨
    (textLe s.createdAt t.createdAt = true ∧
      ∃ pre post, db.workflowSteps = pre ++ t :: post ∧ s ∈ pre)

/-- No step of another queue comes first: every one that a poll is offered is preceded by one that
it is offered of a run on the queue it asks for. -/
def QueueFirst (env : Env) (op : Op) (db : Db) : Prop :=
  ∀ q, requestedQueue op = some q → ∀ t ∈ db.workflowSteps, offered env op db t = true →
    ¬ OnQueue db q t → ∃ s ∈ db.workflowSteps, offered env op db s = true ∧ OnQueue db q s ∧
      Precedes db s t

/-- The chosen step precedes every other one that is offered. -/
theorem Foremost.precedes (h : Foremost env op db s) (ht : t ∈ db.workflowSteps)
    (ho : offered env op db t = true) (hne : t ≠ s) : Precedes db s t := by
  obtain ⟨-, pre, post, he, hpre, hpost⟩ := h
  have hmem := ht
  rw [he] at hmem
  rcases List.mem_append.mp hmem with hm | hm
  · exact .inl (hpre t hm ho)
  · have hm := (List.mem_cons.mp hm).resolve_left hne
    obtain ⟨mid, rest, rfl⟩ := List.append_of_mem hm
    refine .inr ⟨hpost t hm ho, pre ++ s :: mid, rest, ?_, by simp⟩
    rw [he, List.append_assoc, List.cons_append]

/-- And none of them precedes it. -/
theorem Foremost.not_preceded (hw : WellFormed db) (h : Foremost env op db s)
    (ht : t ∈ db.workflowSteps) (ho : offered env op db t = true) (hne : t ≠ s) :
    ¬ Precedes db t s := by
  obtain ⟨-, pre, post, he, hpre, hpost⟩ := h
  have hnodup : db.workflowSteps.Nodup := List.Nodup.of_map stepKey hw.steps
  rw [he] at ht hnodup
  rcases List.mem_append.mp ht with hm | hm
  · have hlater := hpre t hm ho
    rintro (hbefore | ⟨hle, -⟩)
    · have htotal := Std.Total.total
        (r := fun a b : WorkflowStepRow => textLe a.createdAt b.createdAt = true) s t
      simp [hlater, hbefore] at htotal
    · rw [hlater] at hle
      cases hle
  · have hm := (List.mem_cons.mp hm).resolve_left hne
    have hle := hpost t hm ho
    rintro (hbefore | ⟨-, pre', post', he', hmem⟩)
    · rw [hle] at hbefore
      cases hbefore
    · -- The step stands at one place of the table, and the other one not on both sides of it.
      rw [List.nodup_append] at hnodup
      obtain ⟨-, htail, hdisjoint⟩ := hnodup
      have hbefore : s ∉ pre := fun hs => hdisjoint s hs s List.mem_cons_self rfl
      have hafter : s ∉ post := (List.nodup_cons.mp htail).1
      obtain ⟨rfl, -, -⟩ :=
        (List.append_cons_inj_of_notMem hbefore hafter).mp (he.symm.trans he')
      exact hdisjoint t hmem t (List.mem_cons_of_mem _ hm) rfl

theorem onQueue_dispatched (db : Db) (env : Env) (q : String) (s : WorkflowStepRow) :
    OnQueue (dispatched env s db) q (running s) ↔ OnQueue db q s := by
  constructor
  · rintro ⟨r', hr', hid, hq⟩
    obtain ⟨r, hr, rfl⟩ := Table.mem_update.mp hr'
    refine ⟨r, hr, ?_⟩
    split at hid
    · rw [if_pos ‹_›] at hq
      exact ⟨hid, hq⟩
    · rw [if_neg ‹_›] at hq
      exact ⟨hid, hq⟩
  · rintro ⟨r, hr, hid, hq⟩
    exact ⟨_, dispatched_row hr hid env, hid, hq⟩

/-- A poll of the server keeps to the queue exactly when no step of another one comes first. -/
theorem step_routed_iff (hd : Readable w.db) (hw : WellFormed w.db) {call : Call}
    (hc : (server crates).admits w call) :
    Routed crates ((server crates).transition w call) ↔ QueueFirst call.env call.op w.db := by
  constructor
  · intro hrouted q hq t ht ho hother
    obtain ⟨s, hs⟩ : ∃ s, chosen call.env call.op w.db = some s := by
      refine Option.ne_none_iff_exists'.mp (fun hnone => ?_)
      rw [chosen_none_iff.mp hnone t ht] at ho
      cases ho
    obtain ⟨hmem, hready, hasks⟩ := chosen_mem hs
    obtain ⟨s', hs', hid, hon⟩ := hrouted _ q (chosen_handedOut hd hw hc hs) hq
    change s' ∈ ((exec crates call.env call.op).after w).db.workflowSteps at hs'
    change OnQueue ((exec crates call.env call.op).after w).db q s' at hon
    rw [chosen_handed hd hw hc crates hs] at hs' hon
    have hself : s' = running s := by
      rcases (mem_dispatched_steps hw hmem).mp hs' with he | ⟨-, hne⟩
      · exact he
      · exact absurd hid hne
    rw [hself, onQueue_dispatched] at hon
    have hne : t ≠ s := by
      rintro rfl
      exact hother hon
    exact ⟨s, hmem, by simp [offered, hready, hasks], hon,
      (chosen_foremost hs).precedes ht ho hne⟩
  · intro hfirst a q ha hq
    obtain ⟨s, hs, rfl, hafter⟩ := handedOut_dispatched hc ha
    obtain ⟨hmem, hready, hasks⟩ := chosen_mem hs
    change ∃ s' ∈ ((server crates).step w call).2.db.workflowSteps, s'.id = _ ∧
      OnQueue ((server crates).step w call).2.db q s'
    rw [hafter]
    refine ⟨running s, (mem_dispatched_steps hw hmem).mpr (.inl rfl), rfl, ?_⟩
    rw [onQueue_dispatched]
    by_contra hother
    obtain ⟨t, ht, ho, hon, hbefore⟩ :=
      hfirst q hq s hmem (by simp [offered, hready, hasks]) hother
    refine (chosen_foremost hs).not_preceded hw ht ho ?_ hbefore
    rintro rfl
    exact hother hon

/-- A poll by queue is offered the steps of its queue alone. -/
theorem queueFirst_byQueue (hw : WellFormed db) (env : Env) (req : PollActivityTaskQueueRequest) :
    QueueFirst env (.pollActivityTaskQueue req) db := by
  intro q hq t ht ho hother
  cases hq
  exact absurd ((asks_queue hw ht req).mp (Bool.and_eq_true_iff.mp ho).2) hother

/-- In a run all tasks are routed by their queue exactly when at no native poll a step of another
queue comes first; a poll by queue always keeps to its queue. -/
theorem run_routed_iff {ts : List ServerStep} (hr : (server crates).Run .empty ts w) :
    ((∀ τ ∈ ts, Routed crates τ) ↔
      ∀ τ ∈ ts, ∀ req, τ.input.op = .pollActivity req →
        QueueFirst τ.input.env (.pollActivity req) τ.before.db) ∧
    ∀ τ ∈ ts, ∀ req, τ.input.op = .pollActivityTaskQueue req → Routed crates τ := by
  have hstep : ∀ τ ∈ ts, WellFormed τ.before.db ∧
      (Routed crates τ ↔ QueueFirst τ.input.env τ.input.op τ.before.db) := by
    intro τ hτ
    obtain ⟨us, vs, -, hu, hi, he⟩ := run_before hr hτ
    obtain ⟨hd, hw⟩ := reachable_readable ⟨_, us, rfl, hu⟩
    rw [he]
    exact ⟨hw, step_routed_iff hd hw hi⟩
  refine ⟨⟨fun h τ hτ req hop => ?_, fun h τ hτ => ?_⟩, fun τ hτ req hop => ?_⟩
  · rw [← hop]
    exact (hstep τ hτ).2.mp (h τ hτ)
  · rw [(hstep τ hτ).2]
    cases hop : τ.input.op with
    | pollActivity req => exact h τ hτ req hop
    | pollActivityTaskQueue req => exact queueFirst_byQueue (hstep τ hτ).1 _ req
    | _ => intro q hq; cases hq
  · rw [(hstep τ hτ).2, hop]
    exact queueFirst_byQueue (hstep τ hτ).1 _ req

/-- A run is started on a queue, and a worker of this queue polls for its first step. -/
def onOneQueue : List Op :=
  [.startWorkflow ⟨"x", [], "", "q", none, ""⟩, .pollActivity ⟨"q", ["x"]⟩]

instance (db : Db) (q : String) (s : WorkflowStepRow) : Decidable (OnQueue db q s) :=
  inferInstanceAs (Decidable (∃ r ∈ db.workflows, _ ∧ _))

theorem one_queue_routed :
    (∃ τ ∈ (server plainCrates).replay .empty (script onOneQueue),
      (handedOut plainCrates τ).isSome = true) ∧
    ∀ τ ∈ (server plainCrates).replay .empty (script onOneQueue), Routed plainCrates τ := by
  refine ⟨by decide +kernel,
    (run_routed_iff (script_run onOneQueue (by decide +kernel))).1.mpr ?_⟩
  have hqueue : ∀ τ ∈ (server plainCrates).replay .empty (script onOneQueue),
      ∀ q ∈ requestedQueue τ.input.op, ∀ t ∈ τ.before.db.workflowSteps,
        OnQueue τ.before.db q t := by decide +kernel
  intro τ hτ req hop q hq t ht ho hother
  refine absurd (hqueue τ hτ q ?_ t ht) hother
  rw [hop]
  exact hq

/-- A run is started on one queue, and a worker polls on another one. -/
def onTwoQueues : List Op :=
  [.startWorkflow ⟨"x", [], "", "billing", none, ""⟩, .pollActivity ⟨"default", ["x"]⟩]

theorem two_queues_not_routed :
    ¬ ∀ (crates : Crates) (ts : List ServerStep) (w : World), (server crates).Run .empty ts w →
      ∀ τ ∈ ts, Routed crates τ := by
  intro h
  have hall := h plainCrates _ _ (script_run onTwoQueues (by decide +kernel))
  have hpoll : ∃ τ ∈ (server plainCrates).replay .empty (script onTwoQueues),
      (handedOut plainCrates τ).isSome = true ∧ requestedQueue τ.input.op = some "default" ∧
        ∀ s ∈ τ.after.db.workflowSteps, ¬ OnQueue τ.after.db "default" s := by decide +kernel
  obtain ⟨τ, hτ, hsome, hq, hnone⟩ := hpoll
  obtain ⟨a, ha⟩ := Option.isSome_iff_exists.mp hsome
  obtain ⟨s, hs, -, hon⟩ := hall τ hτ a "default" ha hq
  exact hnone s hs hon

/-- Some step of a run on a queue is ready. -/
def WorkWaits (now : Clock) (db : Db) (taskQueue : String) : Prop :=
  ∃ s ∈ db.workflowSteps, Ready now s ∧ OnQueue db taskQueue s

/-- The worker's poll brings a task whenever one waits on its queue. -/
def PollBrings (poller : Worker.ActivityPoller) (env : Env) (w : World) : Prop :=
  WorkWaits (env.now 0) w.db poller.taskQueue →
    ∃ task, ((poller.pollOnce env).run w).1 = .ok (some task)

/-- The worker lists no type, and the server hands out steps of the listed types alone: whenever
work waits on its queue, the worker's poll brings nothing, and leaves everything as it was. -/
theorem poll_never_brings (hw : (server crates).Reachable w) (poller : Worker.ActivityPoller)
    (env : Env) (hwork : WorkWaits (env.now 0) w.db poller.taskQueue) :
    (poller.pollOnce env).run w = (.ok none, w) ∧ ¬ PollBrings poller env w := by
  obtain ⟨hd, hwf⟩ := reachable_readable hw
  have hrun : (poller.pollOnce env).run w = (.ok none, w) := by
    have hidle : (Server.pollActivity env ⟨poller.taskQueue, []⟩).run w =
        (.ok ⟨none, false⟩, w) := by
      refine pollActivity_idle hd hwf (chosen_none_iff.mpr (fun s _ => ?_))
      simp [offered, asks]
    unfold Worker.ActivityPoller.pollOnce Worker.pollActivity
    rw [Prog.run_bind, hidle]
    rfl
  refine ⟨hrun, fun h => ?_⟩
  obtain ⟨task, htask⟩ := h hwork
  rw [hrun] at htask
  cases htask

/-- A run on the default queue waits for its first step to be worked on. -/
theorem default_work_waits :
    WorkWaits ((turn 1).now 0) (worldAfter [.startWorkflow ⟨"x", [], "", "", none, ""⟩]).db
      "default" := by
  have hstep : ∃ s ∈ (worldAfter [.startWorkflow ⟨"x", [], "", "", none, ""⟩]).db.workflowSteps,
      s.state = .pending ∧ s.nextRetryAt = none ∧
        OnQueue (worldAfter [.startWorkflow ⟨"x", [], "", "", none, ""⟩]).db "default" s := by
    decide +kernel
  obtain ⟨s, hs, hstate, hnext, hon⟩ := hstep
  exact ⟨s, hs, ⟨hstate, by simp [hnext]⟩, hon⟩

theorem default_poll_brings_nothing :
    WorkWaits ((turn 1).now 0) (worldAfter [.startWorkflow ⟨"x", [], "", "", none, ""⟩]).db
        "default" ∧
      ¬ PollBrings ⟨"default"⟩ (turn 1) (worldAfter [.startWorkflow ⟨"x", [], "", "", none, ""⟩]) := by
  have hw : (server plainCrates).Reachable
      (worldAfter [.startWorkflow ⟨"x", [], "", "", none, ""⟩]) :=
    ⟨_, _, rfl, script_run _ (by decide +kernel)⟩
  exact ⟨default_work_waits, (poll_never_brings hw ⟨"default"⟩ (turn 1) default_work_waits).2⟩

theorem waiting_work_not_brought :
    ¬ ∀ (crates : Crates) (poller : Worker.ActivityPoller) (env : Env) (w : World),
      (server crates).Reachable w → PollBrings poller env w := by
  intro h
  have hw : (server plainCrates).Reachable
      (worldAfter [.startWorkflow ⟨"x", [], "", "", none, ""⟩]) :=
    ⟨_, _, rfl, script_run _ (by decide +kernel)⟩
  obtain ⟨task, htask⟩ := h plainCrates ⟨"default"⟩ (turn 1) _ hw default_work_waits
  have hnone : ((Worker.ActivityPoller.pollOnce (turn 1) ⟨"default"⟩).run
      (worldAfter [.startWorkflow ⟨"x", [], "", "", none, ""⟩])).1.value?.map Option.isSome =
        some false := by decide +kernel
  rw [htask] at hnone
  cases hnone

end Khronos.Proofs
