import Khronos.Proofs.Arguments
import Khronos.Proofs.Backoff
import Khronos.Server.Schedules

namespace Khronos.Proofs
open Time Lib Db.Activities Db.Workflows Db.Schedules Server

/-- Every row of a schedule holds this text of arguments. -/
def StoredArgs (scheduleId text : String) (db : Db) : Prop :=
  ∀ row ∈ db.schedules, row.scheduleId = scheduleId → row.actionArgsJson = text

/-- A step of the server leaves the text as it is, or without its schedule. -/
def KeepsArgs (scheduleId : String) (τ : ServerStep) : Prop :=
  ∀ row' ∈ τ.after.db.schedules, row'.scheduleId = scheduleId →
    ∃ row ∈ τ.before.db.schedules, row.scheduleId = scheduleId ∧
      row.actionArgsJson = row'.actionArgsJson

theorem KeepsArgs.stored {τ : ServerStep} (h : KeepsArgs scheduleId τ)
    (hs : StoredArgs scheduleId text τ.before.db) : StoredArgs scheduleId text τ.after.db := by
  intro row' hrow' hid'
  obtain ⟨row, hrow, hid, htext⟩ := h row' hrow' hid'
  exact htext.symm.trans (hs row hrow hid)

theorem Amend.schedules {P : WorkflowState → Prop} (h : Amend P db db') :
    db'.schedules = db.schedules := by
  cases h <;> rfl

/-- Only a request for schedules changes them. -/
theorem exec_schedules (hw : WellFormed w.db) (hf : Fresh w.db env) (crates : Crates) {op : Op}
    (hop : ∀ rows notify, op ≠ .writeSchedules rows notify) :
    ((exec crates env op).after w).db.schedules = w.db.schedules := by
  have hamends : Op.amending (fun _ => True) op →
      ((exec crates env op).after w).db.schedules = w.db.schedules := by
    intro h
    have hwithin := (exec_amends (P := fun _ => True) crates env h).within
    have hall := hwithin.mono (fun hamend => hamend.schedules)
    exact hall.run (R := fun w w' : World => w'.db.schedules = w.db.schedules) (fun _ => rfl)
      (fun hab hbc => hbc.trans hab) w
  cases op with
  | startWorkflow req =>
    unfold exec
    rw [Prog.after_bind_pure, Prog.after, run_startWorkflow hf]
    rfl
  | startWorkflowExecution req =>
    unfold exec
    rw [Prog.after_bind_pure, Prog.after, run_startWorkflowExecution hf]
    rfl
  | scheduleFire scheduleId =>
    rw [after_scheduleFire]
    rcases processSchedule_cases hw hf crates scheduleId with ⟨t, ht, he⟩ | ⟨info, t, h, he⟩
    · rw [he]
      rfl
    · rw [he]
      rfl
  | writeSchedules rows notify => exact absurd rfl (hop rows notify)
  | handle event => exact hamends ⟨trivial, trivial⟩
  | _ => exact hamends trivial

/-- No operation but a write of schedules changes the arguments of one. -/
theorem step_keepsArgs (hw : WellFormed w.db) {call : Call} (hc : (server crates).admits w call)
    (hop : ∀ rows notify, call.op ≠ .writeSchedules rows notify) (scheduleId : String) :
    KeepsArgs scheduleId ((server crates).transition w call) := by
  intro row hrow hid
  have hsame := exec_schedules hw hc crates hop
  exact ⟨row, hsame ▸ hrow, hid, rfl⟩

theorem requested_args (hreq : requestedSchedule req = .ok schedule)
    (haction : req.action = some action) :
    schedule.scheduleId = req.scheduleId ∧
      schedule.action.args = StringMap.extend [] action.args := by
  unfold requestedSchedule at hreq
  obtain ⟨spec, -, hreq⟩ := bind_eq_ok.mp hreq
  obtain ⟨asked, hasked, hreq⟩ := bind_eq_ok.mp hreq
  obtain ⟨made, -, hreq⟩ := bind_eq_ok.mp hreq
  obtain ⟨policy, -, hreq⟩ := bind_eq_ok.mp hreq
  cases (required_ok.mp hasked).symm.trans haction
  cases hreq
  exact ⟨rfl, rfl⟩

/-- The text that the creation of a schedule stores of its arguments. -/
def storedText (serde : Serde) (args : StringMap) : String :=
  serde.mapToString (StringMap.extend [] args)

theorem created_stored {serde : Serde} (haction : req.action = some action)
    (h : (createSchedule serde req).run w = (.ok scheduleId, w')) :
    StoredArgs req.scheduleId (storedText serde action.args) w'.db := by
  unfold createSchedule at h
  cases hreq : requestedSchedule req with
  | error status =>
    rw [hreq] at h
    cases h
  | ok schedule =>
    obtain ⟨hid, hargs⟩ := requested_args hreq haction
    rw [hreq] at h
    dsimp only at h
    rw [Prog.run_bind, Prog.run_mapError, insertSchedule, run_execute] at h
    by_cases hn : ∃ r ∈ w.db.schedules, r.scheduleId = schedule.scheduleId
    · rw [if_pos hn] at h
      cases h
    · rw [if_neg hn] at h
      cases h
      intro row hrow hrowId
      rcases List.mem_append.mp hrow with hrow | hrow
      · exact absurd ⟨row, hrow, hrowId.trans hid.symm⟩ hn
      · rw [List.mem_singleton.mp hrow, storedText, ← hargs]
        rfl

/-- The single argument a schedule gives to the steps of its runs: the stored text itself. -/
def textArgument (text : String) : Json := if text.isEmpty then .null else .string text

theorem textArgument_args (text : String) : stringArgs (textArgument text) = [] := by
  unfold textArgument
  split <;> rfl

/-- Where the writes of schedules in a run keep the text of one, so does the run. -/
theorem stored_on {rs ts : List ServerStep} (hv : (server crates).Run .empty rs v)
    (hr : (server crates).Run v ts w)
    (hk : ∀ τ ∈ ts, ∀ rows notify, τ.input.op = .writeSchedules rows notify →
      KeepsArgs scheduleId τ)
    (hs : StoredArgs scheduleId text v.db) : StoredArgs scheduleId text w.db := by
  induction hr with
  | start => exact hs
  | @next ts t call hr hi ih =>
    have hbefore := ih (fun τ hτ => hk τ (List.mem_append_left _ hτ))
    have hkeeps : KeepsArgs scheduleId ((server crates).transition t call) := by
      by_cases hop : ∃ rows notify, call.op = .writeSchedules rows notify
      · obtain ⟨rows, notify, hop⟩ := hop
        exact hk _ (List.mem_append_right _ (List.mem_singleton_self _)) rows notify hop
      · have hw := (reachable_readable ⟨.empty, _, rfl, hv.append hr⟩).2
        exact step_keepsArgs hw hi (fun rows notify he => hop ⟨rows, notify, he⟩) scheduleId
    exact hkeeps.stored hbefore

/-- The steps of a run that a schedule starts carry its text. -/
theorem fired_given (hw : WellFormed w.db) {call : Call} (hc : (server crates).admits w call)
    (hf : StartsRun scheduleId u ((server crates).transition w call))
    (hs : StoredArgs scheduleId text w.db) :
    Given u (fun _ => True) (fun j => j = textArgument text)
      ((server crates).step w call).2.db := by
  obtain ⟨info, t, h, hafter⟩ := startsRun_fired hw hc hf
  obtain ⟨hinfo, hid⟩ := scheduleInfo_id h.stored
  obtain rfl : call.env.uuid 0 = u := hf.2.1
  rw [hafter]
  refine given_started hw (fresh_unused hc (by omega)).1 rfl trivial rfl ?_ rfl rfl
  apply newSteps_args (P := fun j => j = textArgument text)
  intro d hd
  rw [Scheduler.scheduledArgs, hs info hinfo hid]
  rfl

theorem get_cons (k v : String) (m : StringMap) : (StringMap.get? ((k, v) :: m) k).isSome = true := by
  simp [StringMap.get?]

/-- Nothing but the empty map is the same as no arguments at all. -/
theorem sameMap_nil_iff {m : StringMap} : SameMap [] m ↔ m = [] := by
  constructor
  · intro h
    cases m with
    | nil => rfl
    | cons e m =>
      obtain ⟨k, v⟩ := e
      have hsome := get_cons k v m
      rw [← h.entries k] at hsome
      cases hsome
  · rintro rfl
    exact ⟨List.nodup_nil, fun _ => rfl⟩

/-- A schedule is created, and later starts a run: the text of its arguments is the single
argument of every step of the run, and a worker is given the arguments of the schedule exactly
when there are none. -/
theorem scheduled_args_iff {serde : Serde} {ts us vs : List ServerStep}
    {created fired : ServerStep}
    (hr : (server crates).Run .empty (ts ++ created :: (us ++ fired :: vs)) w)
    (haction : req.action = some action)
    (hcreated : (createSchedule serde req).run created.before = (.ok scheduleId, created.after))
    (hkept : ∀ τ ∈ us, ∀ rows notify, τ.input.op = .writeSchedules rows notify →
      KeepsArgs req.scheduleId τ)
    (hfired : StartsRun req.scheduleId u fired) :
    (∀ s ∈ w.db.workflowSteps, s.workflowRunId = u →
      s.argsJson = textArgument (storedText serde action.args)) ∧
    ∀ env poll task hasTask,
      ((pollActivity env poll).run w).1 = .ok ⟨some task, hasTask⟩ → task.workflowRunId = u.text →
        (SameMap task.args action.args ↔ action.args = []) := by
  have hsplit : (server crates).Run .empty ((ts ++ created :: us) ++ fired :: vs) w := by
    rw [List.append_assoc, List.cons_append]
    exact hr
  obtain ⟨hbefore, hc, hτ, -⟩ := hsplit.at
  obtain ⟨hfirst, hadmit, hcreate, hmid⟩ := hbefore.at
  have hafter : (server crates).Run .empty (ts ++ [created]) created.after := by
    rw [hcreate]
    exact .next hfirst hadmit
  have hstored := stored_on hafter hmid hkept (created_stored haction hcreated)
  have hgiven : Given u (fun _ => True)
      (fun j => j = textArgument (storedText serde action.args)) w.db := by
    apply Given.run_on hsplit
    have hw := (reachable_readable ⟨.empty, _, rfl, hbefore⟩).2
    rw [hτ] at hfired ⊢
    exact fired_given hw hc hfired hstored
  refine ⟨hgiven.steps, ?_⟩
  intro env poll task hasTask htask hrun
  obtain ⟨s, hs, hrun', hargs⟩ := pollActivity_task htask
  rw [hargs, hgiven.steps s hs (key_iff.mp (hrun'.symm.trans hrun)), textArgument_args]
  exact sameMap_nil_iff

/-- The text of one map, and of the empty one. -/
def oneText (m : List (String × String)) : String :=
  if m = [("key", "value")] then "\x7b\"key\":\"value\"\x7d" else "\x7b\x7d"

def oneSerde : Serde := { plainSerde with
  mapToString := oneText
  timeoutsToString := timeoutsText }

/-- A schedule of every half minute, with one argument. -/
def argumentSchedule (args : StringMap) : CreateScheduleRequest :=
  ⟨"s", "default", some ⟨"interval", [], some 30⟩, some ⟨"x", args, "default", "", none⟩, none⟩

/-- The schedule is created and starts a run. -/
def createdFired (args : StringMap) : List Op :=
  [.writeSchedules [scheduleRow oneSerde
    ⟨"s", "default", .interval (.fromSecs 30), ⟨"x", args, "default", "", .default⟩, .skip⟩] true,
    .scheduleFire "s"]

def creation (args : StringMap) : ServerStep :=
  (server plainCrates).transition .empty ⟨turn 0, .writeSchedules [scheduleRow oneSerde
    ⟨"s", "default", .interval (.fromSecs 30), ⟨"x", args, "default", "", .default⟩, .skip⟩] true⟩

def scheduledStart (args : StringMap) : ServerStep :=
  (server plainCrates).transition (creation args).after ⟨turn 1, .scheduleFire "s"⟩

def firedArgs (args : StringMap) : Option (List (String × String)) :=
  match ((pollActivity (turn 2) ⟨"", ["execute_cron_job"]⟩).run
    (worldAfter (createdFired args))).1 with
  | .ok ⟨some task, true⟩ => if task.workflowRunId = "id-10" then some task.args else none
  | _ => none

theorem firedArgs_task (h : firedArgs args = some given) :
    ∃ task, ((pollActivity (turn 2) ⟨"", ["execute_cron_job"]⟩).run
      (worldAfter (createdFired args))).1 = .ok ⟨some task, true⟩ ∧
        task.workflowRunId = "id-10" ∧ task.args = given := by
  unfold firedArgs at h
  split at h
  · rename_i task hpoll
    split at h
    · rename_i hrun
      exact ⟨task, hpoll, hrun, Option.some.inj h⟩
    · cases h
  · cases h

theorem none_delivered :
    ∃ task, ((pollActivity (turn 2) ⟨"", ["execute_cron_job"]⟩).run
      (worldAfter (createdFired []))).1 = .ok ⟨some task, true⟩ ∧ SameMap task.args [] := by
  have hgiven : firedArgs [] = some [] := by decide +kernel
  obtain ⟨task, hpoll, hrun, -⟩ := firedArgs_task hgiven
  have hr : (server plainCrates).Run .empty ([] ++ creation [] :: ([] ++ scheduledStart [] :: []))
      (worldAfter (createdFired [])) := script_run (createdFired []) (by decide +kernel)
  have haction : (argumentSchedule []).action = some ⟨"x", [], "default", "", none⟩ := rfl
  have hcreated : (createSchedule oneSerde (argumentSchedule [])).run (creation []).before =
      (.ok "s", (creation []).after) := rfl
  have hstarts : StartsRun "s" ⟨"id-10"⟩ (scheduledStart []) := ⟨rfl, rfl, by decide +kernel⟩
  obtain ⟨-, htasks⟩ := scheduled_args_iff hr haction hcreated (by simp) hstarts
  exact ⟨task, hpoll, (htasks _ _ _ _ hpoll hrun).mpr rfl⟩

/-- The argument of a schedule does not reach the worker. -/
theorem argument_not_delivered :
    ¬ ∀ (crates : Crates) (serde : Serde) (req : CreateScheduleRequest)
      (action : ProtoWorkflowAction) (scheduleId : String) (u : Uuid) (ts us vs : List ServerStep)
      (created fired : ServerStep) (w : World),
      (server crates).Run .empty (ts ++ created :: (us ++ fired :: vs)) w →
      req.action = some action →
      (createSchedule serde req).run created.before = (.ok scheduleId, created.after) →
      (∀ τ ∈ us, KeepsArgs req.scheduleId τ) → StartsRun req.scheduleId u fired →
      ∀ env poll task hasTask,
        ((pollActivity env poll).run w).1 = .ok ⟨some task, hasTask⟩ →
        task.workflowRunId = u.text → SameMap task.args action.args := by
  intro h
  have hgiven : firedArgs [("key", "value")] = some [] := by decide +kernel
  obtain ⟨task, hpoll, hrun, hargs⟩ := firedArgs_task hgiven
  have hr := script_run (createdFired [("key", "value")]) (by decide +kernel)
  have hsame := h plainCrates oneSerde (argumentSchedule [("key", "value")]) _ "s" ⟨"id-10"⟩
    [] [] [] _ _ _ hr rfl rfl (by simp) ⟨rfl, rfl, by decide +kernel⟩ _ _ task _ hpoll hrun
  have hvalue := hsame.entries "key"
  rw [hargs] at hvalue
  revert hvalue
  decide

/-- A task of the other poll carries what becomes of its step's row. -/
theorem pollActivityTaskQueue_task
    (h : ((pollActivityTaskQueue crates env req).run w).1 = .ok task)
    (hrun : task.workflowExecution = some (workflowId, runId)) :
    ∃ s ∈ w.db.workflowSteps, runId = s.workflowRunId.text ∧
      task.input = some (taskPayloads crates s.argsJson) := by
  simp only [pollActivityTaskQueue, getPendingSteps, Prog.run_bind, Prog.run_mapError,
    run_query] at h
  cases hp : pendingSteps (env.now 0) w.db with
  | error e =>
    rw [hp] at h
    cases h
  | ok steps =>
    rw [hp] at h
    simp only [Outcome.ofExcept, Outcome.mapError, Prog.resume_ok, Prog.run_bind,
      run_scanQueue] at h
    cases hx : steps.find? (fun x => decide (unwrapOr "" (runTaskQueue x.workflowRunId.text w.db) =
        req.taskQueue.getD "")) with
    | none =>
      rw [hx] at h
      cases h
      cases hrun
    | some x =>
      rw [hx] at h
      obtain ⟨s, hs, hd⟩ := pendingSteps_origin hp (List.mem_of_find?_eq_some hx)
      refine ⟨s, hs, ?_⟩
      dsimp only at h
      rw [Prog.run_bind] at h
      generalize (handOut env x).run w = r at h
      obtain ⟨out, v⟩ := r
      cases out with
      | ok activityId =>
        rw [Prog.resume_ok, Prog.run_bind, Prog.run_attempt, run_query] at h
        have hfields : task.workflowExecution = some (x.workflowRunId.text, x.workflowRunId.text) ∧
            task.input = some (taskPayloads crates x.argsJson) := by
          cases hq : runNamespace x.workflowRunId.text v.db with
          | ok q =>
            rw [hq] at h
            cases h
            exact ⟨rfl, rfl⟩
          | error e =>
            rw [hq] at h
            cases h
            exact ⟨rfl, rfl⟩
        rw [hfields.1] at hrun
        cases hrun
        rw [hfields.2, (rowToStep_decodes hd).run, rowToStep_args hd]
        exact ⟨rfl, rfl⟩
      | error e => cases h
      | panicked => cases h

theorem startWorkflowExecution_given (hw : WellFormed w.db) (hf : Fresh w.db env) (crates : Crates)
    (req : StartWorkflowExecutionRequest) :
    Given (env.uuid 0) (fun _ => True) (fun j => j = payloadArgs crates req.input)
      ((exec crates env (.startWorkflowExecution req)).after w).db := by
  unfold exec
  rw [Prog.after_bind_pure, Prog.after, run_startWorkflowExecution hf]
  refine given_started hw (fresh_unused hf (by omega)).1 rfl trivial rfl ?_ rfl rfl
  exact newSteps_args (P := fun j => j = payloadArgs crates req.input) (fun _ _ => rfl) env _

/-- A list of payloads is stored as an array or as an object, and neither becomes a payload. -/
theorem payloads_dropped (crates : Crates) (input : Option (List Payload)) :
    taskPayloads crates (payloadArgs crates input) = [] := by
  cases input with
  | none => rfl
  | some payloads => cases payloads <;> rfl

/-- Every task for a step of a run that is started with a list of payloads carries the same data
exactly when the list is empty. -/
theorem payloads_delivered_iff {ts us : List ServerStep} {τ : ServerStep}
    (hr : (server crates).Run .empty (ts ++ τ :: us) w)
    (hop : τ.input.op = .startWorkflowExecution req) (hinput : req.input = some sent)
    (hid : ((startWorkflowExecution crates τ.input.env req).run τ.before).1 = .ok ⟨runId, true⟩)
    (htask : ((pollActivityTaskQueue crates env poll).run w).1 = .ok task)
    (hrun : task.workflowExecution = some (workflowId, runId)) :
    (∃ payloads, task.input = some payloads ∧ payloads.map (·.data) = sent.map (·.data)) ↔
      sent = [] := by
  obtain ⟨hbefore, hc, hτ, -⟩ := hr.at
  obtain ⟨before, ⟨env₀, op⟩, output, after⟩ := τ
  obtain rfl : op = .startWorkflowExecution req := hop
  have hf : Fresh before.db env₀ := hc
  obtain rfl : (env₀.uuid 0).text = runId := by
    rw [run_startWorkflowExecution hf] at hid
    exact congrArg (·.runId) (Outcome.ok.inj hid)
  have hafter : after = (exec crates env₀ (.startWorkflowExecution req)).after before :=
    congrArg Transition.after hτ
  have hgiven : Given (env₀.uuid 0) (fun _ => True) (fun j => j = payloadArgs crates req.input)
      w.db := by
    apply Given.run_on hr
    rw [show after = _ from hafter]
    exact startWorkflowExecution_given (reachable_readable ⟨.empty, _, rfl, hbefore⟩).2 hf crates req
  obtain ⟨s, hs, hrun', hpayloads⟩ := pollActivityTaskQueue_task htask hrun
  rw [hgiven.steps s hs (key_iff.mp hrun'.symm), payloads_dropped] at hpayloads
  constructor
  · rintro ⟨payloads, hgot, hsame⟩
    rw [hpayloads] at hgot
    cases hgot
    exact List.map_eq_nil_iff.mp hsame.symm
  · rintro rfl
    exact ⟨[], hpayloads, rfl⟩

/-- A run is started with payloads. -/
def startedOn (sent : List Payload) : List Op :=
  [.startWorkflowExecution ⟨"", "w", some "x", some "q", some sent, none, none, none⟩]

def queueStart (sent : List Payload) : ServerStep :=
  (server plainCrates).transition .empty ⟨turn 0,
    .startWorkflowExecution ⟨"", "w", some "x", some "q", some sent, none, none, none⟩⟩

def queueTask (sent : List Payload) : Option PollActivityTaskQueueResponse :=
  match ((pollActivityTaskQueue plainCrates (turn 1) ⟨some "q"⟩).run
    (worldAfter (startedOn sent))).1 with
  | .ok task => if task.workflowExecution = some ("id-0", "id-0") then some task else none
  | _ => none

theorem queueTask_polled (h : queueTask sent = some task) :
    ((pollActivityTaskQueue plainCrates (turn 1) ⟨some "q"⟩).run
      (worldAfter (startedOn sent))).1 = .ok task ∧
        task.workflowExecution = some ("id-0", "id-0") := by
  unfold queueTask at h
  split at h
  · rename_i hpoll
    split at h
    · rename_i hrun
      cases h
      exact ⟨hpoll, hrun⟩
    · cases h
  · cases h

theorem no_payloads_delivered :
    ∃ task, ((pollActivityTaskQueue plainCrates (turn 1) ⟨some "q"⟩).run
      (worldAfter (startedOn []))).1 = .ok task ∧
        ∃ payloads, task.input = some payloads ∧
          payloads.map (·.data) = ([] : List Payload).map (·.data) := by
  obtain ⟨task, htask⟩ := Option.isSome_iff_exists.mp
    (show (queueTask []).isSome = true by decide +kernel)
  obtain ⟨hpoll, hrun⟩ := queueTask_polled htask
  have hr : (server plainCrates).Run .empty ([] ++ queueStart [] :: [])
      (worldAfter (startedOn [])) := script_run (startedOn []) (by decide +kernel)
  exact ⟨task, hpoll, (payloads_delivered_iff hr rfl rfl rfl hpoll hrun).mpr rfl⟩

def namePayload : Payload := ⟨[], intoBytes "name"⟩

/-- A single payload is not delivered. -/
theorem payload_not_delivered :
    ¬ ∀ (crates : Crates) (req : StartWorkflowExecutionRequest) (sent : List Payload)
      (runId workflowId : String) (ts us : List ServerStep) (τ : ServerStep) (w : World)
      (env : Env) (poll : PollActivityTaskQueueRequest) (task : PollActivityTaskQueueResponse),
      (server crates).Run .empty (ts ++ τ :: us) w →
      τ.input.op = .startWorkflowExecution req → req.input = some sent →
      (∀ p ∈ sent, ∃ text, p.data = intoBytes text) →
      ((startWorkflowExecution crates τ.input.env req).run τ.before).1 = .ok ⟨runId, true⟩ →
      ((pollActivityTaskQueue crates env poll).run w).1 = .ok task →
      task.workflowExecution = some (workflowId, runId) →
      ∃ payloads, task.input = some payloads ∧ payloads.map (·.data) = sent.map (·.data) := by
  intro h
  have hnone : ((queueTask [namePayload]).bind (·.input)).map List.length = some 0 := by
    decide +kernel
  obtain ⟨task, htask⟩ := Option.isSome_iff_exists.mp
    (show (queueTask [namePayload]).isSome = true by decide +kernel)
  obtain ⟨hpoll, hrun⟩ := queueTask_polled htask
  have hr := script_run (startedOn [namePayload]) (by decide +kernel)
  obtain ⟨payloads, hgot, hsame⟩ := h plainCrates _ [namePayload] "id-0" "id-0" [] [] _ _ (turn 1)
    ⟨some "q"⟩ task hr rfl rfl (by simp [namePayload]) rfl hpoll hrun
  rw [htask, Option.bind_some, hgot] at hnone
  have hlength := congrArg List.length hsame
  rw [List.length_map, Option.some.inj hnone] at hlength
  cases hlength

end Khronos.Proofs
