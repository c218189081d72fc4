import Khronos.Server.Texts
import Khronos.Worker.Executor

namespace Khronos.Proofs
open Lib Server Worker

section
variable {σ η : Type} {S : Semaphore σ} {crates : Crates} {registry : ActivityRegistry η} {n : Nat}
  {ex ex' : TaskExecutor σ η} {job : Job} {event : Event} {report : Option ReportCall}

/-- What the `i`th call of `execute` may do next, and what it reports. -/
inductive JobTurn (S : Semaphore σ) (crates : Crates) (ex : TaskExecutor σ η) (i : Nat) (job : Job) :
    Event → Option ReportCall → TaskExecutor σ η → Prop
  | waits (hp : job.phase = .acquiring) : JobTurn S crates ex i job (.acquire i) none ex
  | granted {s : σ} (hp : job.phase = .acquiring) (hs : S.acquire ex.semaphore = .granted s) :
      JobTurn S crates ex i job (.acquire i) none { ex.move i job .spawned with semaphore := s }
  | closed (hp : job.phase = .acquiring) (hs : S.acquire ex.semaphore = .closed) :
      JobTurn S crates ex i job (.acquire i) none (ex.move i job .refused)
  | refused (hp : job.phase = .refused) :
      JobTurn S crates ex i job (.start i) none (ex.move i job .finished)
  | handled {handler : η} (hp : job.phase = .spawned)
      (hget : ex.registry.get job.task.name = some handler) :
      JobTurn S crates ex i job (.start i) none (ex.move i job .executing)
  | unhandled (hp : job.phase = .spawned) (hget : ex.registry.get job.task.name = none) :
      JobTurn S crates ex i job (.start i) (some (noHandler job.task)) (ex.move i job .reporting)
  | completed (hp : job.phase = .executing) (result : Except String String) :
      JobTurn S crates ex i job (.complete i result) (some (resultReport crates job.task result))
        (ex.move i job .reporting)
  | replied (hp : job.phase = .reporting) (response : Except Status Unit) :
      JobTurn S crates ex i job (.reply i response) none (ex.returnTask S i job)

theorem phase?_eq_some {i : Nat} {phase : TaskPhase} (h : ex.phase? i = some phase) :
    ∃ job, ex.jobs[i]? = some job ∧ job.phase = phase :=
  Option.map_eq_some_iff.mp h

theorem ofJob_eq {i : Nat} (h : ex.jobs[i]? = some job)
    (f : Job → Option ReportCall × TaskExecutor σ η) :
    ex.ofJob i f = ((f job).1.map (fun r => (i, r)), (f job).2) := by
  rw [TaskExecutor.ofJob, h]

theorem turn_acquire {i : Nat} (hp : job.phase = .acquiring) :
    JobTurn S crates ex i job (.acquire i) none (ex.acquirePermit S i job) := by
  unfold TaskExecutor.acquirePermit
  split
  · exact .waits hp
  · exact .granted hp ‹_›
  · exact .closed hp ‹_›

theorem turn_start {i : Nat} (hp : job.phase = .spawned ∨ job.phase = .refused) :
    JobTurn S crates ex i job (.start i) (ex.startTask i job).1 (ex.startTask i job).2 := by
  unfold TaskExecutor.startTask
  rcases hp with hp | hp
  · rw [if_neg (by rw [hp]; decide)]
    split
    · exact .handled hp ‹_›
    · exact .unhandled hp ‹_›
  · rw [if_pos hp]
    exact .refused hp

/-- An admitted event is a new call of `execute` or a turn of an earlier one. -/
theorem executor_step (h : (executor S crates registry n).admits ex event) :
    (∃ task, event = .execute task ∧ (executor S crates registry n).step ex event =
      (none, { ex with jobs := ex.jobs ++ [⟨task, .acquiring⟩] })) ∨
    ∃ i job report ex', ex.jobs[i]? = some job ∧ JobTurn S crates ex i job event report ex' ∧
      (executor S crates registry n).step ex event = (report.map (fun r => (i, r)), ex') := by
  cases event with
  | execute task => exact .inl ⟨task, rfl, rfl⟩
  | acquire i =>
    obtain ⟨job, hjob, hp⟩ := phase?_eq_some h
    exact .inr ⟨i, job, _, _, hjob, turn_acquire hp, ofJob_eq hjob _⟩
  | start i =>
    have hjobs : ∃ job, ex.jobs[i]? = some job ∧
        (job.phase = .spawned ∨ job.phase = .refused) := by
      rcases h with h | h
      · obtain ⟨job, hjob, hp⟩ := phase?_eq_some h
        exact ⟨job, hjob, .inl hp⟩
      · obtain ⟨job, hjob, hp⟩ := phase?_eq_some h
        exact ⟨job, hjob, .inr hp⟩
    obtain ⟨job, hjob, hp⟩ := hjobs
    exact .inr ⟨i, job, _, _, hjob, turn_start hp, ofJob_eq hjob _⟩
  | complete i result =>
    obtain ⟨job, hjob, hp⟩ := phase?_eq_some h
    exact .inr ⟨i, job, _, _, hjob, .completed hp result, ofJob_eq hjob _⟩
  | reply i response =>
    obtain ⟨job, hjob, hp⟩ := phase?_eq_some h
    exact .inr ⟨i, job, _, _, hjob, .replied hp response, ofJob_eq hjob _⟩

/-- The tasks that hold a permit. -/
def permitsHeld (ex : TaskExecutor σ η) : Nat := ex.jobs.countP (·.phase.holds)

/-- The handlers that execute. -/
def handlersExecuting (ex : TaskExecutor σ η) : Nat :=
  ex.jobs.countP (fun job => job.phase = .executing)

theorem executing_le (ex : TaskExecutor σ η) : handlersExecuting ex ≤ permitsHeld ex := by
  refine List.countP_mono_left fun job _ he => ?_
  rw [of_decide_eq_true he]
  rfl

/-- Every permit is free, or held by a task. -/
structure Conserves (S : Semaphore σ) (registry : ActivityRegistry η) (n : Nat)
    (ex : TaskExecutor σ η) : Prop where
  registry : ex.registry = registry
  shares : S.Shares n ex.semaphore (permitsHeld ex)

theorem permitsHeld_move {i : Nat} (h : ex.jobs[i]? = some job) (phase : TaskPhase) :
    permitsHeld (ex.move i job phase) + (if job.phase.holds then 1 else 0) =
      permitsHeld ex + (if phase.holds then 1 else 0) :=
  countP_changed h _

theorem Conserves.turn {i : Nat} (h : Conserves S registry n ex) (hjob : ex.jobs[i]? = some job)
    (ht : JobTurn S crates ex i job event report ex') : Conserves S registry n ex' := by
  have hmove := fun phase => permitsHeld_move hjob phase
  -- A turn that neither takes a permit nor gives one back.
  have hkeeps : ∀ phase : TaskPhase, phase.holds = job.phase.holds →
      Conserves S registry n (ex.move i job phase) := by
    intro phase he
    refine ⟨h.registry, ?_⟩
    have hsame : permitsHeld (ex.move i job phase) = permitsHeld ex := by
      have hm := hmove phase
      rw [he] at hm
      exact Nat.add_right_cancel hm
    rw [hsame]
    exact h.shares
  cases ht with
  | waits hp => exact h
  | granted hp hs =>
    have hm := hmove .spawned
    rw [hp] at hm
    refine ⟨h.registry, ?_⟩
    change S.Shares n _ (permitsHeld (ex.move i job .spawned))
    rw [show permitsHeld (ex.move i job .spawned) = permitsHeld ex + 1 from hm]
    exact h.shares.granted hs
  | closed hp hs => exact absurd hs h.shares.not_closed
  | refused hp => exact hkeeps .finished (by rw [hp]; rfl)
  | handled hp hget => exact hkeeps .executing (by rw [hp]; rfl)
  | unhandled hp hget => exact hkeeps .reporting (by rw [hp]; rfl)
  | completed hp result => exact hkeeps .reporting (by rw [hp]; rfl)
  | replied hp response =>
    have hm := hmove .finished
    rw [hp] at hm
    refine ⟨h.registry, ?_⟩
    change S.Shares n _ (permitsHeld (ex.move i job .finished))
    have hshares := h.shares
    rw [show permitsHeld ex = permitsHeld (ex.move i job .finished) + 1 from hm.symm] at hshares
    exact hshares.released

theorem conserves_step (h : Conserves S registry n ex)
    (ha : (executor S crates registry n).admits ex event) :
    Conserves S registry n ((executor S crates registry n).step ex event).2 := by
  rcases executor_step ha with ⟨task, _, he⟩ | ⟨i, job, report, ex', hjob, ht, he⟩
  · rw [he]
    refine ⟨h.registry, ?_⟩
    have hsame : permitsHeld { ex with jobs := ex.jobs ++ [⟨task, .acquiring⟩] } = permitsHeld ex :=
      List.countP_append
    rw [hsame]
    exact h.shares
  · rw [he]
    exact h.turn hjob ht

theorem conserves_new (h : TaskExecutor.new S registry n = some ex) :
    Conserves S registry n ex := by
  obtain ⟨s, hs, rfl⟩ := Option.map_eq_some_iff.mp h
  exact ⟨rfl, Semaphore.Shares.new hs⟩

/-- What has come of a task: the results that its handler has returned, and the calls that report
on it. -/
inductive Accounted (crates : Crates) (registry : ActivityRegistry η) (task : ActivityTask) :
    TaskPhase → List (Except String String) → List ReportCall → Prop
  | waiting (hp : phase = .acquiring ∨ phase = .spawned) :
      Accounted crates registry task phase [] []
  | executing {handler : η} (hget : registry.get task.name = some handler) :
      Accounted crates registry task .executing [] []
  | unhandled (hget : registry.get task.name = none)
      (hp : phase = .reporting ∨ phase = .finished) :
      Accounted crates registry task phase [] [noHandler task]
  | handled {handler : η} (hget : registry.get task.name = some handler)
      (result : Except String String) (hp : phase = .reporting ∨ phase = .finished) :
      Accounted crates registry task phase [result] [resultReport crates task result]

theorem Accounted.of_waiting {task : ActivityTask} (h : Accounted crates registry task phase rs cs)
    (hp : phase = .acquiring ∨ phase = .spawned) : rs = [] ∧ cs = [] := by
  cases h with
  | waiting _ => exact ⟨rfl, rfl⟩
  | executing hget => exact ⟨rfl, rfl⟩
  | unhandled hget hp' => rcases hp with rfl | rfl <;> rcases hp' with h | h <;> cases h
  | handled hget result hp' => rcases hp with rfl | rfl <;> rcases hp' with h | h <;> cases h

theorem Accounted.of_executing {task : ActivityTask}
    (h : Accounted crates registry task .executing rs cs) :
    (∃ handler, registry.get task.name = some handler) ∧ rs = [] ∧ cs = [] := by
  cases h with
  | waiting hp => rcases hp with h | h <;> cases h
  | executing hget => exact ⟨⟨_, hget⟩, rfl, rfl⟩
  | unhandled hget hp => rcases hp with h | h <;> cases h
  | handled hget result hp => rcases hp with h | h <;> cases h

/-- A task that is done with its report has nothing more to tell. -/
theorem Accounted.finish {task : ActivityTask}
    (h : Accounted crates registry task .reporting rs cs) :
    Accounted crates registry task .finished rs cs := by
  cases h with
  | waiting hp => rcases hp with h | h <;> cases h
  | unhandled hget hp => exact .unhandled hget (.inr rfl)
  | handled hget result hp => exact .handled hget result (.inr rfl)

/-- No task is told of that was refused its permit. -/
theorem Accounted.not_refused {task : ActivityTask} :
    ¬ Accounted crates registry task .refused rs cs := by
  intro h
  cases h with
  | waiting hp => rcases hp with h | h <;> cases h
  | unhandled hget hp => rcases hp with h | h <;> cases h
  | handled hget result hp => rcases hp with h | h <;> cases h

/-- The report that a step makes on the `i`th call of `execute`. -/
def callOn (i : Nat) (output : Option (Nat × ReportCall)) : Option ReportCall :=
  output.bind fun call => if call.1 = i then some call.2 else none

/-- The result that the handler of the `i`th call returns in a step. -/
def resultOn (i : Nat) : Event → Option (Except String String)
  | .complete j result => if j = i then some result else none
  | _ => none

abbrev ExecutorStep (σ η : Type) := Transition (TaskExecutor σ η) Event (Option (Nat × ReportCall))

def reportCalls (i : Nat) (ts : List (ExecutorStep σ η)) : List ReportCall := ts.filterMap (callOn i ·.output)

def handlerResults (i : Nat) (ts : List (ExecutorStep σ η)) : List (Except String String) :=
  ts.filterMap (resultOn i ·.input)

theorem reportCalls_append (i : Nat) (ts : List (ExecutorStep σ η)) (t : ExecutorStep σ η) :
    reportCalls i (ts ++ [t]) = reportCalls i ts ++ (callOn i t.output).toList := by
  rw [reportCalls, List.filterMap_append]
  cases h : callOn i t.output <;> simp [h, reportCalls]

theorem handlerResults_append (i : Nat) (ts : List (ExecutorStep σ η)) (t : ExecutorStep σ η) :
    handlerResults i (ts ++ [t]) = handlerResults i ts ++ (resultOn i t.input).toList := by
  rw [handlerResults, List.filterMap_append]
  cases h : resultOn i t.input <;> simp [h, handlerResults]

/-- What every call of `execute` has come to so far; a call yet to come has left no trace. -/
structure History (crates : Crates) (registry : ActivityRegistry η) (ts : List (ExecutorStep σ η))
    (ex : TaskExecutor σ η) : Prop where
  told : ∀ i job, ex.jobs[i]? = some job →
    Accounted crates registry job.task job.phase (handlerResults i ts) (reportCalls i ts)
  untold : ∀ i, ex.jobs[i]? = none → handlerResults i ts = [] ∧ reportCalls i ts = []

/-- A turn of another call is not one of this one. -/
theorem JobTurn.others {i j : Nat} (h : JobTurn S crates ex i job event report ex') (hne : i ≠ j) :
    resultOn j event = none ∧ callOn j (report.map (fun r => (i, r))) = none ∧
      ex'.jobs[j]? = ex.jobs[j]? := by
  cases h with
  | completed hp result =>
    refine ⟨if_neg hne, if_neg hne, ?_⟩
    exact List.getElem?_set_ne hne
  | waits hp => exact ⟨rfl, rfl, rfl⟩
  | unhandled hp hget => exact ⟨rfl, if_neg hne, List.getElem?_set_ne hne⟩
  | _ => exact ⟨rfl, rfl, List.getElem?_set_ne hne⟩

theorem move_self {i : Nat} (hjob : ex.jobs[i]? = some job) (phase : TaskPhase) :
    (ex.move i job phase).jobs[i]? = some { job with phase } := by
  obtain ⟨hi, _⟩ := List.getElem?_eq_some_iff.mp hjob
  exact List.getElem?_set_self hi

/-- A turn of a call tells on what has come of it. -/
theorem JobTurn.told {i : Nat} (h : JobTurn S crates ex i job event report ex')
    (hjob : ex.jobs[i]? = some job) (hopen : S.acquire ex.semaphore ≠ .closed)
    (ht : Accounted crates ex.registry job.task job.phase rs cs) :
    ∃ phase, ex'.jobs[i]? = some { job with phase } ∧
      Accounted crates ex.registry job.task phase (rs ++ (resultOn i event).toList)
        (cs ++ (callOn i (report.map (fun r => (i, r)))).toList) := by
  cases h with
  | waits hp => exact ⟨job.phase, hjob, by simpa [resultOn, callOn] using ht⟩
  | granted hp hs =>
    obtain ⟨rfl, rfl⟩ := ht.of_waiting (.inl hp)
    exact ⟨.spawned, move_self hjob _, .waiting (.inr rfl)⟩
  | closed hp hs => exact absurd hs hopen
  | refused hp =>
    rw [hp] at ht
    exact absurd ht Accounted.not_refused
  | handled hp hget =>
    obtain ⟨rfl, rfl⟩ := ht.of_waiting (.inr hp)
    exact ⟨.executing, move_self hjob _, .executing hget⟩
  | unhandled hp hget =>
    obtain ⟨rfl, rfl⟩ := ht.of_waiting (.inr hp)
    refine ⟨.reporting, move_self hjob _, ?_⟩
    have hnone : Accounted crates ex.registry job.task .reporting [] [noHandler job.task] :=
      .unhandled hget (.inl rfl)
    simpa [resultOn, callOn] using hnone
  | completed hp result =>
    rw [hp] at ht
    obtain ⟨⟨handler, hget⟩, rfl, rfl⟩ := ht.of_executing
    refine ⟨.reporting, move_self hjob _, ?_⟩
    have hsome : Accounted crates ex.registry job.task .reporting [result]
        [resultReport crates job.task result] :=
      .handled hget result (.inl rfl)
    simpa [resultOn, callOn] using hsome
  | replied hp response =>
    rw [hp] at ht
    refine ⟨.finished, move_self hjob _, ?_⟩
    simpa [resultOn, callOn] using ht.finish

theorem history_execute {ts : List (ExecutorStep σ η)} {t : ExecutorStep σ η} (h : History crates registry ts ex)
    (task : ActivityTask) (hin : t.input = .execute task) (hout : t.output = none) :
    History crates registry (ts ++ [t]) { ex with jobs := ex.jobs ++ [⟨task, .acquiring⟩] } := by
  have hcalls : ∀ i, reportCalls i (ts ++ [t]) = reportCalls i ts := by
    intro i
    rw [reportCalls_append, hout]
    exact List.append_nil _
  have hresults : ∀ i, handlerResults i (ts ++ [t]) = handlerResults i ts := by
    intro i
    rw [handlerResults_append, hin]
    exact List.append_nil _
  refine ⟨fun i job hjob => ?_, fun i hnone => ?_⟩
  · rw [hcalls, hresults]
    change (ex.jobs ++ [⟨task, .acquiring⟩])[i]? = some job at hjob
    cases hold : ex.jobs[i]? with
    | some job' =>
      obtain ⟨hi, _⟩ := List.getElem?_eq_some_iff.mp hold
      rw [List.getElem?_append_left hi, hold] at hjob
      cases hjob
      exact h.told i job hold
    | none =>
      have hi := List.getElem?_eq_none_iff.mp hold
      rw [List.getElem?_append_right hi] at hjob
      obtain rfl := List.mem_singleton.mp (List.mem_of_getElem? hjob)
      obtain ⟨hresults, hcalls⟩ := h.untold i hold
      rw [hresults, hcalls]
      exact .waiting (.inl rfl)
  · rw [hcalls, hresults]
    change (ex.jobs ++ [⟨task, .acquiring⟩])[i]? = none at hnone
    have hi := List.getElem?_eq_none_iff.mp hnone
    rw [List.length_append] at hi
    exact h.untold i (List.getElem?_eq_none_iff.mpr (by omega))

theorem history_turn {ts : List (ExecutorStep σ η)} {t : ExecutorStep σ η} {i : Nat}
    (hc : Conserves S registry n ex) (h : History crates registry ts ex)
    (hjob : ex.jobs[i]? = some job) (ht : JobTurn S crates ex i job event report ex')
    (hin : t.input = event) (hout : t.output = report.map (fun r => (i, r))) :
    History crates registry (ts ++ [t]) ex' := by
  have hothers : ∀ j, j ≠ i → reportCalls j (ts ++ [t]) = reportCalls j ts ∧
      handlerResults j (ts ++ [t]) = handlerResults j ts ∧ ex'.jobs[j]? = ex.jobs[j]? := by
    intro j hne
    obtain ⟨hresult, hcall, hjobs⟩ := ht.others (Ne.symm hne)
    rw [reportCalls_append, handlerResults_append, hin, hout, hresult, hcall]
    exact ⟨List.append_nil _, List.append_nil _, hjobs⟩
  obtain ⟨phase, hmoved, htold⟩ := ht.told hjob hc.shares.not_closed
    (hc.registry ▸ h.told i job hjob)
  refine ⟨fun j job' hj => ?_, fun j hnone => ?_⟩
  · by_cases hne : j = i
    · subst hne
      rw [hmoved] at hj
      cases hj
      rw [reportCalls_append, handlerResults_append, hin, hout, ← hc.registry]
      exact htold
    · obtain ⟨hcalls, hresults, hjobs⟩ := hothers j hne
      rw [hcalls, hresults]
      exact h.told j job' (hjobs ▸ hj)
  · have hne : j ≠ i := by
      rintro rfl
      rw [hmoved] at hnone
      cases hnone
    obtain ⟨hcalls, hresults, hjobs⟩ := hothers j hne
    rw [hcalls, hresults]
    exact h.untold j (hjobs ▸ hnone)

theorem history_step {ts : List (ExecutorStep σ η)} (hc : Conserves S registry n ex)
    (h : History crates registry ts ex) (ha : (executor S crates registry n).admits ex event) :
    History crates registry (ts ++ [(executor S crates registry n).transition ex event])
      ((executor S crates registry n).step ex event).2 := by
  rcases executor_step ha with ⟨task, hevent, he⟩ | ⟨i, job, report, ex', hjob, ht, he⟩
  · have hout := congrArg Prod.fst he
    rw [he]
    exact history_execute h task hevent hout
  · have hout := congrArg Prod.fst he
    rw [he]
    exact history_turn hc h hjob ht rfl hout

/-- In every interleaving the handlers that execute are at most the permits, every permit is free
or held by a task, and a task that has returned has made one call: `report_result` with what its
handler has returned, or `report_failure` with its error or because there is none. -/
theorem executor_reports {ts : List (ExecutorStep σ η)} (hn : TaskExecutor.new S registry n = some ex)
    (hr : (executor S crates registry n).Run ex ts ex') :
    handlersExecuting ex' ≤ n ∧ S.availablePermits ex'.semaphore + permitsHeld ex' = n ∧
      ∀ i job, ex'.jobs[i]? = some job → job.phase = .finished →
        (registry.get job.task.name = none ∧ handlerResults i ts = [] ∧
          reportCalls i ts = [.failure job.task.activityId
            ("No handler registered for activity: " ++ job.task.name)]) ∨
        ∃ handler, registry.get job.task.name = some handler ∧
          ((∃ output, handlerResults i ts = [.ok output] ∧
            reportCalls i ts = [.result job.task.activityId
              (crates.jsonToString (.object [("stdout", .string (trim output))]))]) ∨
          ∃ errMsg, handlerResults i ts = [.error errMsg] ∧
            reportCalls i ts = [.failure job.task.activityId errMsg]) := by
  have hc : Conserves S registry n ex' :=
    hr.keeps (fun _ _ h ha => conserves_step h ha) (conserves_new hn)
  have hh : History crates registry ts ex' := by
    have hstart : History crates registry ([] : List (ExecutorStep σ η)) ex := by
      obtain ⟨s, _, rfl⟩ := Option.map_eq_some_iff.mp hn
      refine ⟨fun i job hjob => ?_, fun _ _ => ⟨rfl, rfl⟩⟩
      cases hjob
    refine hr.keeps_with_past (C := fun _ _ _ => True) ?_ hstart (fun _ _ _ _ => trivial)
    intro us t event hrun hus ha _
    exact history_step (hrun.keeps (fun _ _ h ha => conserves_step h ha) (conserves_new hn)) hus ha
  refine ⟨(executing_le ex').trans hc.shares.held_le, hc.shares.conserved, ?_⟩
  intro i job hjob hp
  have htold := hh.told i job hjob
  rw [hp] at htold
  generalize handlerResults i ts = rs at htold ⊢
  generalize reportCalls i ts = cs at htold ⊢
  cases htold with
  | waiting hp => rcases hp with h | h <;> cases h
  | unhandled hget _ => exact .inl ⟨hget, rfl, rfl⟩
  | handled hget result _ =>
    refine .inr ⟨_, hget, ?_⟩
    cases result with
    | ok output => exact .inl ⟨output, rfl, rfl⟩
    | error errMsg => exact .inr ⟨errMsg, rfl, rfl⟩

end

/-- A task with this id, of an activity of this name. -/
def taskOf (id name : String) : ActivityTask := ⟨id, "", "", name, [], .default, 0, 0⟩

def oneHandler : ActivityRegistry Unit := .register "known" () .new

/-- Crates that write JSON values down. -/
def printingCrates : Crates := { plainCrates with jsonToString := fun v => String.ofList v.print }

abbrev oneAtATime : Machine (TaskExecutor Nat Unit) Event (Option (Nat × ReportCall)) :=
  executor .counting printingCrates oneHandler 1

/-- A task whose handler succeeds, one whose handler fails, and one without a handler, which wait
for each other's permit. -/
def overlapping : List Event :=
  [.execute (taskOf "a-1" "known"), .execute (taskOf "a-2" "known"),
    .execute (taskOf "a-3" "unknown"), .acquire 0, .acquire 1, .start 0,
    .complete 0 (.ok " done\n"), .acquire 2, .reply 0 (.ok ()), .acquire 1, .start 1,
    .complete 1 (.error "boom"), .reply 1 (.ok ()), .acquire 2, .start 2, .reply 2 (.ok ())]

theorem done_printed :
    printingCrates.jsonToString (.object [("stdout", .string (trim " done\n"))]) =
      "\x7b\"stdout\":\"done\"\x7d" := by
  have htrimmed : trim " done\n" = "done" := by decide +kernel
  change String.ofList (Json.object [("stdout", .string (trim " done\n"))]).print = _
  rw [htrimmed, Json.print]
  simp only [List.map_cons, List.map_nil, Json.print]
  decide +kernel

theorem overlapping_reports :
    reportCalls 0 (oneAtATime.replay ⟨oneHandler, 1, []⟩ overlapping) =
        [.result "a-1" "\x7b\"stdout\":\"done\"\x7d"] ∧
      reportCalls 1 (oneAtATime.replay ⟨oneHandler, 1, []⟩ overlapping) = [.failure "a-2" "boom"] ∧
      reportCalls 2 (oneAtATime.replay ⟨oneHandler, 1, []⟩ overlapping) =
        [.failure "a-3" "No handler registered for activity: unknown"] := by
  have hadmitted : oneAtATime.Admitted ⟨oneHandler, 1, []⟩ overlapping := by decide +kernel
  have hreports := executor_reports (S := .counting) rfl (Machine.run_replay _ _ hadmitted)
  have hknown : oneHandler.get "known" = some () := rfl
  have hunknown : oneHandler.get "unknown" = none := rfl
  have hdone : handlerResults 0 (oneAtATime.replay ⟨oneHandler, 1, []⟩ overlapping) =
      [.ok " done\n"] := rfl
  have hboom : handlerResults 1 (oneAtATime.replay ⟨oneHandler, 1, []⟩ overlapping) =
      [.error "boom"] := rfl
  refine ⟨?_, ?_, ?_⟩
  · rcases hreports.2.2 0 ⟨taskOf "a-1" "known", .finished⟩ rfl rfl with
      ⟨hnone, _⟩ | ⟨_, _, ⟨output, hresult, hcall⟩ | ⟨_, hresult, _⟩⟩
    · cases hknown.symm.trans hnone
    · cases hdone.symm.trans hresult
      rw [hcall, done_printed]
      rfl
    · cases hdone.symm.trans hresult
  · rcases hreports.2.2 1 ⟨taskOf "a-2" "known", .finished⟩ rfl rfl with
      ⟨hnone, _⟩ | ⟨_, _, ⟨_, hresult, _⟩ | ⟨errMsg, hresult, hcall⟩⟩
    · cases hknown.symm.trans hnone
    · cases hboom.symm.trans hresult
    · cases hboom.symm.trans hresult
      exact hcall
  · rcases hreports.2.2 2 ⟨taskOf "a-3" "unknown", .finished⟩ rfl rfl with
      ⟨_, _, hcall⟩ | ⟨_, hget, _⟩
    · exact hcall
    · cases hunknown.symm.trans hget

end Khronos.Proofs
