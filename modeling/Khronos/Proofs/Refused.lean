import Khronos.Proofs.Decoding
import Khronos.Proofs.Starts
import Khronos.Server.Requests

namespace Khronos.Proofs
open Time Lib Db.Activities Db.Workflows Db.Schedules Server

/-- An error leaves everything as it was: the tables, the queue and the timers. -/
def Harmless (p : Prog World ε α) (w : World) : Prop :=
  ∀ e, (p.run w).1 = .error e → p.after w = w

theorem Harmless.raise (e : ε) (w : World) : Harmless (Prog.raise e : Prog World ε α) w :=
  fun _ _ => rfl

theorem Harmless.of_run {p : Prog World ε α} (h : (p.run w).1 = .ok a) : Harmless p w := by
  intro e he
  rw [h] at he
  cases he

theorem Harmless.mapError {p : Prog World ε α} (h : Harmless p w) (f : ε → ε') :
    Harmless (p.mapError f) w := by
  intro e he
  unfold Prog.after
  rw [Prog.run_mapError] at he ⊢
  obtain ⟨e', hr⟩ := Outcome.of_mapError_error he
  exact h e' hr

theorem Harmless.return {p : Prog World ε α} (h : Harmless p w) (g : α → β) :
    Harmless (p >>= fun a => pure (g a)) w := by
  intro e he
  rw [Prog.run_bind_pure] at he
  rw [Prog.after_bind_pure]
  exact h e (Outcome.of_map_error he)

/-- After a program that only reads, what follows may fail as long as it is harmless itself. -/
theorem Harmless.bind_read {p : Prog World ε α} {f : α → Prog World ε β}
    (hp : p.after w = w) (hf : ∀ a, (p.run w).1 = .ok a → Harmless (f a) w) :
    Harmless (p >>= f) w := by
  intro e he
  unfold Prog.after at hp ⊢
  rw [Prog.run_bind] at he ⊢
  cases hr : p.run w with
  | mk out t =>
    rw [hr] at he hp
    cases out with
    | ok a =>
      obtain rfl : t = w := hp
      exact hf a (by rw [hr]) e he
    | error e' => exact hp
    | panicked => exact hp

theorem Harmless.bind_query {f : Db → Except DbError α} (h : DbError → ε)
    {g : α → Prog World ε β} (hg : ∀ a, f w.db = .ok a → Harmless (g a) w) :
    Harmless ((query f).mapError h >>= g) w := by
  refine .bind_read ?_ (fun a ha => hg a ?_)
  · unfold Prog.after
    rw [Prog.run_mapError, run_query]
  · rw [Prog.run_mapError, run_query] at ha
    cases hf : f w.db with
    | ok b =>
      rw [hf] at ha
      cases ha
      rfl
    | error e =>
      rw [hf] at ha
      cases ha

/-- What follows a write must not fail. -/
theorem Harmless.bind_calm {p : Prog World ε α} {f : α → Prog World ε β} (hp : Harmless p w)
    (hf : ∀ a t e, ((f a).run t).1 ≠ .error e) : Harmless (p >>= f) w := by
  intro e he
  unfold Prog.after
  rw [Prog.run_bind] at he ⊢
  cases hr : p.run w with
  | mk out t =>
    rw [hr] at he
    cases out with
    | ok a => exact absurd he (hf a t e)
    | error e' =>
      have hw := hp e' (by rw [hr])
      unfold Prog.after at hw
      rw [hr] at hw
      exact hw
    | panicked => cases he

theorem harmless_execute (f : Db → Except DbError (α × Db)) (w : World) :
    Harmless (execute f) w := by
  intro e he
  unfold Prog.after
  rw [run_execute] at he ⊢
  cases hf : f w.db with
  | ok r =>
    rw [hf] at he
    cases he
  | error e' => rfl

theorem harmless_read {f : Db → Except DbError α} (h : DbError → ε) (g : α → β) (w : World) :
    Harmless ((query f).mapError h >>= fun a => pure (g a)) w :=
  .bind_query h (fun _ _ => fun _ _ => rfl)

theorem send_calm (event : EngineEvent) (a : α) (w : World) :
    ((send event >>= fun _ => pure a : Prog World ε α).run w).1 ≠ .error e := nofun

theorem harmless_getWorkflow (crates : Crates) (codec : Db.Codec) (req : GetWorkflowRequest)
    (w : World) : Harmless (Server.getWorkflow crates codec req) w := by
  refine .bind_query _ (fun found _ => ?_)
  cases found with
  | none => exact .raise _ w
  | some wf => exact .of_run rfl

/-- A run that is not cancelled is the only thing there is to fail. -/
theorem harmless_cancelWorkflow (env : Env) (req : CancelWorkflowRequest) (w : World) :
    Harmless (Server.cancelWorkflow env req) w := by
  refine .return (.mapError ?_ _) _
  intro e he
  unfold Prog.after
  rw [run_cancelWorkflow] at he ⊢
  by_cases hn : (w.db.workflows.filter (cancellable req.workflowRunId)).length = 0
  · rw [Table.update_unselected hn]
  · rw [if_neg hn] at he
    cases he

theorem harmless_createSchedule (serde : Serde) (req : CreateScheduleRequest) (w : World) :
    Harmless (createSchedule serde req) w := by
  unfold createSchedule
  cases requestedSchedule req with
  | error status => exact .raise _ w
  | ok schedule =>
    exact .bind_calm (.mapError (harmless_execute _ w) _) (fun _ t _ => send_calm _ _ t)

theorem harmless_updateSchedule (crates : Crates) (serde : Serde) (req : UpdateScheduleRequest)
    (w : World) : Harmless (updateSchedule crates serde req) w := by
  unfold updateSchedule
  cases required "spec" req.spec with
  | error status => exact .raise _ w
  | ok spec =>
    refine .bind_query _ (fun existing _ => ?_)
    cases existing with
    | none => exact .raise _ w
    | some existing =>
      dsimp only
      cases coreSpec spec with
      | error status => exact .raise _ w
      | ok newSpec =>
        exact .bind_calm (.mapError (harmless_execute _ w) _) (fun _ t _ => send_calm _ _ t)

theorem harmless_deleteSchedule (req : DeleteScheduleRequest) (w : World) :
    Harmless (Server.deleteSchedule req) w :=
  .bind_calm (.mapError (harmless_execute _ w) _) (fun _ t _ => send_calm _ _ t)

theorem harmless_ofNamespace (s : Surroundings) (env : Env) (req : NamespaceRequest) (w : World) :
    Harmless (serveNamespace s.crates s.codec s.serde s.created env req) w := by
  cases req with
  | getWorkflow req => exact .return (harmless_getWorkflow _ _ req w) _
  | cancelWorkflow req => exact .return (harmless_cancelWorkflow env req w) _
  | listWorkflows req => exact .return (harmless_read _ _ w) _
  | createSchedule req => exact .return (.return (harmless_createSchedule _ req w) _) _
  | updateSchedule req => exact .return (.return (harmless_updateSchedule _ _ req w) _) _
  | deleteSchedule req => exact .return (.return (harmless_deleteSchedule req w) _) _
  | listSchedules req => exact .return (.return (harmless_read _ _ w) _) _

/-- Only a report on an activity that there is not can fail. -/
theorem harmless_reportResult (hw : WellFormed w.db) (env : Env) (activityId : String) (json : Json)
    (text : String) : Harmless (reportResult env activityId json text) w := by
  cases ha : activityOf w.db activityId with
  | none => exact fun _ _ => reportResult_unknown ha env json text
  | some a =>
    obtain ⟨s, hs⟩ := hw.stepOf (activityOf_mem ha).1
    exact .of_run (congrArg Prod.fst (reportResult_known ha hs env json text))

theorem harmless_reportFailure (hw : WellFormed w.db) (env : Env) (activityId message : String)
    {exhausted : Uuid → Prog World Status Unit}
    (he : ∀ a s t e, stepOf w.db a.stepId = some s →
      t.db = reported env (.failure message) a s w.db → ((exhausted s.id).run t).1 ≠ .error e) :
    Harmless (reportFailure env activityId message exhausted) w := by
  cases ha : activityOf w.db activityId with
  | none => exact fun _ _ => reportFailure_unknown ha env message exhausted
  | some a =>
    obtain ⟨s, hs⟩ := hw.stepOf (activityOf_mem ha).1
    intro e h
    rw [reportFailure_known ha hs] at h
    split at h
    · dsimp only at h
      split at h <;> cases h
    · exact absurd h (he a s _ e hs rfl)

theorem harmless_heartbeat (env : Env) (req : HeartbeatRequest) (w : World) :
    Harmless (Server.heartbeat env req) w := by
  refine .return (.mapError ?_ _) _
  intro e he
  unfold Prog.after
  rw [run_heartbeatUpdate] at he ⊢
  by_cases hn : (w.db.activities.filter (beats req.activityId)).length = 0
  · rw [Table.update_unselected hn]
  · rw [if_neg hn] at he
    cases he

theorem harmless_createTemporal (crates : Crates) (req : Temporal.CreateScheduleRequest)
    (w : World) : Harmless (Temporal.createSchedule crates req) w := by
  unfold Temporal.createSchedule
  cases Temporal.requestedRow crates req with
  | error status => exact .raise _ w
  | ok row => exact .mapError (harmless_execute _ w) _

/-- The texts of a request are read as the literals they are meant to be. -/
def plainUpdate (req : Temporal.UpdateScheduleRequest) : Bool :=
  req.schedule.all fun schedule =>
    (Temporal.assignments schedule).all (fun set => Temporal.plain set.text)

/-- Whether the schedule of an update is in the table. -/
def known (req : Temporal.UpdateScheduleRequest) (db : Db) : Bool :=
  db.schedules.any (named req.scheduleId (orDefault req.nameSpace))

/-- An update of an unknown schedule, or without a schedule, is refused before the splice. -/
theorem harmless_updateTemporal (spliced : Temporal.Spliced)
    {req : Temporal.UpdateScheduleRequest} {w : World}
    (hp : known req w.db = true → plainUpdate req = true) :
    Harmless (Temporal.updateSchedule spliced req) w := by
  refine .bind_query _ (fun present hpresent => ?_)
  cases present with
  | false => exact .raise _ w
  | true =>
    have hknown : known req w.db = true := Except.ok.inj hpresent
    rw [if_pos rfl]
    cases hs : req.schedule with
    | none => exact .raise _ w
    | some schedule =>
      have hplain : (Temporal.assignments schedule).all (fun set => Temporal.plain set.text) =
          true := by simpa [plainUpdate, hs] using hp hknown
      change Harmless ((Temporal.updateRow spliced req.scheduleId (orDefault req.nameSpace)
        (Temporal.assignments schedule)).mapError _) w
      rw [Temporal.updateRow, if_pos hplain]
      exact .mapError (harmless_execute _ w) _

/-- Beyond its quotes an update does what SQLite makes of it. -/
theorem run_updateTemporal_spliced (spliced : Temporal.Spliced)
    (req : Temporal.UpdateScheduleRequest) {schedule : Temporal.Schedule}
    (hs : req.schedule = some schedule)
    (hfound : w.db.schedules.any (named req.scheduleId (orDefault req.nameSpace)) = true)
    (hq : (Temporal.assignments schedule).all (fun set => Temporal.plain set.text) = false) :
    let outcome := spliced (Temporal.updateSql (Temporal.assignments schedule)) req.scheduleId
      (orDefault req.nameSpace) w.db.schedules
    (Temporal.updateSchedule spliced req).run w =
      ((Outcome.ofExcept outcome.1).mapError (Status.internal "Failed to update schedule"),
        { w with db := { w.db with schedules := outcome.2 } }) := by
  simp only [Temporal.updateSchedule, Prog.run_bind, Prog.run_mapError, run_query, hfound, hs,
    required, Temporal.updateRow, hq]
  rfl

theorem harmless_describeTemporal (crates : Crates) (req : Temporal.DescribeScheduleRequest)
    (w : World) : Harmless (Temporal.describeSchedule crates req) w := by
  refine .bind_query _ (fun count _ => ?_)
  split
  · exact .raise _ w
  · exact harmless_read _ _ w

theorem harmless_registerNamespace (namespaces : List String) (name : String) (w : World) :
    Harmless (Temporal.registerNamespace namespaces name) w := by
  refine .bind_read rfl (fun count _ => ?_)
  split
  · exact .mapError (harmless_execute _ w) _
  · exact .of_run rfl

theorem harmless_describeNamespace (namespaces : List String) (name : String) (w : World) :
    Harmless (Temporal.describeNamespace namespaces name) w := by
  refine .bind_read rfl (fun count _ => ?_)
  split
  · exact .raise _ w
  · exact .of_run rfl

/-- The request does not reach a statement with a text that ends before its quotes do. -/
def withinQuotes (db : Db) : Rpc → Bool
  | .updateTemporalSchedule req => !known req db || plainUpdate req
  | _ => true

theorem harmless_serve (s : Surroundings) (hw : WellFormed w.db) (hf : Fresh w.db env) {req : Rpc}
    (hp : withinQuotes w.db req = true) : Harmless (req.serve s env) w := by
  cases req with
  | ofNamespace req => exact .return (harmless_ofNamespace s env req w) _
  | startWorkflow req =>
    exact .return (.of_run (congrArg Prod.fst (run_startWorkflow hf req))) _
  | pollActivity req => exact .return (fun _ he => (pollActivity_error hf he).2) _
  | reportActivityResult req =>
    refine .return ?_ _
    unfold Server.reportActivityResult
    cases parsedResult s.crates req.resultJson with
    | error status => exact .raise _ w
    | ok json => exact .return (harmless_reportResult hw env _ _ _) _
  | reportActivityFailure req =>
    refine .return (.return (harmless_reportFailure hw env _ _ ?_) _) _
    intro a s t e _ _
    nofun
  | heartbeat req => exact .return (harmless_heartbeat env req w) _
  | registerNamespace name => exact harmless_registerNamespace _ name w
  | describeNamespace name => exact .return (harmless_describeNamespace _ name w) _
  | startWorkflowExecution req =>
    exact .return (.of_run (congrArg Prod.fst (run_startWorkflowExecution hf s.crates req))) _
  | pollActivityTaskQueue req =>
    exact .return (fun _ he => (pollActivityTaskQueue_error hf he).2) _
  | respondActivityTaskCompleted req => exact harmless_reportResult hw env _ _ _
  | respondActivityTaskFailed req =>
    refine harmless_reportFailure hw env _ _ (fun a s t e hs ht => ?_)
    rw [notifyRun, Prog.run_bind, Prog.run_mapError, run_query, ht, stepRunId_reported hs]
    nofun
  | createTemporalSchedule req => exact harmless_createTemporal _ req w
  | updateTemporalSchedule req =>
    refine harmless_updateTemporal _ (fun hknown => ?_)
    simpa [withinQuotes, hknown] using hp
  | describeTemporalSchedule req => exact .return (harmless_describeTemporal _ req w) _
  | deleteTemporalSchedule req =>
    exact .return (.mapError (harmless_execute _ w) _) _

/-- In every reachable state a request that is answered with an error has changed nothing, as long
as the texts of an update of a schedule in the table stay within their quotes. -/
theorem refused_unchanged (s : Surroundings) (hw : (server s.crates).Reachable w)
    (hf : Fresh w.db env) (req : Rpc) (hp : withinQuotes w.db req = true) {status : Status}
    (he : ((req.serve s env).run w).1 = .error status) : (req.serve s env).after w = w :=
  harmless_serve s ((reachable_readable hw).2) hf hp status he

def plainSurroundings (spliced : Temporal.Spliced) : Surroundings where
  crates := plainCrates
  codec := readingCodec
  serde := plainSerde
  created _ := (turn 0).now 0
  spliced
  namespaces := []

def storedSchedule : ScheduleRow :=
  ⟨"s", "default", .interval, some "", some 60, .skip, "w", "", "\x7b\x7d", some "", "\x7b\x7d"⟩

def withSchedule : List Op := [.writeSchedules [storedSchedule] false]

/-- A new name for what the schedule of this id in the default namespace starts. -/
def renameTo (scheduleId name : String) : Rpc :=
  .updateTemporalSchedule ⟨"", scheduleId,
    some ⟨none, some ⟨some ⟨"", some name, none, none⟩⟩, none⟩⟩

/-- A name that goes on as SQL. -/
def escaping : String := "x' WHERE schedule_id = ?1 AND namespace = ?2 RETURNING id --"

/-- SQLite changes the rows before it returns the first of them, and `execute` of `rusqlite` then
reports that there are rows to return. -/
def returning : Temporal.Spliced := fun sql scheduleId nameSpace rows =>
  if sql = Temporal.updateSql [.workflowName escaping] then
    (.error (.other "Execute returned results - did you mean to call query?"),
      Table.update (named scheduleId nameSpace) (Temporal.Assignment.apply (.workflowName "x")) rows)
  else (.ok (), rows)

/-- Of an unknown schedule the same text is refused before it is spliced. -/
theorem refused_unknown_schedule :
    (((renameTo "t" escaping).serve (plainSurroundings returning) (turn 1)).after
      ((server plainCrates).ending .empty (script withSchedule))) =
        (server plainCrates).ending .empty (script withSchedule) := by
  have hadmitted : (server plainCrates).Admitted .empty (script withSchedule) := by decide +kernel
  have hw : (server plainCrates).Reachable ((server plainCrates).ending .empty
      (script withSchedule)) := ⟨.empty, _, rfl, Machine.run_replay _ _ hadmitted⟩
  have notFound : (((renameTo "t" escaping).serve (plainSurroundings returning) (turn 1)).run
      ((server plainCrates).ending .empty (script withSchedule))).1 =
        .error ⟨.notFound, "Schedule not found"⟩ := rfl
  exact refused_unchanged (plainSurroundings returning) hw (by decide +kernel) _
    (by decide +kernel) notFound

def renamed (scheduleId : String) (db : Db) : Db :=
  { db with
    schedules := (Table.update (named scheduleId "default")
      (Temporal.Assignment.apply (.workflowName "x")) db.schedules) }

theorem run_returning (scheduleId : String) (env : Env)
    (hfound : w.db.schedules.any (named scheduleId "default") = true)
    (hq : Temporal.plain escaping = false) :
    ((renameTo scheduleId escaping).serve (plainSurroundings returning) env).run w =
      (.error (Status.internal "Failed to update schedule"
          (.other "Execute returned results - did you mean to call query?")),
        { w with db := renamed scheduleId w.db }) := by
  have hrun := run_updateTemporal_spliced (w := w) returning
    ⟨"", scheduleId, some ⟨none, some ⟨some ⟨"", some escaping, none, none⟩⟩, none⟩⟩ rfl
    hfound (show (Temporal.plain escaping && true) = false by rw [hq]; rfl)
  rw [show Temporal.assignments ⟨none, some ⟨some ⟨"", some escaping, none, none⟩⟩, none⟩ =
    [.workflowName escaping] from rfl] at hrun
  simp only [returning, if_true] at hrun
  exact hrun

/-- An update that is answered with an error has changed its row. -/
theorem refused_changed :
    ¬ ∀ s w env (req : Rpc) status, (server s.crates).Reachable w → Fresh w.db env →
      ((req.serve s env).run w).1 = .error status → (req.serve s env).after w = w := by
  intro h
  let w := (server plainCrates).ending .empty (script withSchedule)
  have hadmitted : (server plainCrates).Admitted .empty (script withSchedule) := by decide +kernel
  have hw : (server plainCrates).Reachable w :=
    ⟨.empty, _, rfl, Machine.run_replay _ _ hadmitted⟩
  have hrun := run_returning (w := w) "s" (turn 1) (by decide +kernel) (by decide +kernel)
  have hsame := h (plainSurroundings returning) w (turn 1) (renameTo "s" escaping) _ hw
    (by decide +kernel) (congrArg Prod.fst hrun)
  have hrows := congrArg (fun w => w.db.schedules.map ScheduleRow.actionWorkflowName)
    ((congrArg Prod.snd hrun).symm.trans hsame)
  exact absurd hrows (by decide +kernel)

end Khronos.Proofs
