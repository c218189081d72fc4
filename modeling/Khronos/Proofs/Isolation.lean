import Khronos.Proofs.Catalogued
import Khronos.Server.Requests

namespace Khronos.Proofs
open Time Lib Db.Schedules Db.Workflows Server Catalogue

/-- Two databases that agree on the rows of a namespace, and on when its schedules were made. -/
structure Agree (n : String) (created created' : String → Clock) (db db' : Db) : Prop where
  workflows : db.workflows.filter (fun r => r.nameSpace = n) =
    db'.workflows.filter (fun r => r.nameSpace = n)
  schedules : db.schedules.filter (fun r => r.nameSpace = n) =
    db'.schedules.filter (fun r => r.nameSpace = n)
  created : ∀ r ∈ db.schedules, r.nameSpace = n → created r.scheduleId = created' r.scheduleId

/-- What is left of a database where only the rows of a namespace may have changed. -/
structure Spares (n : String) (db db' : Db) : Prop where
  workflows : db'.workflows.filter (fun r => r.nameSpace ≠ n) =
    db.workflows.filter (fun r => r.nameSpace ≠ n)
  schedules : db'.schedules.filter (fun r => r.nameSpace ≠ n) =
    db.schedules.filter (fun r => r.nameSpace ≠ n)
  workflowSteps : db'.workflowSteps = db.workflowSteps
  activities : db'.activities = db.activities

theorem Spares.refl (n : String) (db : Db) : Spares n db db := ⟨rfl, rfl, rfl, rfl⟩

theorem Spares.trans (h : Spares n db db') (h' : Spares n db' db'') : Spares n db db'' :=
  ⟨h'.workflows.trans h.workflows, h'.schedules.trans h.schedules,
    h'.workflowSteps.trans h.workflowSteps, h'.activities.trans h.activities⟩

/-- No run of this id is of another namespace. -/
def RunWithin (n runId : String) (db : Db) : Prop :=
  ∀ r ∈ db.workflows, runKey r = runId → r.nameSpace = n

/-- No schedule of this id is of another namespace. -/
def ScheduleWithin (n scheduleId : String) (db : Db) : Prop :=
  ∀ r ∈ db.schedules, r.scheduleId = scheduleId → r.nameSpace = n

/-- What a request looks up by id alone is not of another namespace. -/
def Confined (db : Db) (req : NamespaceRequest) : Prop :=
  match req with
  | .getWorkflow r => RunWithin req.nameSpace r.workflowRunId db
  | .cancelWorkflow r => RunWithin req.nameSpace r.workflowRunId db
  | .createSchedule r => ScheduleWithin req.nameSpace r.scheduleId db
  | .updateSchedule r => ScheduleWithin req.nameSpace r.scheduleId db
  | .listWorkflows _ => True
  | .deleteSchedule _ => True
  | .listSchedules _ => True

instance (n runId : String) (db : Db) : Decidable (RunWithin n runId db) :=
  inferInstanceAs (Decidable (∀ _ ∈ _, _ → _))

instance (n scheduleId : String) (db : Db) : Decidable (ScheduleWithin n scheduleId db) :=
  inferInstanceAs (Decidable (∀ _ ∈ _, _ → _))

instance (db : Db) : (req : NamespaceRequest) → Decidable (Confined db req)
  | .getWorkflow _ => inferInstanceAs (Decidable (RunWithin _ _ _))
  | .cancelWorkflow _ => inferInstanceAs (Decidable (RunWithin _ _ _))
  | .createSchedule _ => inferInstanceAs (Decidable (ScheduleWithin _ _ _))
  | .updateSchedule _ => inferInstanceAs (Decidable (ScheduleWithin _ _ _))
  | .listWorkflows _ => .isTrue trivial
  | .deleteSchedule _ => .isTrue trivial
  | .listSchedules _ => .isTrue trivial

theorem requestedSchedule_key (h : requestedSchedule req = .ok schedule) :
    schedule.scheduleId = req.scheduleId ∧ schedule.nameSpace = req.nameSpace := by
  cases he : requestedEntry req with
  | none =>
    obtain ⟨status, hs⟩ := requestedSchedule_none he
    rw [hs] at h
    cases h
  | some e =>
    rw [requestedSchedule_some he] at h
    cases h
    refine ⟨rfl, ?_⟩
    unfold requestedEntry at he
    split at he
    · split at he
      · cases he
        rfl
      · cases he
    · cases he

section
variable {n : String} {created created' : String → Clock} {w w' : World}

/-- A selection among the runs of a namespace. -/
theorem Agree.runs (h : Agree n created created' w.db w'.db) {p : WorkflowRow → Bool}
    (hp : ∀ r ∈ w.db.workflows, p r = true → r.nameSpace = n)
    (hp' : ∀ r ∈ w'.db.workflows, p r = true → r.nameSpace = n) :
    w.db.workflows.filter p = w'.db.workflows.filter p :=
  Table.filter_agree h.workflows (fun r hr ht => decide_eq_true (hp r hr ht))
    (fun r hr ht => decide_eq_true (hp' r hr ht))

/-- A selection among the schedules of a namespace. -/
theorem Agree.rows (h : Agree n created created' w.db w'.db) {p : ScheduleRow → Bool}
    (hp : ∀ r ∈ w.db.schedules, p r = true → r.nameSpace = n)
    (hp' : ∀ r ∈ w'.db.schedules, p r = true → r.nameSpace = n) :
    w.db.schedules.filter p = w'.db.schedules.filter p :=
  Table.filter_agree h.schedules (fun r hr ht => decide_eq_true (hp r hr ht))
    (fun r hr ht => decide_eq_true (hp' r hr ht))

theorem Agree.named (h : Agree n created created' w.db w'.db) {scheduleId : String}
    (hw : ScheduleWithin n scheduleId w.db) (hw' : ScheduleWithin n scheduleId w'.db) :
    w.db.schedules.filter (fun r => r.scheduleId = scheduleId) =
      w'.db.schedules.filter (fun r => r.scheduleId = scheduleId) :=
  h.rows (fun r hr ht => hw r hr (of_decide_eq_true ht))
    (fun r hr ht => hw' r hr (of_decide_eq_true ht))

theorem Agree.listed (h : Agree n created created' w.db w'.db) :
    oldestFirst created (w.db.schedules.filter (fun r => r.nameSpace = n)) =
      oldestFirst created' (w'.db.schedules.filter (fun r => r.nameSpace = n)) := by
  rw [← h.schedules]
  have hsame : ∀ r ∈ w.db.schedules.filter (fun r => r.nameSpace = n),
      created r.scheduleId = created' r.scheduleId := by
    intro r hr
    obtain ⟨hr, hn⟩ := List.mem_filter.mp hr
    exact h.created r hr (of_decide_eq_true hn)
  have hmap := List.map_insertionSort
    (r := fun a b : ScheduleRow => textLe (created a.scheduleId).datetime
      (created b.scheduleId).datetime = true)
    (s := fun a b : ScheduleRow => textLe (created' a.scheduleId).datetime
      (created' b.scheduleId).datetime = true)
    id (w.db.schedules.filter (fun r => r.nameSpace = n))
    (fun a ha b hb => by rw [hsame a ha, hsame b hb]; rfl)
  rwa [List.map_id, List.map_id] at hmap

theorem getWorkflow_agrees (crates : Crates) (codec : Db.Codec) (req : GetWorkflowRequest)
    (hdb : w.db.workflows.filter (fun r => runKey r = req.workflowRunId) =
      w'.db.workflows.filter (fun r => runKey r = req.workflowRunId)) :
    ((Server.getWorkflow crates codec req).run w).1 =
      ((Server.getWorkflow crates codec req).run w').1 := by
  simp only [Server.getWorkflow, Db.Workflows.getWorkflow, Prog.run_bind, Prog.run_mapError,
    run_query, hdb]
  cases w'.db.workflows.filter (fun r => runKey r = req.workflowRunId) with
  | nil => rfl
  | cons r rest =>
    dsimp only
    cases (rowToWorkflow crates codec (workflowColumns crates r)).map some with
    | error e => rfl
    | ok found => cases found <;> rfl

theorem cancelWorkflow_agrees (env : Env) (req : CancelWorkflowRequest)
    (hdb : w.db.workflows.filter (cancellable req.workflowRunId) =
      w'.db.workflows.filter (cancellable req.workflowRunId)) :
    ((Server.cancelWorkflow env req).run w).1 = ((Server.cancelWorkflow env req).run w').1 := by
  unfold Server.cancelWorkflow
  rw [Prog.run_bind_pure, Prog.run_bind_pure, Prog.run_mapError, Prog.run_mapError,
    run_cancelWorkflow, run_cancelWorkflow, hdb]

theorem listWorkflows_agrees (crates : Crates) (codec : Db.Codec) (req : ListWorkflowsRequest)
    (hdb : w.db.workflows.filter (inNamespace (orDefault req.nameSpace) none) =
      w'.db.workflows.filter (inNamespace (orDefault req.nameSpace) none)) :
    ((Server.listWorkflows crates codec req).run w).1 =
      ((Server.listWorkflows crates codec req).run w').1 := by
  simp only [Server.listWorkflows, Db.Workflows.listWorkflows, Prog.run_bind,
    Prog.run_mapError, run_query, hdb]
  cases (newestFirst (w'.db.workflows.filter (inNamespace (orDefault req.nameSpace) none))).mapM
    (fun r => rowToWorkflow crates codec (workflowColumns crates r)) <;> rfl

theorem exists_iff_filter {rows : List ScheduleRow} {scheduleId : String} :
    (∃ r ∈ rows, r.scheduleId = scheduleId) ↔
      rows.filter (fun r => r.scheduleId = scheduleId) ≠ [] := by
  simp [List.filter_eq_nil_iff]

theorem createSchedule_agrees (serde : Serde) (req : CreateScheduleRequest)
    (hdb : w.db.schedules.filter (fun r => r.scheduleId = req.scheduleId) =
      w'.db.schedules.filter (fun r => r.scheduleId = req.scheduleId)) :
    ((createSchedule serde req).run w).1 = ((createSchedule serde req).run w').1 := by
  unfold createSchedule
  cases hreq : requestedSchedule req with
  | error status => rfl
  | ok schedule =>
    obtain ⟨hid, _⟩ := requestedSchedule_key hreq
    simp only [Prog.run_bind, Prog.run_mapError, insertSchedule, run_execute, hid,
      exists_iff_filter, hdb]
    by_cases hn : w'.db.schedules.filter (fun r => r.scheduleId = req.scheduleId) = []
    · rw [if_neg (not_not.mpr hn), if_neg (not_not.mpr hn)]
      rfl
    · rw [if_pos hn, if_pos hn]
      rfl

theorem updateSchedule_agrees (crates : Crates) (serde : Serde) (req : UpdateScheduleRequest)
    (hdb : w.db.schedules.filter (fun r => r.scheduleId = req.scheduleId) =
      w'.db.schedules.filter (fun r => r.scheduleId = req.scheduleId)) :
    ((updateSchedule crates serde req).run w).1 =
      ((updateSchedule crates serde req).run w').1 := by
  unfold updateSchedule
  cases required "spec" req.spec with
  | error status => rfl
  | ok spec =>
    simp only [getSchedule, Prog.run_bind, Prog.run_mapError, run_query, hdb]
    cases w'.db.schedules.filter (fun r => r.scheduleId = req.scheduleId) with
    | nil => rfl
    | cons r rest =>
      dsimp only
      cases (rowToSchedule crates serde r).map some with
      | error e => rfl
      | ok found =>
        cases found with
        | none => rfl
        | some existing =>
          simp only [Outcome.ofExcept, Outcome.mapError, Prog.resume_ok]
          cases coreSpec spec <;> rfl

theorem deleteSchedule_agrees (req : DeleteScheduleRequest)
    (hdb : w.db.schedules.filter (named req.scheduleId req.nameSpace) =
      w'.db.schedules.filter (named req.scheduleId req.nameSpace)) :
    ((Server.deleteSchedule req).run w).1 = ((Server.deleteSchedule req).run w').1 := by
  simp only [Server.deleteSchedule, Db.Schedules.deleteSchedule, Prog.run_bind, Prog.run_mapError,
    run_execute, hdb]
  rfl

/-- What a row that is decoded holds, and what it is read as. -/
theorem rowToSchedule_ok {crates : Crates} {serde : Serde}
    (h : rowToSchedule crates serde r = .ok s) :
    s.scheduleId = r.scheduleId ∧ s.action.args ∈ serde.mapFromStr r.actionArgsJson := by
  unfold rowToSchedule at h
  obtain ⟨spec, -, h⟩ := bind_eq_ok.mp h
  obtain ⟨args, hargs, h⟩ := bind_eq_ok.mp h
  obtain ⟨timeouts, -, h⟩ := bind_eq_ok.mp h
  cases h
  cases hm : serde.mapFromStr r.actionArgsJson with
  | none =>
    rw [hm] at hargs
    cases hargs
  | some m =>
    rw [hm] at hargs
    cases hargs
    exact ⟨rfl, rfl⟩

theorem rowToSchedule_id {crates : Crates} {serde : Serde}
    (h : rowToSchedule crates serde r = .ok s) : s.scheduleId = r.scheduleId :=
  (rowToSchedule_ok h).1

theorem listSchedules_agrees (crates : Crates) (serde : Serde) (req : ListSchedulesRequest)
    (h : Agree (orDefault req.nameSpace) created created' w.db w'.db) :
    ((Server.listSchedules crates serde created req).run w).1 =
      ((Server.listSchedules crates serde created' req).run w').1 := by
  have hlisted := h.listed
  simp only [Server.listSchedules, Db.Schedules.listSchedules, Prog.run_bind,
    Prog.run_mapError, run_query, ← hlisted]
  cases hm : (oldestFirst created (w.db.schedules.filter
      (fun r => r.nameSpace = orDefault req.nameSpace))).mapM (rowToSchedule crates serde) with
  | error e => rfl
  | ok schedules =>
    have hsame : schedules.map (scheduleToInfo created) =
        schedules.map (scheduleToInfo created') := by
      apply List.map_congr_left
      intro s hs
      obtain ⟨r, hr, hread⟩ := mapM_mem hm hs
      rw [oldestFirst, List.mem_insertionSort] at hr
      obtain ⟨hr, hn⟩ := List.mem_filter.mp hr
      unfold scheduleToInfo
      rw [rowToSchedule_id hread, h.created r hr (of_decide_eq_true hn)]
    simp only [Outcome.ofExcept, Outcome.mapError, Prog.resume_ok, hsame]
    rfl

end

/-- The actions of a program change only rows of a namespace. -/
abbrev KeepsTo (n : String) (p : Prog World ε α) : Prop :=
  p.Within (fun w w' => Spares n w.db w'.db)

theorem keepsTo_query (f : Db → Except DbError α) : KeepsTo n (query f) :=
  Prog.Within.query (fun w => Spares.refl n w.db) _ _

theorem keepsTo_send (e : EngineEvent) : KeepsTo n (send e : Prog World ε Unit) :=
  fun w => ⟨Spares.refl n w.db, trivial⟩

theorem keepsTo_execute {f : Db → Except DbError (α × Db)}
    (h : ∀ db a db', f db = .ok (a, db') → Spares n db db') : KeepsTo n (execute f) :=
  within_execute (Spares.refl n) h

theorem keepsTo_schedules {db : Db} {rows : List ScheduleRow}
    (h : rows.filter (fun r => r.nameSpace ≠ n) = db.schedules.filter (fun r => r.nameSpace ≠ n)) :
    Spares n db { db with schedules := rows } := ⟨rfl, h, rfl, rfl⟩

theorem keepsTo_createSchedule (serde : Serde) (req : CreateScheduleRequest) :
    KeepsTo req.nameSpace (createSchedule serde req) := by
  unfold createSchedule
  cases hreq : requestedSchedule req with
  | error status => trivial
  | ok schedule =>
    refine Prog.Within.bind (Prog.Within.mapError (keepsTo_execute ?_) _)
      (fun _ => Prog.Within.bind (keepsTo_send _) (fun _ => trivial))
    intro db a db' h
    split at h
    · cases h
    · cases h
      apply keepsTo_schedules
      have hns : (scheduleRow serde schedule).nameSpace = req.nameSpace :=
        (requestedSchedule_key hreq).2
      simp [List.filter_append, hns]

theorem keepsTo_updateSchedule (crates : Crates) (serde : Serde) (req : UpdateScheduleRequest) :
    KeepsTo req.nameSpace (updateSchedule crates serde req) := by
  unfold updateSchedule
  cases required "spec" req.spec with
  | error status => trivial
  | ok spec =>
    refine Prog.Within.bind (Prog.Within.mapError (keepsTo_query _) _) (fun existing => ?_)
    cases existing with
    | none => trivial
    | some existing =>
      dsimp only
      cases coreSpec spec with
      | error status => trivial
      | ok newSpec =>
        refine Prog.Within.bind (Prog.Within.mapError (keepsTo_execute ?_) _)
          (fun _ => Prog.Within.bind (keepsTo_send _) (fun _ => trivial))
        intro db a db' h
        cases h
        apply keepsTo_schedules
        apply Table.filter_update
        intro r _ hr
        have hns : r.nameSpace = req.nameSpace := by
          have h := of_decide_eq_true (Bool.and_eq_true_iff.mp hr).2
          exact h
        exact ⟨by simp [hns], by simp [setSchedule, hns]⟩

theorem keepsTo_deleteSchedule (req : DeleteScheduleRequest) :
    KeepsTo req.nameSpace (Server.deleteSchedule req) := by
  refine Prog.Within.bind (Prog.Within.mapError (keepsTo_execute ?_) _)
    (fun _ => Prog.Within.bind (keepsTo_send _) (fun _ => trivial))
  intro db a db' h
  cases h
  apply keepsTo_schedules
  rw [List.filter_filter]
  apply List.filter_congr
  intro r _
  by_cases hns : r.nameSpace = req.nameSpace <;> simp [named, hns]

/-- Only a run of the id is cancelled. -/
theorem cancelWorkflow_spares {env : Env} {req : CancelWorkflowRequest}
    (h : RunWithin n req.workflowRunId w.db) :
    Spares n w.db ((Server.cancelWorkflow env req).after w).db := by
  have hdb : ((Server.cancelWorkflow env req).after w).db = { w.db with
      workflows := Table.update (cancellable req.workflowRunId) (cancelRun (env.now 0))
        w.db.workflows } := by
    unfold Server.cancelWorkflow
    rw [Prog.after_bind_pure, Prog.after, Prog.run_mapError, run_cancelWorkflow]
  rw [hdb]
  refine ⟨Table.filter_update ?_, rfl, rfl, rfl⟩
  intro r hr hp
  have hkey : runKey r = req.workflowRunId := of_decide_eq_true (Bool.and_eq_true_iff.mp hp).1
  exact ⟨by simp [h r hr hkey], by simp [cancelRun, h r hr hkey]⟩

/-- The outcome of a request is made from that of the program that serves it. -/
theorem agrees_return {p p' : Prog World ε α} (g : α → β) (h : (p.run w).1 = (p'.run w').1) :
    ((p >>= fun a => pure (g a)).run w).1 = ((p' >>= fun a => pure (g a)).run w').1 := by
  rw [Prog.run_bind_pure, Prog.run_bind_pure, h]

theorem KeepsTo.return {p : Prog World ε α} (h : KeepsTo n p) (g : α → β) :
    KeepsTo n (p >>= fun a => pure (g a)) :=
  Prog.Within.bind h (fun _ => trivial)

theorem KeepsTo.after {p : Prog World ε α} (h : KeepsTo n p) (w : World) :
    Spares n w.db (p.after w).db :=
  Prog.Within.run (R := fun w w' : World => Spares n w.db w'.db)
    (fun w => Spares.refl n w.db) Spares.trans h w

theorem serveNamespace_spares (crates : Crates) (codec : Db.Codec) (serde : Serde)
    (created : String → Clock) (env : Env) {req : NamespaceRequest}
    (h : ∀ c, req = .cancelWorkflow c → Confined w.db req) :
    Spares req.nameSpace w.db
      ((serveNamespace crates codec serde created env req).after w).db := by
  cases req with
  | getWorkflow req =>
    apply KeepsTo.after
    apply KeepsTo.return
    refine Prog.Within.bind (Prog.Within.mapError (keepsTo_query _) _) (fun found => ?_)
    cases found <;> trivial
  | cancelWorkflow req =>
    rw [serveNamespace, Prog.after_bind_pure]
    exact cancelWorkflow_spares (h req rfl)
  | listWorkflows req =>
    apply KeepsTo.after
    apply KeepsTo.return
    exact KeepsTo.return (Prog.Within.mapError (keepsTo_query _) _) _
  | createSchedule req =>
    apply KeepsTo.after
    apply KeepsTo.return
    exact (keepsTo_createSchedule serde req).return _
  | updateSchedule req =>
    apply KeepsTo.after
    apply KeepsTo.return
    exact (keepsTo_updateSchedule crates serde req).return _
  | deleteSchedule req =>
    apply KeepsTo.after
    apply KeepsTo.return
    exact (keepsTo_deleteSchedule req).return _
  | listSchedules req =>
    apply KeepsTo.after
    apply KeepsTo.return
    apply KeepsTo.return
    exact KeepsTo.return (Prog.Within.mapError (keepsTo_query _) _) _

theorem serveNamespace_agrees (crates : Crates) (codec : Db.Codec) (serde : Serde) (env : Env)
    {req : NamespaceRequest} (hc : Confined w.db req) (hc' : Confined w'.db req)
    (h : Agree req.nameSpace created created' w.db w'.db) :
    ((serveNamespace crates codec serde created env req).run w).1 =
      ((serveNamespace crates codec serde created' env req).run w').1 := by
  cases req with
  | getWorkflow req =>
    apply agrees_return
    apply getWorkflow_agrees
    exact h.runs (fun r hr ht => hc r hr (of_decide_eq_true ht))
      (fun r hr ht => hc' r hr (of_decide_eq_true ht))
  | cancelWorkflow req =>
    apply agrees_return
    apply cancelWorkflow_agrees
    exact h.runs (fun r hr ht => hc r hr (of_decide_eq_true (Bool.and_eq_true_iff.mp ht).1))
      (fun r hr ht => hc' r hr (of_decide_eq_true (Bool.and_eq_true_iff.mp ht).1))
  | listWorkflows req =>
    apply agrees_return
    apply listWorkflows_agrees
    exact h.runs (fun r _ ht => of_decide_eq_true (Bool.and_eq_true_iff.mp ht).1)
      (fun r _ ht => of_decide_eq_true (Bool.and_eq_true_iff.mp ht).1)
  | createSchedule req =>
    exact agrees_return _ (agrees_return _ (createSchedule_agrees serde req (h.named hc hc')))
  | updateSchedule req =>
    exact agrees_return _
      (agrees_return _ (updateSchedule_agrees crates serde req (h.named hc hc')))
  | deleteSchedule req =>
    apply agrees_return
    apply agrees_return
    apply deleteSchedule_agrees
    exact h.rows (fun r _ ht => of_decide_eq_true (Bool.and_eq_true_iff.mp ht).2)
      (fun r _ ht => of_decide_eq_true (Bool.and_eq_true_iff.mp ht).2)
  | listSchedules req =>
    exact agrees_return _ (agrees_return _ (listSchedules_agrees crates serde req h))

/-- A request leaves the rows of other namespaces as they are, where the run that it may cancel
is not among them; and it answers by the rows of its namespace alone, where what it looks up by
id alone is not of another. -/
theorem requests_isolated (crates : Crates) (codec : Db.Codec) (serde : Serde)
    (req : NamespaceRequest) :
    (∀ created env w, (∀ c, req = .cancelWorkflow c → Confined w.db req) →
      Spares req.nameSpace w.db ((serveNamespace crates codec serde created env req).after w).db) ∧
    ∀ created created' env w w', Confined w.db req → Confined w'.db req →
      Agree req.nameSpace created created' w.db w'.db →
      ((serveNamespace crates codec serde created env req).run w).1 =
        ((serveNamespace crates codec serde created' env req).run w').1 :=
  ⟨fun created env _ h => serveNamespace_spares crates codec serde created env h,
    fun _ _ env _ _ hc hc' h => serveNamespace_agrees crates codec serde env hc hc' h⟩

def runOf (turnOf : Nat) (nameSpace : String) : WorkflowRow :=
  workflowRow (startedInstance (turn turnOf) ⟨"x", [], "", "", none, nameSpace⟩)

/-- A run of the default namespace. -/
def oneRun : World := .ofDb { Db.empty with workflows := [runOf 0 ""] }

/-- The same beside a run of another. -/
def twoRuns : World := .ofDb { Db.empty with workflows := [runOf 0 "", runOf 1 "b"] }

/-- A request to cancel the run of the default namespace. -/
def cancelAs (nameSpace : String) : NamespaceRequest := .cancelWorkflow ⟨"id-0", nameSpace⟩

def servePlain (req : NamespaceRequest) : Prog World Status NamespaceReply :=
  serveNamespace plainCrates readingCodec plainSerde (fun _ => (turn 2).now 0) (turn 2) req

theorem requests_isolated_cancel :
    Spares "default" twoRuns.db ((servePlain (cancelAs "")).after twoRuns).db ∧
      ((servePlain (cancelAs "")).run oneRun).1 = ((servePlain (cancelAs "")).run twoRuns).1 := by
  have hone : Confined oneRun.db (cancelAs "") := by decide
  have htwo : Confined twoRuns.db (cancelAs "") := by decide
  have h := requests_isolated plainCrates readingCodec plainSerde (cancelAs "")
  exact ⟨h.1 _ _ _ (fun _ _ => htwo), h.2 _ _ _ _ _ hone htwo
    ⟨rfl, rfl, fun _ _ _ => rfl⟩⟩

/-- A run is cancelled, and the answer depends on it, under any other namespace. -/
theorem cancel_elsewhere :
    (¬ ∀ req w, Spares (NamespaceRequest.nameSpace req) w.db ((servePlain req).after w).db) ∧
    ¬ ∀ req w w', Agree (NamespaceRequest.nameSpace req) (fun _ => (turn 2).now 0)
        (fun _ => (turn 2).now 0) w.db w'.db →
      ((servePlain req).run w).1 = ((servePlain req).run w').1 := by
  constructor
  · intro h
    have hruns := (h (cancelAs "c") oneRun).workflows
    exact absurd (congrArg (List.map WorkflowRow.state) hruns) (by decide)
  · intro h
    have hsame := h (cancelAs "c") oneRun .empty ⟨rfl, rfl, fun _ _ _ => rfl⟩
    cases hsame

end Khronos.Proofs
