import Khronos.Proofs.Catalogued
import Khronos.Proofs.Lasting

namespace Khronos.Proofs
open Time Lib Db.Activities Db.Workflows Server

/-- What no write changes in the row of a run: its arguments, and that it has no result. -/
structure SameInput (r r' : WorkflowRow) : Prop where
  id : r'.runId = r.runId
  args : r'.argsJson = r.argsJson
  noResult : r.resultJson = none → r'.resultJson = none

theorem SameInput.refl (r : WorkflowRow) : SameInput r r :=
  ⟨rfl, rfl, fun h => h⟩

theorem SameInput.trans (h : SameInput r q) (h' : SameInput q p) : SameInput r p :=
  ⟨h'.id.trans h.id, h'.args.trans h.args, fun hn => h'.noResult (h.noResult hn)⟩

def RunsKept (db db' : Db) : Prop := ∀ r ∈ db.workflows, ∃ r' ∈ db'.workflows, SameInput r r'

theorem runsKept_update {f : WorkflowRow → WorkflowRow} (hf : ∀ r, SameInput r (f r))
    (p : WorkflowRow → Bool) (db : Db) :
    RunsKept db { db with workflows := Table.update p f db.workflows } := by
  intro r hr
  refine ⟨_, Table.update_mem hr, ?_⟩
  split
  · exact hf r
  · exact .refl r

theorem Write.runsKept (h : Write db db') : RunsKept db db' := by
  have hsame : RunsKept db db := fun r hr => ⟨r, hr, .refl r⟩
  cases h with
  | insertRun r hid hstate hstarted hcompleted =>
    exact fun r hr => ⟨r, List.mem_append_left _ hr, .refl r⟩
  | updateRun runId state done =>
    apply runsKept_update
    exact fun r => ⟨rfl, rfl, fun _ => rfl⟩
  | cancelRun runId now =>
    apply runsKept_update
    exact fun r => ⟨rfl, rfl, fun h => h⟩
  | startRun runId now =>
    apply runsKept_update
    exact fun r => ⟨rfl, rfl, fun h => h⟩
  | _ => exact hsame

/-- Each step is one that was there, with its arguments, or one of a run that was not. -/
def StepsKept (db db' : Db) : Prop :=
  ∀ s' ∈ db'.workflowSteps,
    (∃ s ∈ db.workflowSteps, s.workflowRunId = s'.workflowRunId ∧ s.argsJson = s'.argsJson) ∨
      ∀ r ∈ db.workflows, r.runId ≠ s'.workflowRunId

theorem stepsKept_same (h : db'.workflowSteps = db.workflowSteps) : StepsKept db db' :=
  fun s hs => .inl ⟨s, h ▸ hs, rfl, rfl⟩

theorem stepsKept_update {f : WorkflowStepRow → WorkflowStepRow}
    (hf : ∀ s, s.workflowRunId = (f s).workflowRunId ∧ s.argsJson = (f s).argsJson)
    (p : WorkflowStepRow → Bool) (db : Db) :
    StepsKept db { db with workflowSteps := Table.update p f db.workflowSteps } := by
  intro s' hs'
  obtain ⟨s, hs, rfl⟩ := Table.mem_update.mp hs'
  refine .inl ⟨s, hs, ?_⟩
  split
  · exact hf s
  · exact ⟨rfl, rfl⟩

theorem Amend.stepsKept {P : WorkflowState → Prop} (h : Amend P db db') : StepsKept db db' := by
  cases h with
  | updateStep stepId state attempt result retryAt hstate hretry =>
    apply stepsKept_update
    exact fun s => ⟨rfl, rfl⟩
  | resetStep stepId =>
    apply stepsKept_update
    exact fun s => ⟨rfl, rfl⟩
  | _ => exact stepsKept_same rfl

/-- The inputs of all runs are kept. -/
structure InputsKept (db db' : Db) : Prop where
  runs : RunsKept db db'
  steps : StepsKept db db'

theorem InputsKept.refl (db : Db) : InputsKept db db :=
  ⟨fun r hr => ⟨r, hr, .refl r⟩, stepsKept_same rfl⟩

theorem InputsKept.trans (h : InputsKept db db') (h' : InputsKept db' db'') :
    InputsKept db db'' where
  runs := by
    intro r hr
    obtain ⟨q, hq, hrq⟩ := h.runs r hr
    obtain ⟨p, hp, hqp⟩ := h'.runs q hq
    exact ⟨p, hp, hrq.trans hqp⟩
  steps := by
    have hnew : ∀ {u}, (∀ r ∈ db'.workflows, r.runId ≠ u) → ∀ r ∈ db.workflows, r.runId ≠ u := by
      intro u hu r hr he
      obtain ⟨q, hq, hrq⟩ := h.runs r hr
      exact hu q hq (hrq.id.trans he)
    intro s'' hs''
    rcases h'.steps s'' hs'' with ⟨s', hs', hrun', hargs'⟩ | hn
    · rcases h.steps s' hs' with ⟨s, hs, hrun, hargs⟩ | hn
      · exact .inl ⟨s, hs, hrun.trans hrun', hargs.trans hargs'⟩
      · exact .inr (hrun' ▸ hn)
    · exact .inr (hnew hn)

/-- The steps of a run that has just been started. -/
theorem stepsKept_new (hf : Fresh db env) {new : List WorkflowStepRow}
    (hnew : ∀ s ∈ new, s.workflowRunId = env.uuid 0)
    (hs : db'.workflowSteps = db.workflowSteps ++ new) : StepsKept db db' := by
  intro s hmem
  rcases List.mem_append.mp (hs ▸ hmem) with hmem | hmem
  · exact .inl ⟨s, hmem, rfl, rfl⟩
  · refine .inr (fun r hr he => ?_)
    exact (fresh_unused hf (by omega)).1 ⟨r, hr, he.trans (hnew s hmem)⟩

theorem newSteps_run (env : Env) (runId : Uuid) (args : ActivityStep → Json)
    (defs : List ActivityStep) : ∀ s ∈ newSteps env runId args defs, s.workflowRunId = runId := by
  intro s hs
  obtain ⟨d, _, rfl⟩ := List.mem_map.mp hs
  rfl

theorem exec_stepsKept (hw : WellFormed w.db) (hf : Fresh w.db env) (crates : Crates) (op : Op) :
    StepsKept w.db ((exec crates env op).after w).db := by
  have hamends : Op.amending (fun _ => True) op →
      StepsKept w.db ((exec crates env op).after w).db := by
    intro h
    have hwithin := (exec_amends (P := fun _ => True) crates env h).within
    have hall := hwithin.mono (fun hamend (hk : InputsKept w.db _) =>
      hk.trans ⟨hamend.write.runsKept, hamend.stepsKept⟩)
    exact (hall.run (fun _ h => h) (fun hab hbc h => hbc (hab h)) w (.refl w.db)).steps
  cases op with
  | startWorkflow req =>
    unfold exec
    rw [Prog.after_bind_pure, Prog.after, run_startWorkflow hf]
    exact stepsKept_new hf (newSteps_run _ _ _ _) rfl
  | startWorkflowExecution req =>
    unfold exec
    rw [Prog.after_bind_pure, Prog.after, run_startWorkflowExecution hf]
    exact stepsKept_new hf (newSteps_run _ _ _ _) rfl
  | scheduleFire scheduleId =>
    rw [after_scheduleFire]
    rcases processSchedule_cases hw hf crates scheduleId with ⟨t, ht, he⟩ | ⟨info, t, h, he⟩
    · rw [he]
      exact stepsKept_same rfl
    · rw [he]
      exact stepsKept_new hf (newSteps_run _ _ _ _) rfl
  | writeSchedules rows notify =>
    unfold exec
    rw [Prog.after_bind_pure]
    cases notify <;> exact stepsKept_same rfl
  | handle event => exact hamends ⟨trivial, trivial⟩
  | _ => exact hamends trivial

/-- No operation of the server changes the input of a run. -/
theorem step_inputsKept (hw : WellFormed w.db) {call : Call} (hc : (server crates).admits w call) :
    InputsKept w.db ((server crates).step w call).2.db := by
  obtain ⟨env, op⟩ := call
  change InputsKept w.db ((exec crates env op).after w).db
  have hf : Fresh w.db env := hc
  refine ⟨?_, exec_stepsKept hw hf crates op⟩
  apply (exec_writes crates env op).after (P := RunsKept w.db)
  · intro db db' hwrite hkept r hr
    obtain ⟨q, hq, hrq⟩ := hkept r hr
    obtain ⟨p, hp, hqp⟩ := hwrite.runsKept q hq
    exact ⟨p, hp, hrq.trans hqp⟩
  · exact (InputsKept.refl w.db).runs

theorem run_inputsKept (hw : WellFormed v.db) {ts : List ServerStep}
    (hr : (server crates).Run v ts w) : InputsKept v.db w.db := by
  have h := hr.keeps (P := fun w => WellFormed w.db ∧ InputsKept v.db w.db)
    (fun w call h hc => ⟨step_wellFormed crates call h.1, h.2.trans (step_inputsKept h.1 hc)⟩)
    ⟨hw, .refl v.db⟩
  exact h.2

/-- The run of an id is there with input of one kind, and all its steps have input of another. -/
structure Given (u : Uuid) (P Q : Json → Prop) (db : Db) : Prop where
  run : ∃ r ∈ db.workflows, r.runId = u ∧ P r.argsJson ∧ r.resultJson = none
  steps : ∀ s ∈ db.workflowSteps, s.workflowRunId = u → Q s.argsJson

theorem Given.kept {P Q : Json → Prop} (h : Given u P Q db) (hk : InputsKept db db') :
    Given u P Q db' where
  run := by
    obtain ⟨r, hr, hid, hp, hn⟩ := h.run
    obtain ⟨r', hr', hsame⟩ := hk.runs r hr
    exact ⟨r', hr', hsame.id.trans hid, hsame.args ▸ hp, hsame.noResult hn⟩
  steps := by
    intro s' hs' hrun
    rcases hk.steps s' hs' with ⟨s, hs, hrun', hargs⟩ | hn
    · exact hargs ▸ h.steps s hs (hrun'.trans hrun)
    · obtain ⟨r, hr, hid, _⟩ := h.run
      exact absurd (hid.trans hrun.symm) (hn r hr)

/-- A run that has just been started over tables where its id is unused. -/
theorem given_started {P Q : Json → Prop} (hw : WellFormed db)
    (hu : ¬ ∃ r ∈ db.workflows, r.runId = u) {run : WorkflowRow} (hid : run.runId = u)
    (hrun : P run.argsJson) (hn : run.resultJson = none) {new : List WorkflowStepRow}
    (hnew : ∀ s ∈ new, Q s.argsJson)
    (hr : db'.workflows = t ++ [run]) (hs : db'.workflowSteps = db.workflowSteps ++ new) :
    Given u P Q db' where
  run := ⟨run, hr ▸ List.mem_append_right _ (List.mem_singleton_self run), hid, hrun, hn⟩
  steps := by
    intro s hmem he
    rcases List.mem_append.mp (hs ▸ hmem) with hmem | hmem
    · obtain ⟨r, hr, hrun⟩ := hw.ofRun s hmem
      exact absurd ⟨r, hr, hrun.trans he⟩ hu
    · exact hnew s hmem

theorem newSteps_args {P : Json → Prop} {args : ActivityStep → Json} {defs : List ActivityStep}
    (h : ∀ d ∈ defs, P (args d)) (env : Env) (runId : Uuid) :
    ∀ s ∈ newSteps env runId args defs, P s.argsJson := by
  intro s hs
  obtain ⟨⟨d, i⟩, hd, rfl⟩ := List.mem_map.mp hs
  exact h d (List.fst_mem_of_mem_zipIdx hd)

theorem rowToStep_args (h : rowToStep s = .ok x) : x.argsJson = s.argsJson := by
  unfold rowToStep at h
  cases hs : strToWorkflowState s.state with
  | error e =>
    rw [hs] at h
    cases h
  | ok state =>
    cases hn : s.nextRetryAt.mapM Db.Activities.parseDatetime with
    | error e =>
      rw [hs, hn] at h
      cases h
    | ok next =>
      rw [hs, hn] at h
      cases h
      rfl

/-- A task that a poll hands out carries what its step's row holds. -/
theorem pollActivity_task
    (h : ((pollActivity env req).run w).1 = .ok ⟨some task, hasTask⟩) :
    ∃ s ∈ w.db.workflowSteps, task.workflowRunId = s.workflowRunId.text ∧
      task.args = stringArgs s.argsJson := by
  simp only [pollActivity, getPendingSteps, Prog.run_bind, Prog.run_mapError, run_query] at h
  cases hp : pendingSteps (env.now 0) w.db with
  | error e =>
    rw [hp] at h
    cases h
  | ok steps =>
    rw [hp] at h
    simp only [Outcome.ofExcept, Outcome.mapError, Prog.resume_ok] at h
    cases hx : steps.find? (asksFor req) with
    | none =>
      rw [hx] at h
      cases h
    | some x =>
      rw [hx] at h
      obtain ⟨s, hs, hd⟩ := pendingSteps_origin hp (List.mem_of_find?_eq_some hx)
      refine ⟨s, hs, ?_⟩
      dsimp only at h
      rw [Prog.run_bind] at h
      generalize (handOut env x).run w = r at h
      obtain ⟨out, v⟩ := r
      cases out with
      | ok activityId =>
        cases h
        refine ⟨?_, ?_⟩
        · rw [activityTask, (rowToStep_decodes hd).run]
        · rw [activityTask, rowToStep_args hd]
      | error e => cases h
      | panicked => cases h

/-- The two maps are the same, and the first has one entry for each key. -/
structure SameMap (a b : StringMap) : Prop where
  keys : (a.map Prod.fst).Nodup
  entries : ∀ k, StringMap.get? a k = StringMap.get? b k

theorem Ascending.keys (h : Ascending m) : (m.map Prod.fst).Nodup := by
  rw [List.Nodup, List.pairwise_map]
  exact h.imp fun hlt => String.ne_of_lt hlt

theorem sameMap_extend (m : StringMap) : SameMap (StringMap.extend [] m) m where
  keys := Ascending.keys (Ascending.extend List.Pairwise.nil m)
  entries k := (get_extend List.Pairwise.nil m k).trans (by simp [StringMap.get?])

theorem SameMap.trans (h : SameMap a b) (h' : SameMap b c) : SameMap a c :=
  ⟨h.keys, fun k => (h.entries k).trans (h'.entries k)⟩

theorem stringArgs_ofMap (m : StringMap) : stringArgs (Json.ofMap m) = StringMap.extend [] m := by
  unfold stringArgs Json.ofMap
  dsimp only
  rw [List.filterMap_map]
  exact List.filterMap_some

/-- The object of a map, whatever the order and the repetitions of its entries. -/
def Holds (m : StringMap) (j : Json) : Prop :=
  ∃ entries, j = Json.ofMap entries ∧ SameMap (stringArgs j) m

theorem holds_ofMap (h : SameMap (StringMap.extend [] entries) m) : Holds m (Json.ofMap entries) :=
  ⟨entries, rfl, (stringArgs_ofMap entries).symm ▸ h⟩

theorem started_holds (env : Env) (req : StartWorkflowRequest) :
    Holds req.args (startedInstance env req).argsJson := by
  unfold startedInstance
  dsimp only
  split
  · rename_i hempty
    rw [List.isEmpty_iff.mp hempty]
    exact holds_ofMap (sameMap_extend [])
  · exact holds_ofMap (sameMap_extend req.args)

theorem definition_templates (name : String) :
    ∀ d ∈ getWorkflowDefinition name, d.argsTemplate = [] := by
  unfold getWorkflowDefinition
  split <;> simp [cronPipeline, activityStep]

theorem step_holds (args : StringMap) {d : ActivityStep} (hd : d.argsTemplate = []) :
    Holds args (stepArgs args d) := by
  unfold stepArgs
  split
  · rename_i hempty
    rw [List.isEmpty_iff.mp hempty]
    exact holds_ofMap (sameMap_extend [])
  · rw [hd]
    exact holds_ofMap ((sameMap_extend _).trans (sameMap_extend args))

/-- `serde_json` reads back the objects of texts that it wrote, and `Uuid::parse_str` every id. -/
structure ReadsInputs (crates : Crates) (codec : Db.Codec) : Prop where
  objects : ∀ m : StringMap,
    crates.jsonFromStr (crates.jsonToString (Json.ofMap m)) = some (Json.ofMap m)
  ids : ∀ u : Uuid, codec.parseStr u.text = some u

theorem getWorkflow_given (hread : ReadsInputs crates codec) (hd : Readable w.db)
    (hw : WellFormed w.db) (hr : r ∈ w.db.workflows) (hargs : r.argsJson = Json.ofMap entries)
    (hn : r.resultJson = none) (nameSpace : String) :
    ∃ info, ((Server.getWorkflow crates codec ⟨r.runId.text, nameSpace⟩).run w).1 = .ok info ∧
      info.args = stringArgs r.argsJson := by
  obtain ⟨startedAt, hs⟩ := mapM_stamp (fun _ => runs_parseDatetime) (hd.started r hr)
  obtain ⟨completedAt, hc⟩ := mapM_stamp (fun _ => runs_parseDatetime) (hd.completed r hr)
  have hjson : crates.jsonFromStr (crates.jsonToString r.argsJson) = some r.argsJson := by
    rw [hargs]
    exact hread.objects entries
  obtain ⟨wf, hwf, hsame⟩ : ∃ wf, rowToWorkflow crates codec (workflowColumns crates r) = .ok wf ∧
      wf.argsJson = r.argsJson := by
    unfold rowToWorkflow workflowColumns
    simp only [hread.ids, hjson, hn, Db.strToWorkflowState_toStr, hs, hc, Db.parsed_some]
    exact ⟨_, rfl, rfl⟩
  unfold Server.getWorkflow Db.Workflows.getWorkflow
  rw [Prog.run_bind, Prog.run_mapError, run_query]
  cases hf : w.db.workflows.filter (fun q => runKey q = r.runId.text) with
  | nil =>
    have hmem : r ∈ w.db.workflows.filter (fun q => runKey q = r.runId.text) :=
      List.mem_filter.mpr ⟨hr, decide_eq_true rfl⟩
    rw [hf] at hmem
    cases hmem
  | cons q rest =>
    obtain ⟨hq, hkey⟩ := List.mem_filter.mp (hf ▸ List.mem_cons_self)
    obtain rfl : q = r := hw.runs.unique hq hr (of_decide_eq_true hkey)
    simp only [hwf]
    refine ⟨_, rfl, ?_⟩
    rw [workflowInfoToProto, hsame]

theorem startWorkflow_given (hw : WellFormed w.db) (hf : Fresh w.db env) (crates : Crates)
    (req : StartWorkflowRequest) :
    Given (env.uuid 0) (Holds req.args) (Holds req.args)
      ((exec crates env (.startWorkflow req)).after w).db := by
  unfold exec
  rw [Prog.after_bind_pure, Prog.after, run_startWorkflow hf]
  exact given_started hw (fresh_unused hf (by omega)).1 rfl (started_holds env req) rfl
    (newSteps_args (fun d hd => step_holds req.args (definition_templates _ d hd)) env _) rfl rfl

/-- What a state of a run has been given after a step, it has wherever the run goes on. -/
theorem Given.run_on {P Q : Json → Prop} {τ : ServerStep}
    (hr : (server crates).Run .empty (ts ++ τ :: us) w) (h : Given u P Q τ.after.db) :
    Given u P Q w.db := by
  obtain ⟨hbefore, hc, hτ, hafter⟩ := hr.at
  have hreach : (server crates).Reachable τ.after := by
    rw [hτ]
    exact ⟨.empty, _, rfl, .next hbefore hc⟩
  exact h.kept (run_inputsKept (reachable_readable hreach).2 hafter)

/-- The arguments of a native start are those of its run in every later state, and those of
every task for a step of the run. -/
theorem started_args_kept (hread : ReadsInputs crates codec) {ts us : List ServerStep}
    {τ : ServerStep} (hr : (server crates).Run .empty (ts ++ τ :: us) w)
    (hop : τ.input.op = .startWorkflow req)
    (hid : ((startWorkflow τ.input.env req).run τ.before).1 = .ok runId) :
    (∀ nameSpace, ∃ info,
      ((Server.getWorkflow crates codec ⟨runId, nameSpace⟩).run w).1 = .ok info ∧
        SameMap info.args req.args) ∧
    ∀ env poll task hasTask,
      ((pollActivity env poll).run w).1 = .ok ⟨some task, hasTask⟩ → task.workflowRunId = runId →
        SameMap task.args req.args := by
  have hw : (server crates).Reachable w := ⟨.empty, _, rfl, hr⟩
  obtain ⟨hd, hwf⟩ := reachable_readable hw
  obtain ⟨hbefore, hc, hτ, -⟩ := hr.at
  obtain ⟨before, ⟨env, op⟩, output, after⟩ := τ
  obtain rfl : op = .startWorkflow req := hop
  have hf : Fresh before.db env := hc
  obtain rfl : runId = (env.uuid 0).text := by
    rw [run_startWorkflow hf] at hid
    exact (Outcome.ok.inj hid).symm
  have hafter : after = (exec crates env (.startWorkflow req)).after before :=
    congrArg Transition.after hτ
  have hgiven : Given (env.uuid 0) (Holds req.args) (Holds req.args) w.db := by
    apply Given.run_on hr
    rw [show after = _ from hafter]
    exact startWorkflow_given (reachable_readable ⟨.empty, _, rfl, hbefore⟩).2 hf crates req
  constructor
  · intro nameSpace
    obtain ⟨r, hmem, hrun, ⟨entries, hargs, hsame⟩, hn⟩ := hgiven.run
    obtain ⟨info, hinfo, he⟩ := getWorkflow_given hread hd hwf hmem hargs hn nameSpace
    rw [← hrun]
    exact ⟨info, hinfo, he ▸ hsame⟩
  · intro env' poll task hasTask htask hrun
    obtain ⟨s, hs, hrun', hargs⟩ := pollActivity_task htask
    obtain ⟨_, _, hsame⟩ := hgiven.steps s hs (key_iff.mp (hrun'.symm.trans hrun))
    exact hargs ▸ hsame

/-- A run is started with one argument. -/
def startedNative : List Op := [.startWorkflow ⟨"x", [("key", "value")], "", "", none, ""⟩]

noncomputable def givenWorld : World := (server readingCrates).ending .empty (script startedNative)

noncomputable def givenStep : ServerStep :=
  (server readingCrates).transition .empty
    ⟨turn 0, .startWorkflow ⟨"x", [("key", "value")], "", "", none, ""⟩⟩

theorem reads_inputs : ReadsInputs readingCrates readingCodec :=
  ⟨fun m => reading.json (Json.ofMap m), reading.uuid⟩

theorem started_args_told :
    (∃ info, ((Server.getWorkflow readingCrates readingCodec ⟨"id-0", "other"⟩).run givenWorld).1 =
      .ok info ∧ SameMap info.args [("key", "value")]) ∧
    ∃ task, ((pollActivity (turn 1) ⟨"", ["x"]⟩).run givenWorld).1 = .ok ⟨some task, true⟩ ∧
      SameMap task.args [("key", "value")] := by
  have hadmitted : (server readingCrates).Admitted .empty (script startedNative) := by decide +kernel
  have hr : (server readingCrates).Run .empty ([] ++ givenStep :: []) givenWorld :=
    Machine.run_replay (M := server readingCrates) .empty _ hadmitted
  have hid : ((startWorkflow (turn 0) ⟨"x", [("key", "value")], "", "", none, ""⟩).run
      givenStep.before).1 = .ok "id-0" := rfl
  obtain ⟨hget, hpoll⟩ := started_args_kept reads_inputs hr rfl hid
  have htask : ((pollActivity (turn 1) ⟨"", ["x"]⟩).run givenWorld).1 =
      .ok ⟨some ⟨"id-10", "id-1", "id-0", "x", [("key", "value")], ⟨3, 2⟩, 60, 300⟩, true⟩ := rfl
  exact ⟨hget "other", _, htask, hpoll _ _ _ _ htask rfl⟩

end Khronos.Proofs
