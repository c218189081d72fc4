import Khronos.Proofs.Ended

namespace Khronos.Proofs
open Time Lib Db.Activities Db.Workflows Server Engine

/-- The steps of a run bear out the terminal state it is in. -/
def Accord (db : Db) (u : Uuid) (state : WorkflowState) : Prop :=
  (state = .completed → (∃ s ∈ db.workflowSteps, s.workflowRunId = u) ∧
    ∀ s ∈ db.workflowSteps, s.workflowRunId = u → s.state = .completed) ∧
  (state = .failed → (∃ s ∈ db.workflowSteps, s.workflowRunId = u ∧ s.state = .failed) ∧
    ∀ s ∈ db.workflowSteps, s.workflowRunId = u → s.state ≠ .running)

def Agrees (db : Db) : Prop := ∀ r ∈ db.workflows, Accord db r.runId r.state

theorem Accord.congr (h : Accord db u state)
    (hs : ∀ s, s.workflowRunId = u → (s ∈ db'.workflowSteps ↔ s ∈ db.workflowSteps)) :
    Accord db' u state := by
  refine ⟨fun hc => ?_, fun hf => ?_⟩
  · obtain ⟨⟨s, hm, hu⟩, hall⟩ := h.1 hc
    exact ⟨⟨s, (hs s hu).mpr hm, hu⟩, fun t ht htu => hall t ((hs t htu).mp ht) htu⟩
  · obtain ⟨⟨s, hm, hu, hstate⟩, hall⟩ := h.2 hf
    exact ⟨⟨s, (hs s hu).mpr hm, hu, hstate⟩, fun t ht htu => hall t ((hs t htu).mp ht) htu⟩

theorem accord_other (hc : state ≠ .completed) (hf : state ≠ .failed) : Accord db u state :=
  ⟨fun h => absurd h hc, fun h => absurd h hf⟩

/-- An operation that sets a run against its steps. -/
inductive Contradicts (crates : Crates) (env : Env) (op : Op) (db : Db) : Prop
  /-- The engine calls a run failed one of whose steps still runs. -/
  | verdict (r : WorkflowRow) (hr : r ∈ db.workflows)
      (hop : op = .handle (.workflowCreated r.runId.text) ∨
        op = .handle (.stepCompleted r.runId.text) ∨
          op = .handle .scheduleChange ∧ active r = true)
      (hc : Concluded db r.runId .failed) (s : WorkflowStepRow) (hs : s ∈ db.workflowSteps)
      (hrun : s.workflowRunId = r.runId) (hstate : s.state = .running)
  /-- The same at a timeout that uses up the attempts of a step. -/
  | expired (activityId : String) (hop : op = .handle (.heartbeatTimeout activityId))
      (a : ActivityRow) (s : WorkflowStepRow) (ha : activityOf db activityId = some a)
      (hs : stepOf db a.stepId = some s) (hh : a.state = .running)
      (hlt : ¬ a.attempt < s.retryPolicyJson.maximumAttempts)
      (hrest : ∀ t ∈ db.workflowSteps, t.workflowRunId = s.workflowRunId → t.id ≠ s.id →
        waiting t = false)
      (t : WorkflowStepRow) (ht : t ∈ db.workflowSteps) (hrun : t.workflowRunId = s.workflowRunId)
      (hne : t.id ≠ s.id) (hstate : t.state = .running)
  /-- A failure is heard for a step of a completed run. -/
  | reopened (activityId : String) (rep : Report) (hop : reportOf crates op = some (activityId, rep))
      (a : ActivityRow) (s : WorkflowStepRow) (ha : activityOf db activityId = some a)
      (hs : stepOf db a.stepId = some s) (hh : rep.heard a) (hfailing : rep.failing = true)
      (hretry : rep = .timeout → rep.final a.attempt s.retryPolicyJson = false)
      (r : WorkflowRow) (hr : r ∈ db.workflows) (hrun : r.runId = s.workflowRunId)
      (hstate : r.state = .completed)
  /-- A result or a retry is heard for the only failed step of a failed run. -/
  | cleared (activityId : String) (rep : Report) (hop : reportOf crates op = some (activityId, rep))
      (a : ActivityRow) (s : WorkflowStepRow) (ha : activityOf db activityId = some a)
      (hs : stepOf db a.stepId = some s) (hh : rep.heard a)
      (hrep : rep.failing = false ∨ rep.final a.attempt s.retryPolicyJson = false)
      (r : WorkflowRow) (hr : r ∈ db.workflows) (hrun : r.runId = s.workflowRunId)
      (hstate : r.state = .failed)
      (honly : ∀ t ∈ db.workflowSteps, t.workflowRunId = s.workflowRunId → t.state = .failed →
        t.id = s.id)

theorem write_final (h : rep.final n policy = true) (hf : rep.failing = true) (env : Env)
    (s : WorkflowStepRow) : (Report.write env n policy rep s).state = .failed := by
  have hfailed : ∀ {due}, ¬ rep.counted n < policy.maximumAttempts →
      (failedStep (rep.counted n) policy due s).state = .failed := by
    intro due hlt
    unfold failedStep
    rw [if_neg hlt]
    rfl
  cases rep with
  | result json => cases hf
  | failure message => exact hfailed (by simpa [Report.final] using h)
  | timeout => exact hfailed (by simpa [Report.final] using h)

/-- What a report leaves of a step that was not running does not run either. -/
theorem write_not_running (h : s.state ≠ .running) (env : Env) (n : UInt32) (policy : RetryPolicy)
    (rep : Report) : (rep.write env n policy s).state ≠ .running := by
  have hfailed : ∀ counted due, (failedStep counted policy due s).state ≠ .running := by
    intro counted due
    unfold failedStep
    split
    · cases due with
      | some d => simp [setStep]
      | none => exact h
    · simp [setStep]
  cases rep with
  | result json => simp [Report.write, setStep]
  | failure message => exact hfailed _ _
  | timeout => exact hfailed _ _

theorem reported_other (hw : WellFormed db) (hs : s ∈ db.workflowSteps)
    (hu : u ≠ s.workflowRunId) (h : Accord db u state) :
    Accord (reported env rep a s db) u state := by
  refine h.congr (fun t htu => (mem_reported_steps hw hs).trans ⟨?_, fun ht => .inr ⟨ht, ?_⟩⟩)
  · rintro (rfl | ⟨ht, _⟩)
    · exact absurd (htu.symm.trans (write_fixed _ _ _ _ _).run) hu
    · exact ht
  · intro hid
    obtain rfl := hw.steps.unique ht hs (key_iff.mpr hid)
    exact hu htu.symm

/-- A report on a step of a run that its steps bear out. -/
theorem reported_accord (hw : WellFormed db) (hs : s ∈ db.workflowSteps)
    (h : Accord db s.workflowRunId state)
    (hreopened : state = .completed → rep.failing = false)
    (hcleared : state = .failed →
      (rep.failing = true ∧ rep.final a.attempt s.retryPolicyJson = true) ∨
        ∃ t ∈ db.workflowSteps, t.workflowRunId = s.workflowRunId ∧ t.state = .failed ∧ t.id ≠ s.id) :
    Accord (reported env rep a s db) s.workflowRunId state := by
  have hrun : (rep.write env a.attempt s.retryPolicyJson s).workflowRunId = s.workflowRunId :=
    (write_fixed _ _ _ _ _).run
  refine ⟨fun hc => ⟨⟨_, (mem_reported_steps hw hs).mpr (.inl rfl), hrun⟩, fun t ht htu => ?_⟩,
    fun hf => ⟨?_, fun t ht htu => ?_⟩⟩
  · rcases (mem_reported_steps hw hs).mp ht with rfl | ⟨ht, _⟩
    · have hres := hreopened hc
      cases rep with
      | result json => rfl
      | failure message => cases hres
      | timeout => cases hres
    · exact (h.1 hc).2 t ht htu
  · rcases hcleared hf with ⟨hfailing, hfinal⟩ | ⟨t, ht, htu, hstate, hne⟩
    · exact ⟨_, (mem_reported_steps hw hs).mpr (.inl rfl), hrun, write_final hfinal hfailing _ _⟩
    · exact ⟨t, (mem_reported_steps hw hs).mpr (.inr ⟨ht, hne⟩), htu, hstate⟩
  · rcases (mem_reported_steps hw hs).mp ht with rfl | ⟨ht, _⟩
    · exact write_not_running ((h.2 hf).2 s hs rfl) _ _ _ _
    · exact (h.2 hf).2 t ht htu

theorem Concluded.accord (h : Concluded db u state)
    (hn : state = .failed → ∀ s ∈ db.workflowSteps, s.workflowRunId = u → s.state ≠ .running) :
    Accord db u state := by
  refine ⟨fun hc => ?_, fun hf => ⟨?_, hn hf⟩⟩
  · subst hc
    exact h
  · subst hf
    exact h.2

/-- What the engine makes of a run agrees with its steps, unless it calls it failed too early. -/
theorem advanced_accord (h : Accord db r.runId r.state)
    (hn : Concluded db r.runId .failed → ∀ s ∈ db.workflowSteps, s.workflowRunId = r.runId →
      s.state ≠ .running) : Accord db r.runId (advancedState db r) := by
  unfold advancedState
  cases hd : decided (runKey r) db with
  | some state =>
    have hc := decided_iff.mp hd
    exact hc.accord (fun hf => hn (hf ▸ hc))
  | none =>
    rw [Option.getD_none]
    split
    · exact accord_other (by decide) (by decide)
    · exact h

theorem Cancels.agrees (h : Cancels p w.db.workflows t) (ha : Agrees w.db) :
    Agrees (withRuns w t).db := by
  obtain ⟨f, rfl, hf⟩ := h
  intro r' hr'
  obtain ⟨r, hr, rfl⟩ := List.mem_map.mp hr'
  rcases hf r hr with he | ⟨_, _, now, he⟩
  · rw [he]
    exact ha r hr
  · rw [he]
    exact accord_other (by simp [cancelRun]) (by simp [cancelRun])

theorem Terminated.agrees (h : Terminated crates env scheduleId w t) (ha : Agrees w.db) :
    Agrees (withRuns w t).db := by
  rcases h with rfl | ⟨_, _, _, _, hc⟩
  · exact ha
  · exact hc.agrees ha

theorem started_agrees (hf : Fresh w.db env)
    (hids : t.map (·.runId) = w.db.workflows.map (·.runId)) (ha : Agrees (withRuns w t).db)
    (hstate : run.state = .pending) (hnew : FreshSteps env now w.db new) :
    Agrees (started run new (withRuns w t).db) := by
  intro r hr
  rcases List.mem_append.mp hr with hr | hr
  · refine (ha r hr).congr (fun s hs => ⟨fun hm => ?_, List.mem_append_left _⟩)
    rcases List.mem_append.mp hm with hm | hm
    · exact hm
    · have hmem : r.runId ∈ t.map (·.runId) := List.mem_map.mpr ⟨r, hr, rfl⟩
      rw [hids] at hmem
      obtain ⟨q, hq, hqr⟩ := List.mem_map.mp hmem
      exact absurd ⟨q, hq, hqr.trans (hs.symm.trans (hnew.ofRun s hm))⟩
        (fresh_unused hf (by omega)).1
  · rw [List.mem_singleton.mp hr, hstate]
    exact accord_other (by decide) (by decide)

theorem dispatched_agrees (hw : WellFormed db) (hs : s ∈ db.workflowSteps) (ha : Agrees db) :
    Agrees (dispatched env s db) := by
  intro r' hr'
  obtain ⟨r, hr, rfl⟩ := Table.mem_update.mp hr'
  by_cases hk : runKey r = s.workflowRunId.text
  · rw [if_pos (decide_eq_true hk)]
    exact accord_other (by simp [setRun]) (by simp [setRun])
  · rw [if_neg (by simpa using hk)]
    refine (ha r hr).congr (fun t ht => (mem_dispatched_steps hw hs).trans ⟨?_, fun hm => ?_⟩)
    · rintro (rfl | ⟨hm, _⟩)
      · exact absurd (key_iff.mpr ht.symm) hk
      · exact hm
    · refine .inr ⟨hm, fun hid => hk ?_⟩
      obtain rfl := hw.steps.unique hm hs (key_iff.mpr hid)
      exact key_iff.mpr ht.symm

/-- The runs agree with their steps after a report that sets none against them. -/
theorem reported_agrees (hw : WellFormed db) (ha : Agrees db)
    (hn : ¬ Contradicts crates env op db) (hop : reportOf crates op = some (activityId, rep))
    (hact : activityOf db activityId = some a) (hstep : stepOf db a.stepId = some s)
    (hh : rep.heard a) (hretry : rep = .timeout → rep.final a.attempt s.retryPolicyJson = false) :
    Agrees (reported env rep a s db) := by
  have hmem := (stepOf_mem hstep).1
  intro r hr
  by_cases hu : r.runId = s.workflowRunId
  · have hr' := ha r hr
    rw [hu] at hr' ⊢
    refine reported_accord hw hmem hr' (fun hc => ?_) (fun hf => ?_)
    · by_contra hfailing
      rw [Bool.not_eq_false] at hfailing
      exact hn (.reopened activityId rep hop a s hact hstep hh hfailing hretry r hr hu hc)
    · by_contra hcon
      push Not at hcon
      obtain ⟨hfinal, honly⟩ := hcon
      refine hn (.cleared activityId rep hop a s hact hstep hh ?_ r hr hu hf honly)
      cases hfailing : rep.failing with
      | false => exact .inl rfl
      | true => exact .inr (Bool.eq_false_iff.mpr (hfinal hfailing))
  · exact reported_other hw hmem hu (ha r hr)

/-- The last timeout of a step: its run is decided on with the step failed. -/
theorem expired_agrees (hw : WellFormed db) (ha : Agrees db)
    (hn : ¬ Contradicts crates env (.handle (.heartbeatTimeout activityId)) db)
    (hact : activityOf db activityId = some a) (hstep : stepOf db a.stepId = some s)
    (hh : a.state = .running) (hlt : ¬ a.attempt < s.retryPolicyJson.maximumAttempts) :
    Agrees (processed (env.part 3) s.workflowRunId.text (reported env .timeout a s db)) := by
  have hmem := (stepOf_mem hstep).1
  have hlook := processed_looked (env.part 3) s.workflowRunId.text (reported env .timeout a s db)
  have hfinal : Report.timeout.final a.attempt s.retryPolicyJson = true := by
    simp [Report.final, Report.counted, hlt]
  have hfailed := write_final hfinal rfl env s
  intro r' hr'
  obtain ⟨r, hr, hid, hstate⟩ := hlook.runs r' hr'
  rw [hid, hstate]
  have hr : r ∈ db.workflows := hr
  have hsame : ∀ t : WorkflowStepRow, t.workflowRunId = r.runId →
      (t ∈ (processed (env.part 3) s.workflowRunId.text
        (reported env .timeout a s db)).workflowSteps ↔
          t ∈ (reported env .timeout a s db).workflowSteps) := fun t _ => by rw [hlook.steps]
  by_cases hu : r.runId = s.workflowRunId
  · have hk : runKey r = s.workflowRunId.text := key_iff.mpr hu
    rw [if_pos hk]
    refine Accord.congr ?_ hsame
    -- With a failed step the engine can only call the run failed.
    unfold advancedState
    cases hd : decided (runKey r) (reported env .timeout a s db) with
    | some state =>
      have hc := decided_iff.mp hd
      refine hc.accord (fun _ t ht htu hrunning => ?_)
      rcases (mem_reported_steps hw hmem).mp ht with rfl | ⟨ht, hne⟩
      · rw [hfailed] at hrunning
        cases hrunning
      · refine hn (.expired activityId rfl a s hact hstep hh hlt ?_ t ht (htu.trans hu) hne hrunning)
        intro q hq hqu hqne
        exact hc.nothing_waits q ((mem_reported_steps hw hmem).mpr (.inr ⟨hq, hqne⟩))
          (hqu.trans hu.symm)
    | none =>
      rw [Option.getD_none]
      split
      · exact accord_other (by decide) (by decide)
      · have hr' := ha r hr
        rw [hu] at hr' ⊢
        refine reported_accord hw hmem hr' (fun hc => ?_) (fun _ => .inl ⟨rfl, hfinal⟩)
        -- A completed run has no other step that could keep the engine from its verdict.
        have hconcluded : Concluded (reported env .timeout a s db) r.runId .failed := by
          refine ⟨fun t ht htu => ?_, _, (mem_reported_steps hw hmem).mpr (.inl rfl),
            (write_fixed _ _ _ _ _).run.trans hu.symm, hfailed⟩
          rcases (mem_reported_steps hw hmem).mp ht with rfl | ⟨ht, _⟩
          · simp [waiting, hfailed]
          · simp [waiting, (hr'.1 hc).2 t ht (htu.trans hu)]
        rw [show decided (runKey r) _ = some .failed from decided_iff.mpr hconcluded] at hd
        cases hd
  · have hk : ¬ runKey r = s.workflowRunId.text := fun h => hu (key_iff.mp h)
    rw [if_neg hk]
    exact (reported_other hw hmem hu (ha r hr)).congr hsame

/-- Where the engine looks at runs, each agrees with its steps afterwards. -/
theorem Looked.agrees {p : WorkflowRow → Prop} [DecidablePred p] (h : Looked p db db')
    (ha : Agrees db) (hn : ∀ r ∈ db.workflows, p r → Concluded db r.runId .failed →
      ∀ s ∈ db.workflowSteps, s.workflowRunId = r.runId → s.state ≠ .running) : Agrees db' := by
  intro r' hr'
  obtain ⟨r, hr, hid, hstate⟩ := h.runs r' hr'
  have hold : Accord db r.runId r'.state := by
    rw [hstate]
    split
    · rename_i hp
      exact advanced_accord (ha r hr) (hn r hr hp)
    · exact ha r hr
  rw [hid]
  exact hold.congr (fun t _ => by rw [h.steps])

theorem effect_agrees (hw : WellFormed w.db) (hf : Fresh w.db env) (ha : Agrees w.db)
    (hn : ¬ Contradicts crates env op w.db) (h : Effect crates env op w w') : Agrees w'.db := by
  cases h with
  | still => exact ha
  | schedules rows notify hop queue hqueue => exact ha
  | beaten id t hbeat => exact ha
  | started run new queue hop hid hstate hnew => exact started_agrees hf rfl ha hstate hnew
  | fired scheduleId hop _ hfired =>
    cases hfired with
    | cut t hterm => exact hterm.agrees ha
    | started t hterm hfires run new hid hstate hnew =>
      exact started_agrees hf hterm.runIds (hterm.agrees ha) hstate hnew
  | dispatched s hs => exact dispatched_agrees hw (chosen_mem hs).1 ha
  | reported id rep hop hrep a s hact hstep queue hq =>
    exact reported_agrees hw ha hn hop hact hstep (by cases rep <;> trivial) (fun h => absurd h hrep)
  | retimed id hop a s hact hstep hh hlt =>
    have hreport : reportOf crates op = some (id, .timeout) := by
      rw [hop]
      rfl
    refine reported_agrees hw ha hn hreport hact hstep hh (fun _ => ?_)
    simp [Report.final, Report.counted, hlt]
  | expired id hop a s hact hstep hh hlt =>
    subst hop
    exact expired_agrees hw ha hn hact hstep hh hlt
  | cancelled req hop =>
    exact (cancels_update (p := fun _ => true) (env.now 0) req.workflowRunId
      (fun _ _ _ => rfl)).agrees ha
  | advanced runId hop =>
    refine (processed_looked _ _ _).agrees ha (fun r hr hk hc s hs hrun hstate => ?_)
    subst hk
    exact hn (.verdict r hr (hop.imp id .inl) hc s hs hrun hstate)
  | swept hop =>
    refine (swept_looked hw env).agrees ha (fun r hr hk hc s hs hrun hstate => ?_)
    exact hn (.verdict r hr (.inr (.inr ⟨hop, hk⟩)) hc s hs hrun hstate)

/-- In a run no step of which sets a workflow run against its steps, every state reached has
only terminal runs that their steps bear out. -/
theorem run_agrees {ts : List ServerStep} (hr : (server crates).Run .empty ts w)
    (hn : ∀ τ ∈ ts, ¬ Contradicts crates τ.input.env τ.input.op τ.before.db) : Agrees w.db := by
  have hempty : Agrees World.empty.db := by
    intro r hr
    cases hr
  refine (hr.keeps_when (P := fun w => WellFormed w.db ∧ Agrees w.db)
    (C := fun w call => ¬ Contradicts crates call.env call.op w.db) ?_ ⟨.empty, hempty⟩ hn).2
  intro w call h hc hn
  exact ⟨step_wellFormed crates call h.1,
    effect_agrees h.1 hc h.2 hn (exec_effect h.1 hc crates call.op)⟩

theorem completed_run_agrees :
    (∃ r ∈ ((server plainCrates).ending .empty (script completedRun)).db.workflows,
      r.state = .completed) ∧
    Agrees ((server plainCrates).ending .empty (script completedRun)).db := by
  have hquiet : ∀ τ ∈ (server plainCrates).replay .empty (script completedRun),
      (reportOf plainCrates τ.input.op).all (fun p => !p.2.failing) = true ∧
        ∀ r ∈ τ.before.db.workflows, r.state ≠ .failed ∧
          ¬ Concluded τ.before.db r.runId .failed := by decide +kernel
  have hreport : ∀ τ ∈ (server plainCrates).replay .empty (script completedRun),
      ∀ activityId rep, reportOf plainCrates τ.input.op = some (activityId, rep) →
        rep.failing = false := by
    intro τ hτ activityId rep hop
    simpa [hop] using (hquiet τ hτ).1
  refine ⟨by decide +kernel, run_agrees (script_run completedRun (by decide +kernel)) ?_⟩
  intro τ hτ h
  cases h with
  | verdict r hr hop hc => exact ((hquiet τ hτ).2 r hr).2 hc
  | expired activityId hop =>
    have hfailing := hreport τ hτ activityId .timeout (by rw [hop]; rfl)
    cases hfailing
  | reopened activityId rep hop a s ha hs hh hfailing =>
    rw [hreport τ hτ activityId rep hop] at hfailing
    cases hfailing
  | cleared activityId rep hop a s ha hs hh hrep r hr hrun hstate =>
    exact ((hquiet τ hτ).2 r hr).1 hstate

/-- The only activity of a completed run is reported once more, as a failure. -/
def lateFailureReport : List Op :=
  completedRun.take 4 ++ [.reportActivityFailure ⟨"id-10", "late"⟩]

/-- The run is completed, and its step waits to be tried again. -/
theorem late_failure_disagrees :
    ¬ ∀ (crates : Crates) (ts : List ServerStep) (w : World), (server crates).Run .empty ts w →
      Agrees w.db := by
  intro h
  have hlost : ∃ r ∈ ((server plainCrates).ending .empty (script lateFailureReport)).db.workflows,
      r.state = .completed ∧
        ∃ s ∈ ((server plainCrates).ending .empty (script lateFailureReport)).db.workflowSteps,
          s.workflowRunId = r.runId ∧ s.state ≠ .completed := by decide +kernel
  obtain ⟨r, hr, hstate, s, hs, hrun, hn⟩ := hlost
  exact hn (((h plainCrates _ _ (script_run lateFailureReport (by decide +kernel)) r hr).1
    hstate).2 s hs hrun)

end Khronos.Proofs
