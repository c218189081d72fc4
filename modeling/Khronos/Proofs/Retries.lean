import Khronos.Proofs.Counting

namespace Khronos.Proofs
open Time Lib Db.Activities Db.Workflows Server

/-- The attempt numbers with which a workflow step is handed out, in order. -/
def attemptsOf (crates : Crates) (u : Uuid) (ts : List ServerStep) : List UInt32 :=
  ts.filterMap fun τ => (handedOut crates τ).bind fun a =>
    if a.stepId = u then some a.attempt else none

/-- A step of the server touches a workflow step: it hands it out, is a report on an activity
of it, or changes its row. -/
def Touches (crates : Crates) (u : Uuid) (τ : ServerStep) : Prop :=
  handsOut crates u τ = true ∨
  (∃ activityId rep a, reportOf crates τ.input.op = some (activityId, rep) ∧
    activityOf τ.before.db activityId = some a ∧ a.stepId = u) ∨
  stepOf τ.after.db u ≠ stepOf τ.before.db u

/-- Each activity handed out for a workflow step is reported failed once by a worker before the
step is handed out again, and nothing else touches the step. The index is the activity that
still waits for its report. -/
inductive FailsEach (crates : Crates) (u : Uuid) : Option Uuid → List ServerStep → Prop
  | done (o : Option Uuid) : FailsEach crates u o []
  | other (o : Option Uuid) (τ : ServerStep) (ts : List ServerStep) (hn : ¬ Touches crates u τ)
      (h : FailsEach crates u o ts) : FailsEach crates u o (τ :: ts)
  | handOut (τ : ServerStep) (ts : List ServerStep) (a : ActivityRow)
      (hout : handedOut crates τ = some a) (ha : a.stepId = u)
      (h : FailsEach crates u (some a.id) ts) : FailsEach crates u none (τ :: ts)
  | failure (τ : ServerStep) (ts : List ServerStep) (i : Uuid) (message : String)
      (hop : reportOf crates τ.input.op = some (i.text, .failure message))
      (h : FailsEach crates u none ts) : FailsEach crates u (some i) (τ :: ts)

/-- What a maximum of `m` attempts promises of a run: attempts are numbered from 1 and there
are at most `m`, and the step has failed when and only when `m` of them have, which then are
all there were. -/
structure AsPromised (crates : Crates) (u : Uuid) (m : Nat) (ts : List ServerStep) (w : World) :
    Prop where
  numbers : attemptsOf crates u ts =
    (List.range (ts.countP (handsOut crates u))).map (fun i => UInt32.ofNat (i + 1))
  atMost : ts.countP (handsOut crates u) ≤ m
  failed : (∃ s ∈ w.db.workflowSteps, s.id = u ∧ s.state = .failed) ↔
    ts.countP (fails crates u) = m
  exactly : (∃ s ∈ w.db.workflowSteps, s.id = u ∧ s.state = .failed) →
    ts.countP (handsOut crates u) = m

/-- How far the attempts of a step of `m` attempts are: the numbers handed out, the failures
reported, and the activity that waits for its report. A failure moves the number on by two. -/
inductive Phase (u : Uuid) (m : UInt32) (db : Db) : List UInt32 → Nat → Option Uuid → Prop
  | fresh (s : WorkflowStepRow) (hs : stepOf db u = some s)
      (hm : s.retryPolicyJson.maximumAttempts = m) (hp : s.state = .pending)
      (hz : s.attempt = 0) : Phase u m db [] 0 none
  | first (s : WorkflowStepRow) (hs : stepOf db u = some s)
      (hm : s.retryPolicyJson.maximumAttempts = m) (hr : s.state = .running) (a : ActivityRow)
      (ha : a ∈ db.activities) (hau : a.stepId = u) (hone : a.attempt = 1) :
      Phase u m db [1] 0 (some a.id)
  | spent (s : WorkflowStepRow) (hs : stepOf db u = some s) (hf : s.state = .failed)
      (hm : ¬ 2 < m) : Phase u m db [1] 1 none
  | again (s : WorkflowStepRow) (hs : stepOf db u = some s) (hn : s.state ≠ .failed)
      (hatt : s.state = .pending → s.attempt = 2) (hm : 2 < m) : Phase u m db [1] 1 none
  | later (rest : List UInt32) (f : Nat) (o : Option Uuid) (hm : 2 < m) :
      Phase u m db (1 :: 3 :: rest) f o

/-- No operation but its own report changes what an activity is an attempt of. -/
theorem Moved.activity {crates : Crates} (hm : Moved crates env op db db')
    (ha : a ∈ db.activities) :
    ∃ a' ∈ db'.activities, a'.id = a.id ∧ a'.stepId = a.stepId ∧ a'.attempt = a.attempt := by
  cases hm with
  | still _ h => exact ⟨a, h ▸ ha, rfl, rfl, rfl⟩
  | started new hop hnew _ h => exact ⟨a, h ▸ ha, rfl, rfl, rfl⟩
  | dispatched s hc _ h =>
    rw [h]
    exact ⟨a, mem_dispatched_activities.mpr (.inl ha), rfl, rfl, rfl⟩
  | reported id rep hop b s hact hstep hh _ h =>
    rw [h]
    refine ⟨_, Table.update_mem ha, ?_⟩
    split <;> simp
  | beaten id _ h =>
    rw [h]
    refine ⟨_, Table.update_mem ha, ?_⟩
    split <;> simp [beat]

theorem attemptsOf_cons (crates : Crates) (u : Uuid) (τ : ServerStep) (ts : List ServerStep) :
    attemptsOf crates u (τ :: ts) = attemptsOf crates u [τ] ++ attemptsOf crates u ts :=
  List.filterMap_append (l := [τ])

theorem handsOut_of (hout : handedOut crates τ = some a) (ha : a.stepId = u) :
    handsOut crates u τ = true := by
  simp [handsOut, hout, ha]

/-- A failure is a report on an activity of the step. -/
theorem fails_about (h : fails crates u τ = true) :
    ∃ activityId rep a, reportOf crates τ.input.op = some (activityId, rep) ∧
      activityOf τ.before.db activityId = some a ∧ a.stepId = u := by
  unfold fails at h
  cases hop : reportOf crates τ.input.op with
  | none => simp [hop] at h
  | some p =>
    obtain ⟨activityId, rep⟩ := p
    simp only [hop, Bool.and_eq_true, Option.any_eq_true, decide_eq_true_eq] at h
    obtain ⟨_, a, ha, hau, _⟩ := h
    exact ⟨activityId, rep, a, rfl, ha, hau⟩

theorem attemptsOf_idle (h : handsOut crates u τ = false) : attemptsOf crates u [τ] = [] := by
  unfold handsOut at h
  cases hout : handedOut crates τ with
  | none => simp [attemptsOf, hout]
  | some a =>
    rw [hout] at h
    simp [attemptsOf, hout, (by simpa using h : a.stepId ≠ u)]

theorem attemptsOf_handOut (hout : handedOut crates τ = some a) (ha : a.stepId = u) :
    attemptsOf crates u [τ] = [a.attempt] := by
  simp [attemptsOf, hout, ha]

theorem attemptsOf_length (crates : Crates) (u : Uuid) (ts : List ServerStep) :
    (attemptsOf crates u ts).length = ts.countP (handsOut crates u) := by
  induction ts with
  | nil => rfl
  | cons τ ts ih =>
    rw [attemptsOf_cons, List.length_append, ih, List.countP_cons, Nat.add_comm]
    cases h : handsOut crates u τ with
    | false => simp [attemptsOf_idle h]
    | true =>
      obtain ⟨a, hout, ha⟩ := Option.any_eq_true _ _ |>.mp h
      simp [attemptsOf_handOut hout (of_decide_eq_true ha)]

section Step
variable {crates : Crates} {w : World} {call : Call} {u : Uuid} {m : UInt32}
  {acc : List UInt32} {f : Nat}

/-- What does not touch the step leaves it in its phase. -/
theorem phase_other (hw : WellFormed w.db) (hc : (server crates).admits w call)
    (hn : ¬ Touches crates u ((server crates).transition w call)) (h : Phase u m w.db acc f o) :
    Phase u m ((server crates).step w call).2.db acc f o := by
  have hsame : stepOf ((server crates).step w call).2.db u = stepOf w.db u :=
    not_not.mp (fun h => hn (.inr (.inr h)))
  cases h with
  | fresh s hs hm hp hz => exact .fresh s (hsame.trans hs) hm hp hz
  | first s hs hm hr a ha hau hone =>
    obtain ⟨a', ha', hid, hstep, hatt⟩ := (step_moved hw crates hc).activity ha
    rw [← hid]
    exact .first s (hsame.trans hs) hm hr a' ha' (hstep.trans hau) (hatt.trans hone)
  | spent s hs hf hm => exact .spent s (hsame.trans hs) hf hm
  | again s hs hnf hatt hm => exact .again s (hsame.trans hs) hnf hatt hm
  | later rest f o hm => exact .later rest f o hm

theorem phase_handOut (hw : WellFormed w.db) (hc : (server crates).admits w call)
    (hout : handedOut crates ((server crates).transition w call) = some a) (ha : a.stepId = u)
    (h : Phase u m w.db acc f none) :
    Phase u m ((server crates).step w call).2.db (acc ++ [a.attempt]) f (some a.id) := by
  obtain ⟨q, hq, rfl, hafter⟩ := handedOut_dispatched hc hout
  have hmem := (chosen_mem hq).1
  have hw' := step_wellFormed crates call hw
  have hself : ∀ s, stepOf w.db u = some s → s = q := by
    intro s hs
    obtain ⟨hsm, hsu⟩ := stepOf_mem hs
    exact hw.steps.unique hsm hmem (key_iff.mpr (hsu.trans ha.symm))
  cases h with
  | fresh s hs hm hp hz =>
    obtain rfl := hself s hs
    have hrun : running s ∈ ((server crates).step w call).2.db.workflowSteps := by
      rw [hafter]
      exact (mem_dispatched_steps hw hmem).mpr (.inl rfl)
    have hact : newAttempt call.env s ∈ ((server crates).step w call).2.db.activities := by
      rw [hafter]
      exact mem_dispatched_activities.mpr (.inr rfl)
    have hone : (newAttempt call.env s).attempt = 1 := by
      change s.attempt + 1 = 1
      rw [hz]
      rfl
    have hstep : stepOf ((server crates).step w call).2.db u = some (running s) := by
      rw [← ha]
      exact hw'.stepOf_self hrun
    rw [hone]
    exact .first (running s) hstep hm rfl (newAttempt call.env s) hact ha hone
  | spent s hs hf hm =>
    obtain rfl := hself s hs
    rw [chosen_pending hw hq] at hf
    cases hf
  | again s hs hn hatt hm =>
    obtain rfl := hself s hs
    have hthree : (newAttempt call.env s).attempt = 3 := by
      change s.attempt + 1 = 3
      rw [hatt (chosen_pending hw hq)]
      rfl
    rw [hthree]
    exact .later [] 1 _ hm
  | later rest f o hm => exact .later (rest ++ [_]) f _ hm

theorem phase_failure (hw : WellFormed w.db)
    (hop : reportOf crates call.op = some (i.text, .failure message))
    (h : Phase u m w.db acc f (some i)) :
    Phase u m ((server crates).step w call).2.db acc
      (f + if fails crates u ((server crates).transition w call) then 1 else 0) none := by
  have hw' := step_wellFormed crates call hw
  cases h with
  | first s hs hm hr a ha hau hone =>
    have hact : activityOf w.db a.id.text = some a := hw.activityOf_self ha
    have hown : stepOf w.db a.stepId = some s := by rw [hau]; exact hs
    obtain ⟨hmem, hsu⟩ := stepOf_mem hs
    have hfail : fails crates u ((server crates).transition w call) = true := by
      simp only [fails, Machine.transition, hop, hact, Option.any_some, hau, decide_true,
        Bool.true_and]
      exact decide_eq_true trivial
    have hsteps := exec_reported hop hact hown trivial call.env
    have hstep : stepOf ((server crates).step w call).2.db u =
        some ((Report.failure message).write call.env a.attempt s.retryPolicyJson s) := by
      rw [← hsu, ← (write_fixed call.env a.attempt s.retryPolicyJson (.failure message) s).id]
      refine hw'.stepOf_self ?_
      change _ ∈ ((exec crates call.env call.op).after w).db.workflowSteps
      rw [hsteps]
      exact (mem_reported_steps hw hmem).mpr (.inl rfl)
    have htwo : (Report.failure message).counted a.attempt = 2 := by
      change a.attempt + 1 = 2
      rw [hone]
      rfl
    rw [if_pos hfail]
    by_cases hlt : 2 < m
    · refine .again _ hstep ?_ ?_ hlt
      · simp only [Report.write, failedStep, htwo, hm, if_pos hlt]
        cases (Report.failure message).due call.env a.attempt s.retryPolicyJson with
        | some due => simp [setStep]
        | none => simp [hr]
      · intro hpend
        rcases write_pending hpend with ⟨_, hatt⟩ | hsame
        · exact hatt.trans htwo
        · rw [hsame, hr] at hpend
          cases hpend
    · refine .spent _ hstep ?_ hlt
      simp [Report.write, failedStep, htwo, hm, hlt, setStep]
  | later rest f o hm => exact .later rest _ none hm

end Step

/-- A run in which each attempt fails goes through the phases. -/
theorem run_phase {ts : List ServerStep} (hr : (server crates).Run v ts w) (hv : WellFormed v.db)
    (heach : FailsEach crates u o ts) (h : Phase u m v.db acc f o) :
    ∃ o', Phase u m w.db (acc ++ attemptsOf crates u ts) (f + ts.countP (fails crates u)) o' := by
  induction heach generalizing v acc f with
  | done o =>
    obtain rfl := hr.nothing
    exact ⟨o, by simpa [attemptsOf] using h⟩
  | other o τ ts hn _ ih =>
    obtain ⟨call, hi, rfl, hrest⟩ := hr.first
    have hout : handsOut crates u ((server crates).transition v call) = false := by
      simpa using fun hh => hn (.inl hh)
    have hfail : fails crates u ((server crates).transition v call) = false := by
      by_contra hf
      rw [Bool.not_eq_false] at hf
      exact hn (.inr (.inl (fails_about hf)))
    obtain ⟨o', h'⟩ := ih hrest (step_wellFormed crates call hv) (phase_other hv hi hn h)
    rw [attemptsOf_cons, attemptsOf_idle hout, List.countP_cons, hfail]
    exact ⟨o', h'⟩
  | handOut τ ts a hout ha _ ih =>
    obtain ⟨call, hi, rfl, hrest⟩ := hr.first
    have hfail : fails crates u ((server crates).transition v call) = false :=
      handsOut_not_fails hi (handsOut_of hout ha)
    obtain ⟨o', h'⟩ := ih hrest (step_wellFormed crates call hv) (phase_handOut hv hi hout ha h)
    rw [attemptsOf_cons, attemptsOf_handOut hout ha, List.countP_cons, hfail, ← List.append_assoc]
    exact ⟨o', h'⟩
  | failure τ ts i message hop _ ih =>
    obtain ⟨call, hi, rfl, hrest⟩ := hr.first
    have hout : handsOut crates u ((server crates).transition v call) = false := by
      by_contra hh
      rw [Bool.not_eq_false] at hh
      have hnone := handsOut_reports_none hi hh
      rw [show reportOf crates call.op = _ from hop] at hnone
      cases hnone
    obtain ⟨o', h'⟩ := ih hrest (step_wellFormed crates call hv) (phase_failure hv hop h)
    rw [attemptsOf_cons, attemptsOf_idle hout, List.countP_cons, Nat.add_comm (List.countP _ _),
      ← Nat.add_assoc]
    exact ⟨o', h'⟩

theorem failed_iff (hw : WellFormed db) (hq : stepOf db u = some q) :
    (∃ s ∈ db.workflowSteps, s.id = u ∧ s.state = .failed) ↔ q.state = .failed := by
  obtain ⟨hqm, hqu⟩ := stepOf_mem hq
  constructor
  · rintro ⟨s, hs, hid, hf⟩
    rwa [hw.steps.unique hs hqm (key_iff.mpr (hid.trans hqu.symm))] at hf
  · exact fun hf => ⟨q, hqm, hqu, hf⟩

/-- A phase that has handed out at most one attempt, seen as a promise. -/
theorem Phase.promise {ts : List ServerStep} (hw : WellFormed w.db)
    (h : Phase u 1 w.db (attemptsOf crates u ts) (ts.countP (fails crates u)) o) :
    AsPromised crates u 1 ts w := by
  have hlength := attemptsOf_length crates u ts
  generalize hacc : attemptsOf crates u ts = acc at h
  generalize hf : ts.countP (fails crates u) = f at h
  rw [hacc] at hlength
  cases h with
  | fresh s hs hm hp hz =>
    have hstate := failed_iff hw hs
    rw [hp] at hstate
    constructor <;> simp [hacc, hf, ← hlength, hstate]
  | first s hs hm hr a ha hau hone =>
    have hstate := failed_iff hw hs
    rw [hr] at hstate
    constructor <;> simp [hacc, hf, ← hlength, hstate, List.range_succ]
  | spent s hs hfail hm =>
    have hstate := failed_iff hw hs
    constructor <;> simp [hacc, hf, ← hlength, hstate, hfail, List.range_succ]
  | again s hs hn hatt hm => exact absurd hm (by decide)
  | later rest f o hm => exact absurd hm (by decide)

/-- For a step inserted with attempt 0 and any maximum, in every run in which a worker fails
each of its attempts once: with a maximum of 1 the step goes the way that this promises, and
where the step ends failed, it has gone the way its maximum promises only if that is 1. -/
theorem retries_as_promised_iff {s : WorkflowStepRow} (hw : WellFormed v.db)
    (hs : s ∈ v.db.workflowSteps) (hpend : s.state = .pending) (hzero : s.attempt = 0)
    {ts : List ServerStep} (hr : (server crates).Run v ts w)
    (heach : FailsEach crates s.id none ts) :
    (s.retryPolicyJson.maximumAttempts = 1 → AsPromised crates s.id 1 ts w) ∧
    ((∃ s' ∈ w.db.workflowSteps, s'.id = s.id ∧ s'.state = .failed) →
      (AsPromised crates s.id s.retryPolicyJson.maximumAttempts.toNat ts w ↔
        s.retryPolicyJson.maximumAttempts = 1)) := by
  have hw' := run_wellFormed hr hw
  obtain ⟨o, h⟩ := run_phase hr hw heach
    (.fresh s (hw.stepOf_self hs) rfl hpend hzero)
  rw [List.nil_append, Nat.zero_add] at h
  have hone : s.retryPolicyJson.maximumAttempts = 1 → AsPromised crates s.id 1 ts w := by
    intro hm
    rw [hm] at h
    exact h.promise hw'
  refine ⟨hone, fun hfailed => ⟨fun hp => ?_, fun hm => ?_⟩⟩
  · have hcount := hp.failed.mp hfailed
    have hnumbers := hp.numbers
    have hlength := attemptsOf_length crates s.id ts
    generalize attemptsOf crates s.id ts = acc at h hnumbers hlength
    rw [hcount] at h
    generalize hf : s.retryPolicyJson.maximumAttempts.toNat = f at h
    cases h with
    | fresh q hq hm hpq hz =>
      rw [failed_iff hw' hq, hpq] at hfailed
      cases hfailed
    | first q hq hm hrq a ha hau hone =>
      rw [failed_iff hw' hq, hrq] at hfailed
      cases hfailed
    | spent q hq hfq hm => exact UInt32.toNat_inj.mp hf
    | again q hq hn hatt hm => exact absurd ((failed_iff hw' hq).mp hfailed) hn
    | later rest f o hm =>
      -- The second attempt has number 3.
      rw [← hlength] at hnumbers
      have hsecond := congrArg (·[1]?) hnumbers
      simp at hsecond
  · rw [hm]
    exact hone hm

/-- An attempt of the step and its failure. -/
theorem FailsEach.attempt (i : Uuid) (message : String)
    (hout : (handedOut crates τ).any (fun a => decide (a.stepId = u ∧ a.id = i)) = true)
    (hop : reportOf crates σ.input.op = some (i.text, .failure message))
    (h : FailsEach crates u none ts) : FailsEach crates u none (τ :: σ :: ts) := by
  obtain ⟨a, ha, hd⟩ := Option.any_eq_true _ _ |>.mp hout
  obtain ⟨hau, rfl⟩ := of_decide_eq_true hd
  exact .handOut τ _ a ha hau (.failure σ ts a.id message hop h)

/-- A worker fails the only attempt of the fourth step of the cron pipeline. -/
def oneAttempt : List Op :=
  [.startWorkflow ⟨"cron_job_workflow", [], "", "", none, ""⟩,
    .pollActivity ⟨"", ["mark_job_run_activity"]⟩, .reportActivityFailure ⟨"id-10", "boom"⟩]

theorem one_attempt_as_promised :
    ∃ s ∈ ((server plainCrates).ending .empty (script (oneAttempt.take 1))).db.workflowSteps,
      s.stepIndex = 3 ∧ s.retryPolicyJson.maximumAttempts = 1 ∧
        AsPromised plainCrates s.id 1
          ((server plainCrates).replay
            ((server plainCrates).ending .empty (script (oneAttempt.take 1)))
            ((script oneAttempt).drop 1))
          ((server plainCrates).ending
            ((server plainCrates).ending .empty (script (oneAttempt.take 1)))
            ((script oneAttempt).drop 1)) := by
  have hstart := script_run (oneAttempt.take 1) (by decide +kernel)
  have hstep : ∃ s ∈ ((server plainCrates).ending .empty
      (script (oneAttempt.take 1))).db.workflowSteps, s.stepIndex = 3 ∧
        s.retryPolicyJson.maximumAttempts = 1 ∧ s.state = .pending ∧ s.attempt = 0 ∧
        s.id = ⟨"id-4"⟩ := by decide +kernel
  obtain ⟨s, hs, hindex, hm, hp, hz, hid⟩ := hstep
  have heach : FailsEach plainCrates s.id none ((server plainCrates).replay
      ((server plainCrates).ending .empty (script (oneAttempt.take 1)))
      ((script oneAttempt).drop 1)) := by
    rw [hid]
    refine .attempt ⟨"id-10"⟩ "boom" ?_ rfl (.done none)
    decide +kernel
  exact ⟨s, hs, hindex, hm, (retries_as_promised_iff (run_wellFormed hstart .empty) hs hp hz
    (Machine.run_replay _ _ (by decide +kernel)) heach).1 hm⟩

/-- A worker fails the attempts of a step that is to have three of them. -/
def threeAttempts : List Op :=
  [.startWorkflow ⟨"x", [], "", "", none, ""⟩, .pollActivity ⟨"", ["x"]⟩,
    .reportActivityFailure ⟨"id-10", "boom"⟩, .pollActivity ⟨"", ["x"]⟩,
    .reportActivityFailure ⟨"id-30", "boom"⟩]

/-- There are only two, with numbers 1 and 3. -/
theorem three_attempts_not_as_promised :
    ¬ ∀ (crates : Crates) (v w : World) (s : WorkflowStepRow) (ts : List ServerStep),
      (server crates).Reachable v → s ∈ v.db.workflowSteps → s.state = .pending →
        s.attempt = 0 → 1 ≤ s.retryPolicyJson.maximumAttempts → (server crates).Run v ts w →
        FailsEach crates s.id none ts →
        (∃ s' ∈ w.db.workflowSteps, s'.id = s.id ∧ s'.state = .failed) →
        AsPromised crates s.id s.retryPolicyJson.maximumAttempts.toNat ts w := by
  intro h
  have hstart := script_run (threeAttempts.take 1) (by decide +kernel)
  have hstep : ∃ s ∈ ((server plainCrates).ending .empty
      (script (threeAttempts.take 1))).db.workflowSteps,
        s.retryPolicyJson.maximumAttempts = 3 ∧ s.state = .pending ∧ s.attempt = 0 ∧
        s.id = ⟨"id-1"⟩ := by decide +kernel
  obtain ⟨s, hs, hm, hp, hz, hid⟩ := hstep
  have heach : FailsEach plainCrates s.id none ((server plainCrates).replay
      ((server plainCrates).ending .empty (script (threeAttempts.take 1)))
      ((script threeAttempts).drop 1)) := by
    rw [hid]
    refine .attempt ⟨"id-10"⟩ "boom" ?_ rfl
      (.attempt ⟨"id-30"⟩ "boom" ?_ rfl (.done none))
    · decide +kernel
    · decide +kernel
  have hpromise := h plainCrates _ _ s _ ⟨_, _, rfl, hstart⟩ hs hp hz (by rw [hm]; decide)
    (Machine.run_replay _ _ (by decide +kernel)) heach (by rw [hid]; decide +kernel)
  have hthree := hpromise.exactly (by rw [hid]; decide +kernel)
  rw [hm, hid] at hthree
  revert hthree
  decide +kernel

end Khronos.Proofs
