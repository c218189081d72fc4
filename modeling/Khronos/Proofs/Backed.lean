import Khronos.Proofs.Moves
import Khronos.Server.Replays

namespace Khronos.Proofs
open Time Lib Db.Activities Db.Workflows Server

/-- Every step carries one of the policies of the built-in definitions. -/
def BuiltIn (db : Db) : Prop := ∀ s ∈ db.workflowSteps, s.retryPolicyJson ∈ builtInPolicies

theorem builtIn_empty : BuiltIn .empty := by
  intro s hs
  cases hs

theorem moved_builtIn {crates : Crates} (hw : WellFormed db) (hb : BuiltIn db)
    (hm : Moved crates env op db db') : BuiltIn db' := by
  intro s' hs'
  cases hm with
  | still hs ha => exact hb s' (hs ▸ hs')
  | beaten id hs ha => exact hb s' (hs ▸ hs')
  | started new hop hnew hs ha =>
    rw [hs] at hs'
    rcases List.mem_append.mp hs' with hold | hold
    · exact hb s' hold
    · exact hnew.policy s' hold
  | dispatched s hc hs ha =>
    have hmem := (chosen_mem hc).1
    rw [hs, mem_dispatched_steps hw hmem] at hs'
    rcases hs' with rfl | ⟨hold, _⟩
    · exact hb s hmem
    · exact hb s' hold
  | reported id rep hop a s hact hstep hh hs ha =>
    have hmem := (stepOf_mem hstep).1
    rw [hs, mem_reported_steps hw hmem] at hs'
    rcases hs' with rfl | ⟨hold, _⟩
    · rw [(write_fixed _ _ _ _ _).policy]
      exact hb s hmem
    · exact hb s' hold

/-- The backoff of a built-in policy is a matter of seconds. -/
theorem builtIn_backoff (hp : policy ∈ builtInPolicies) {n : UInt32}
    (hn : n = 0 ∨ n = 1 ∨ n = 0 - 1) :
    0 ≤ backoffSecs policy n ∧ backoffSecs policy n ≤ 4 := by
  have h : ∀ policy ∈ builtInPolicies,
      (0 ≤ backoffSecs policy 0 ∧ backoffSecs policy 0 ≤ 4) ∧
      (0 ≤ backoffSecs policy 1 ∧ backoffSecs policy 1 ≤ 4) ∧
      (0 ≤ backoffSecs policy (0 - 1) ∧ backoffSecs policy (0 - 1) ≤ 4) := by decide +kernel
  obtain ⟨hzero, hone, hlast⟩ := h policy hp
  rcases hn with rfl | rfl | rfl
  · exact hzero
  · exact hone
  · exact hlast

/-- No retry time of a built-in policy is beyond what chrono can represent. -/
theorem builtIn_retryTime (hp : policy ∈ builtInPolicies) {n : UInt32}
    (hn : n = 0 ∨ n = 1 ∨ n = 0 - 1) (now : Clock) : (retryTime now policy n).isSome := by
  obtain ⟨hlow, hhigh⟩ := builtIn_backoff hp hn
  have h1 : Duration.seconds (backoffSecs policy n) = some ⟨backoffSecs policy n * second⟩ := by
    unfold Duration.seconds i64Max
    rw [if_pos (by omega)]
  have hsince := now.since
  have hbefore := now.before
  unfold second at hbefore
  rw [retryTime, h1, Option.bind_some, DateTime.add, if_pos]
  · rfl
  · unfold firstSecs lastSecs second
    dsimp only
    omega

theorem below_three (h : n < m) (hm : m = 1 ∨ m = 2 ∨ m = 3) :
    (n : UInt32) - 1 = 0 ∨ n - 1 = 1 ∨ n - 1 = 0 - 1 := by
  have hn : n.toNat < 3 := by
    have := UInt32.lt_iff_toNat_lt.mp h
    rcases hm with rfl | rfl | rfl <;> simp at this <;> omega
  obtain h0 | h1 | h2 : n = 0 ∨ n = 1 ∨ n = 2 := by
    have : n.toNat = 0 ∨ n.toNat = 1 ∨ n.toNat = 2 := by omega
    rcases this with h | h | h
    · exact .inl (UInt32.toNat_inj.mp h)
    · exact .inr (.inl (UInt32.toNat_inj.mp h))
    · exact .inr (.inr (UInt32.toNat_inj.mp h))
  all_goals subst n; decide

/-- A failure of a built-in step always finds its retry time. -/
theorem builtIn_due (hp : policy ∈ builtInPolicies) {rep : Report} {n : UInt32}
    (hlt : rep.counted n < policy.maximumAttempts) (env : Env) : (rep.due env n policy).isSome := by
  have hmax : policy.maximumAttempts = 1 ∨ policy.maximumAttempts = 2 ∨
      policy.maximumAttempts = 3 := by
    simp only [builtInPolicies, List.mem_cons, List.not_mem_nil, or_false] at hp
    rcases hp with rfl | rfl | rfl <;> simp
  have hsub := below_three hlt hmax
  cases rep with
  | result json => exact builtIn_retryTime hp hsub _
  | failure message => exact builtIn_retryTime hp hsub _
  | timeout =>
    refine builtIn_retryTime hp ?_ _
    unfold Engine.predecessor
    split
    · exact .inl rfl
    · exact hsub

theorem counted_le (rep : Report) (n : UInt32) : (rep.counted n).toNat ≤ n.toNat + 1 := by
  have hadd : (n + 1).toNat ≤ n.toNat + 1 := by
    rw [UInt32.toNat_add]
    exact Nat.mod_le _ _
  cases rep with
  | timeout => exact Nat.le_succ _
  | result json => exact hadd
  | failure message => exact hadd

/-- What an activity shows for the state its step is in. -/
def Backs (s : WorkflowStepRow) (a : ActivityRow) : Prop :=
  a.stepId = s.id ∧ match s.state with
    | .running => a.state = .running ∧ a.attempt = s.attempt
    | .completed => a.state = .completed ∧ a.resultJson = s.resultJson
    | .failed => a.state = .failed ∧
      s.retryPolicyJson.maximumAttempts.toNat ≤ a.attempt.toNat + 1
    | .pending => a.state = .failed ∧ s.nextRetryAt ≠ none
    | .retried => False

/-- Every step but one that was never handed out is backed by an activity of its own. -/
def Backed (db : Db) : Prop :=
  ∀ s ∈ db.workflowSteps, (s.state = .pending ∧ s.attempt = 0) ∨ ∃ a ∈ db.activities, Backs s a

theorem Backs.beat (h : Backs s a) (now : Clock) : Backs s (beat now a) := by
  unfold Backs at h ⊢
  exact h

/-- After a report the step is backed by the activity it was about. -/
theorem write_backs (hp : s.retryPolicyJson ∈ builtInPolicies) (he : s.id = a.stepId)
    (env : Env) (rep : Report) :
    Backs (rep.write env a.attempt s.retryPolicyJson s) (rep.mark env a) := by
  have hfailed : ∀ rep : Report, (rep.mark env a).state = .failed →
      Backs (failedStep (rep.counted a.attempt) s.retryPolicyJson
        (rep.due env a.attempt s.retryPolicyJson) s) (rep.mark env a) := by
    intro rep hstate
    refine ⟨by rw [mark_stepId, (failedStep_fixed _ _ _ _).id, he], ?_⟩
    by_cases hlt : rep.counted a.attempt < s.retryPolicyJson.maximumAttempts
    · obtain ⟨due, hdue⟩ := Option.isSome_iff_exists.mp (builtIn_due hp hlt env)
      simp [failedStep, hlt, hdue, setStep, hstate]
    · simp only [failedStep, if_neg hlt, setStep, mark_attempt, hstate, true_and]
      have hle := UInt32.le_iff_toNat_le.mp (UInt32.not_lt.mp hlt)
      exact hle.trans (counted_le rep a.attempt)
  cases rep with
  | result json => exact ⟨he.symm, rfl, rfl⟩
  | failure message => exact hfailed (.failure message) rfl
  | timeout => exact hfailed .timeout rfl

/-- A report leaves the backing of the other steps alone. -/
theorem backs_reported (hw : WellFormed db) (ha : a ∈ db.activities) (he : s.id = a.stepId)
    (hn : s'.id ≠ s.id) (hb : b ∈ db.activities) (hbacks : Backs s' b) :
    b ∈ (reported env rep a s db).activities := by
  refine (mem_reported_activities hw ha).mpr (.inr ⟨hb, ?_⟩)
  intro hid
  obtain rfl := hw.activities.unique hb ha (key_iff.mpr hid)
  exact hn (hbacks.1.symm.trans he.symm)

theorem moved_backed {crates : Crates} (hw : WellFormed db) (hp : BuiltIn db) (hb : Backed db)
    (hm : Moved crates env op db db') : Backed db' := by
  intro s' hs'
  cases hm with
  | still hs ha =>
    rw [ha]
    exact hb s' (hs ▸ hs')
  | started new hop hnew hs ha =>
    rw [hs] at hs'
    rw [ha]
    rcases List.mem_append.mp hs' with hold | hold
    · exact hb s' hold
    · exact .inl ⟨(hnew.waits s' hold).1, (hnew.waits s' hold).2.1⟩
  | dispatched s hc hs ha =>
    have hmem := (chosen_mem hc).1
    rw [hs, mem_dispatched_steps hw hmem] at hs'
    rw [ha]
    rcases hs' with rfl | ⟨hold, _⟩
    · refine .inr ⟨newAttempt env s, mem_dispatched_activities.mpr (.inr rfl), rfl, rfl, ?_⟩
      rfl
    · refine (hb s' hold).imp_right ?_
      rintro ⟨a, hm, hbacks⟩
      exact ⟨a, mem_dispatched_activities.mpr (.inl hm), hbacks⟩
  | reported id rep hop a s hact hstep hh hs ha =>
    obtain ⟨hmem, he⟩ := stepOf_mem hstep
    obtain ⟨hamem, _⟩ := activityOf_mem hact
    rw [hs, mem_reported_steps hw hmem] at hs'
    rw [ha]
    rcases hs' with rfl | ⟨hold, hn⟩
    · exact .inr ⟨rep.mark env a, (mem_reported_activities hw hamem).mpr (.inl rfl),
        write_backs (hp s hmem) he env rep⟩
    · refine (hb s' hold).imp_right ?_
      rintro ⟨b, hb, hbacks⟩
      exact ⟨b, backs_reported hw hamem he hn hb hbacks, hbacks⟩
  | beaten id hs ha =>
    rw [ha]
    refine (hb s' (hs ▸ hs')).imp_right ?_
    rintro ⟨b, hb, hbacks⟩
    refine ⟨_, Table.update_mem hb, ?_⟩
    split
    · exact hbacks.beat _
    · exact hbacks

/-- Steps and activities agree in every reachable state. -/
theorem reachable_backed (h : (server crates).Reachable w) : Backed w.db := by
  obtain ⟨s, ts, rfl, hr⟩ := h
  refine (run_moved (P := fun db => BuiltIn db ∧ Backed db) ?_ hr .empty
    ⟨builtIn_empty, ?_⟩).2.2
  · intro db db' env op hw _ hp hm
    exact ⟨moved_builtIn hw hp.1 hm, moved_backed hw hp.1 hp.2 hm⟩
  · intro s hs
    cases hs

/-- In every reachable state: a running step has a running activity with the step's attempt,
a completed step has a completed activity with the step's result, a failed step has a failed
activity whose attempt reaches the maximum, and a step that waits for a retry has a failed
activity and a retry time. -/
theorem reachable_steps_match_activities (h : (server crates).Reachable w)
    (hs : s ∈ w.db.workflowSteps) :
    (s.state = .running → ∃ a ∈ w.db.activities, a.stepId = s.id ∧ a.state = .running ∧
      a.attempt = s.attempt) ∧
    (s.state = .completed → ∃ a ∈ w.db.activities, a.stepId = s.id ∧ a.state = .completed ∧
      a.resultJson = s.resultJson) ∧
    (s.state = .failed → ∃ a ∈ w.db.activities, a.stepId = s.id ∧ a.state = .failed ∧
      s.retryPolicyJson.maximumAttempts.toNat ≤ a.attempt.toNat + 1) ∧
    (s.state = .pending → 0 < s.attempt → (∃ a ∈ w.db.activities, a.stepId = s.id ∧
      a.state = .failed) ∧ s.nextRetryAt ≠ none) := by
  rcases reachable_backed h s hs with ⟨hstate, hzero⟩ | ⟨a, ha, hid, hb⟩
  · simp [hstate, hzero]
  · cases hstate : s.state with
    | running =>
      simp only [hstate] at hb
      simpa using ⟨a, ha, hid, hb⟩
    | completed =>
      simp only [hstate] at hb
      simpa using ⟨a, ha, hid, hb⟩
    | failed =>
      simp only [hstate] at hb
      simpa using ⟨a, ha, hid, hb⟩
    | pending =>
      simp only [hstate] at hb
      simpa using fun _ => ⟨⟨a, ha, hid, hb.1⟩, hb.2⟩
    | retried => simp [hstate] at hb

/-- A failed attempt has been handed out once more. -/
def retriedStep : List Op :=
  [.startWorkflow ⟨"x", [], "", "", none, ""⟩, .pollActivity ⟨"", ["x"]⟩,
    .reportActivityFailure ⟨"id-10", "boom"⟩, .pollActivity ⟨"", ["x"]⟩]

theorem retried_step_matches_activity :
    ∃ s ∈ ((server plainCrates).ending .empty (script retriedStep)).db.workflowSteps,
      s.state = .running ∧
        ∃ a ∈ ((server plainCrates).ending .empty (script retriedStep)).db.activities,
          a.stepId = s.id ∧ a.state = .running ∧ a.attempt = s.attempt := by
  have hr := script_run retriedStep (by decide +kernel)
  have hrunning : ∃ s ∈ ((server plainCrates).ending .empty (script retriedStep)).db.workflowSteps,
      s.state = .running := by decide +kernel
  obtain ⟨s, hs, hstate⟩ := hrunning
  exact ⟨s, hs, hstate, (reachable_steps_match_activities ⟨_, _, rfl, hr⟩ hs).1 hstate⟩

end Khronos.Proofs
