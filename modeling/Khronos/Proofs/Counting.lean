import Khronos.Proofs.Moves
import Khronos.Server.Replays

namespace Khronos.Proofs
open Time Lib Db.Activities Db.Workflows Server

/-- A step of the server hands out the workflow step of an id. -/
def handsOut (crates : Crates) (u : Uuid) (τ : ServerStep) : Bool :=
  (handedOut crates τ).any (fun a => a.stepId = u)

/-- A step of the server processes a failure report or a heartbeat timeout for an activity of
the workflow step of an id. -/
def fails (crates : Crates) (u : Uuid) (τ : ServerStep) : Bool :=
  match reportOf crates τ.input.op with
  | some (activityId, rep) => rep.failing &&
    (activityOf τ.before.db activityId).any (fun a => a.stepId = u && decide (rep.heard a))
  | none => false

/-- The hand-outs of a step that no failure has to pay for. -/
def owed (u : Uuid) (w : World) : Nat :=
  match stepOf w.db u with
  | some s => if s.state = .pending then 1 else 0
  | none => 1

theorem owed_le_one (u : Uuid) (w : World) : owed u w ≤ 1 := by
  unfold owed
  split
  · split <;> omega
  · omega

theorem owed_zero (h : stepOf w.db u = some s) (hn : s.state ≠ .pending) : owed u w = 0 := by
  simp [owed, h, hn]

/-- A step of the server that hands out a workflow step, or makes it pending, takes what is
owed or is a failure. -/
theorem step_paid (hw : WellFormed w.db) {call : Call} (hc : (server crates).admits w call)
    (u : Uuid) :
    owed u ((server crates).step w call).2 +
        (if handsOut crates u ((server crates).transition w call) then 1 else 0) ≤
      owed u w + (if fails crates u ((server crates).transition w call) then 1 else 0) := by
  have hw' := step_wellFormed crates call hw
  by_cases hout : handsOut crates u ((server crates).transition w call) = true
  · obtain ⟨a, ha, hau⟩ := Option.any_eq_true _ _ |>.mp hout
    obtain ⟨s, hs, rfl, hafter⟩ := handedOut_dispatched hc ha
    have hsu : s.id = u := of_decide_eq_true hau
    have hmem := (chosen_mem hs).1
    have hbefore : owed u w = 1 := by
      rw [owed, ← hsu, hw.stepOf_self hmem]
      simp [chosen_pending hw hs]
    have hrun : running s ∈ ((server crates).step w call).2.db.workflowSteps := by
      rw [hafter]
      exact (mem_dispatched_steps hw hmem).mpr (.inl rfl)
    have hzero : owed u ((server crates).step w call).2 = 0 :=
      owed_zero (s := running s) (by rw [← hsu]; exact hw'.stepOf_self hrun) (by simp [setStep])
    rw [hbefore, hzero, if_pos hout]
    omega
  · rw [if_neg hout]
    cases hstep : stepOf w.db u with
    | none =>
      have hone : owed u w = 1 := by rw [owed, hstep]
      have := owed_le_one u ((server crates).step w call).2
      omega
    | some s =>
      by_cases hpend : s.state = .pending
      · have hone : owed u w = 1 := by simp [owed, hstep, hpend]
        have := owed_le_one u ((server crates).step w call).2
        omega
      · obtain ⟨hmem, hsu⟩ := stepOf_mem hstep
        rcases (step_moved hw crates hc).follow hw hmem with
          hs | ⟨hch, _⟩ | ⟨activityId, rep, a, hop, hact, hown, hh, hs⟩
        · rw [owed_zero (by rw [← hsu]; exact hw'.stepOf_self hs) hpend]
          omega
        · exact absurd (chosen_pending hw hch) hpend
        · by_cases hp' : (rep.write call.env a.attempt s.retryPolicyJson s).state = .pending
          · have hfail : fails crates u ((server crates).transition w call) = true := by
              have hau : a.stepId = u := ((stepOf_mem hown).2.symm.trans hsu)
              have hf : rep.failing = true := by
                cases rep with
                | result json => cases hp'
                | failure message => rfl
                | timeout => rfl
              simp [fails, Machine.transition, hop, hact, hf, hau, hh]
            rw [if_pos hfail]
            have := owed_le_one u ((server crates).step w call).2
            omega
          · have hself := hw'.stepOf_self hs
            rw [(write_fixed _ _ _ _ _).id, hsu] at hself
            rw [owed_zero hself hp']
            omega

/-- The law over any stretch of a run. -/
theorem run_paid {ts : List ServerStep} (hr : (server crates).Run v ts w) (hv : WellFormed v.db)
    (u : Uuid) :
    owed u w + ts.countP (handsOut crates u) ≤ owed u v + ts.countP (fails crates u) :=
  hr.charged (P := fun w => WellFormed w.db) (fun _ call h _ => step_wellFormed crates call h)
    (fun _ _ h hc => step_paid h hc u) hv

/-- A poll reports nothing. -/
theorem handsOut_reports_none {call : Call} (hc : (server crates).admits w call)
    (h : handsOut crates u ((server crates).transition w call) = true) :
    reportOf crates call.op = none := by
  obtain ⟨a, ha, _⟩ := Option.any_eq_true _ _ |>.mp h
  obtain ⟨s, hs, _, _⟩ := handedOut_dispatched hc ha
  have hasks := (chosen_mem hs).2.2
  obtain ⟨env, op⟩ := call
  cases op <;> first | rfl | simp [asks] at hasks

theorem handsOut_not_fails {call : Call} (hc : (server crates).admits w call)
    (h : handsOut crates u ((server crates).transition w call) = true) :
    fails crates u ((server crates).transition w call) = false := by
  unfold fails
  rw [show ((server crates).transition w call).input.op = call.op from rfl,
    handsOut_reports_none hc h]

/-- A step that nothing is owed to is not handed out before a failure. -/
theorem failure_first {mid vs : List ServerStep} {σ : ServerStep}
    (hr : (server crates).Run v (mid ++ σ :: vs) w) (hv : WellFormed v.db)
    (hzero : owed u v = 0) (hσ : handsOut crates u σ = true) :
    ∃ ρ ∈ mid, fails crates u ρ = true := by
  obtain ⟨hmid, hi, he, _⟩ := hr.at
  have hpaid := run_paid (hmid.append (Machine.Run.single hi)) hv u
  rw [he] at hσ
  rw [List.countP_append, List.countP_append, List.countP_singleton, List.countP_singleton, hσ,
    handsOut_not_fails hi hσ] at hpaid
  simp only [if_true, Bool.false_eq_true, if_false] at hpaid
  exact List.countP_pos_iff.mp (by omega)

theorem owed_handedOut {call : Call} (hw : WellFormed w.db)
    (hc : (server crates).admits w call)
    (h : handsOut crates u ((server crates).transition w call) = true) :
    owed u ((server crates).step w call).2 = 0 := by
  have hpaid := step_paid hw hc u
  rw [if_pos h, handsOut_not_fails hc h] at hpaid
  have := owed_le_one u w
  simp only [Bool.false_eq_true, if_false] at hpaid
  omega

/-- In every run, for every step: it is handed out at most once more than failure reports and
heartbeat timeouts are processed for its activities; between any two hand-outs there is such
a failure; and once it is completed, it is not handed out again before one. -/
theorem run_handOuts_le {ts : List ServerStep} (hr : (server crates).Run .empty ts w) (u : Uuid) :
    ts.countP (handsOut crates u) ≤ 1 + ts.countP (fails crates u) ∧
    (∀ us τ mid σ vs, ts = us ++ τ :: (mid ++ σ :: vs) → handsOut crates u τ = true →
      handsOut crates u σ = true → ∃ ρ ∈ mid, fails crates u ρ = true) ∧
    (∀ us τ mid σ vs, ts = us ++ τ :: (mid ++ σ :: vs) →
      (∃ s ∈ τ.after.db.workflowSteps, s.id = u ∧ s.state = .completed) →
      handsOut crates u σ = true → ∃ ρ ∈ mid, fails crates u ρ = true) := by
  refine ⟨?_, ?_, ?_⟩
  · have hpaid := run_paid hr .empty u
    have := owed_le_one u World.empty
    omega
  · rintro us τ mid σ vs rfl hτ hσ
    obtain ⟨hu, hi, he, hv⟩ := hr.at
    have hw := run_wellFormed hu .empty
    rw [he] at hτ hv
    exact failure_first hv (step_wellFormed crates _ hw) (owed_handedOut hw hi hτ) hσ
  · rintro us τ mid σ vs rfl ⟨s, hs, hsu, hstate⟩ hσ
    obtain ⟨hu, hi, he, hv⟩ := hr.at
    have hw := run_wellFormed hu .empty
    have hw' : WellFormed τ.after.db := by
      rw [he]
      exact step_wellFormed crates _ hw
    refine failure_first hv hw' (owed_zero (s := s) ?_ (by simp [hstate])) hσ
    rw [← hsu]
    exact hw'.stepOf_self hs

/-- Two workers poll through the two interfaces, and the first one's failure is reported twice. -/
def twoWorkers : List Op :=
  [.startWorkflow ⟨"x", [], "", "", none, ""⟩, .pollActivity ⟨"", ["x"]⟩,
    .pollActivityTaskQueue ⟨some "default"⟩, .reportActivityFailure ⟨"id-10", "boom"⟩,
    .pollActivityTaskQueue ⟨some "default"⟩, .reportActivityFailure ⟨"id-10", "boom"⟩]

theorem two_workers_handOuts_le :
    ((server plainCrates).replay .empty (script twoWorkers)).countP
        (handsOut plainCrates ⟨"id-1"⟩) = 2 ∧
      ((server plainCrates).replay .empty (script twoWorkers)).countP
          (handsOut plainCrates ⟨"id-1"⟩) ≤
        1 + ((server plainCrates).replay .empty (script twoWorkers)).countP
          (fails plainCrates ⟨"id-1"⟩) :=
  ⟨by decide +kernel, (run_handOuts_le (script_run twoWorkers (by decide +kernel)) _).1⟩

end Khronos.Proofs
