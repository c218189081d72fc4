import Khronos.Proofs.Backed

namespace Khronos.Proofs
open Time Lib Db.Activities Db.Workflows Server

theorem toNat_succ {n : UInt32} (h : n.toNat + 1 < 2 ^ 32) : (n + 1).toNat = n.toNat + 1 := by
  rw [UInt32.toNat_add]
  exact Nat.mod_eq_of_lt h

/-- The attempts of the step of an id, where its policy allows `m`: a maximum of 0 allows one. -/
structure Bounded (u : Uuid) (m : UInt32) (db : Db) : Prop where
  present : ∃ s ∈ db.workflowSteps, s.id = u
  policy : ∀ s ∈ db.workflowSteps, s.id = u → s.retryPolicyJson.maximumAttempts = m
  pending : ∀ s ∈ db.workflowSteps, s.id = u → s.state = .pending →
    s.attempt.toNat < max 1 m.toNat
  attempts : ∀ a ∈ db.activities, a.stepId = u →
    1 ≤ a.attempt.toNat ∧ a.attempt.toNat ≤ max 1 m.toNat

theorem FreshSteps.other (h : FreshSteps env now db new) (hs : s ∈ db.workflowSteps)
    (hn : s' ∈ new) : s'.id ≠ s.id := by
  intro he
  apply h.unused s' hn
  rw [he]
  exact List.mem_append_left _ (List.mem_append_right _ (List.mem_map.mpr ⟨s, hs, rfl⟩))

theorem moved_bounded {crates : Crates} (hm : m.toNat < 2 ^ 32 - 1) (hw : WellFormed db)
    (hb : Bounded u m db) (hmove : Moved crates env op db db') : Bounded u m db' := by
  cases hmove with
  | still hs ha =>
    constructor <;> simp only [hs, ha]
    exacts [hb.present, hb.policy, hb.pending, hb.attempts]
  | started new hop hnew hs ha =>
    obtain ⟨r, hr, hru⟩ := hb.present
    have hold : ∀ s ∈ db.workflowSteps ++ new, s.id = u → s ∈ db.workflowSteps := by
      intro s hs he
      rcases List.mem_append.mp hs with h | h
      · exact h
      · exact absurd (he.trans hru.symm) (hnew.other hr h)
    constructor <;> simp only [hs, ha]
    · exact ⟨r, List.mem_append_left _ hr, hru⟩
    · exact fun s hs he => hb.policy s (hold s hs he) he
    · exact fun s hs he => hb.pending s (hold s hs he) he
    · exact hb.attempts
  | dispatched s hc hs ha =>
    have hmem := (chosen_mem hc).1
    constructor <;> simp only [hs, ha, mem_dispatched_steps hw hmem, mem_dispatched_activities]
    · obtain ⟨r, hr, hru⟩ := hb.present
      by_cases he : r.id = s.id
      · exact ⟨running s, .inl rfl, he.symm.trans hru⟩
      · exact ⟨r, .inr ⟨hr, he⟩, hru⟩
    · rintro q (rfl | ⟨hq, _⟩) he
      · exact hb.policy s hmem he
      · exact hb.policy q hq he
    · rintro q (rfl | ⟨hq, _⟩) he hstate
      · cases hstate
      · exact hb.pending q hq he hstate
    · rintro a (ha | rfl) he
      · exact hb.attempts a ha he
      · have hlt := hb.pending s hmem he (chosen_pending hw hc)
        change 1 ≤ (s.attempt + 1).toNat ∧ (s.attempt + 1).toNat ≤ _
        rw [toNat_succ (by omega)]
        omega
  | reported id rep hop a s hact hstep hh hs ha =>
    obtain ⟨hmem, hsid⟩ := stepOf_mem hstep
    obtain ⟨hamem, _⟩ := activityOf_mem hact
    constructor <;> simp only [hs, ha, mem_reported_steps hw hmem, mem_reported_activities hw hamem]
    · obtain ⟨r, hr, hru⟩ := hb.present
      by_cases he : r.id = s.id
      · exact ⟨_, .inl rfl, (write_fixed _ _ _ _ _).id.trans (he.symm.trans hru)⟩
      · exact ⟨r, .inr ⟨hr, he⟩, hru⟩
    · rintro q (rfl | ⟨hq, _⟩) he
      · rw [(write_fixed _ _ _ _ _).policy]
        exact hb.policy s hmem ((write_fixed _ _ _ _ _).id.symm.trans he)
      · exact hb.policy q hq he
    · rintro q (rfl | ⟨hq, _⟩) he hstate
      · have heu : s.id = u := (write_fixed _ _ _ _ _).id.symm.trans he
        rcases write_pending hstate with ⟨hlt, hatt⟩ | hsame
        · rw [hatt]
          rw [hb.policy s hmem heu] at hlt
          exact Nat.lt_of_lt_of_le (UInt32.lt_iff_toNat_lt.mp hlt) (Nat.le_max_right _ _)
        · rw [hsame] at hstate ⊢
          exact hb.pending s hmem heu hstate
      · exact hb.pending q hq he hstate
    · rintro b (rfl | ⟨hbm, _⟩) he
      · rw [mark_attempt]
        exact hb.attempts a hamem ((mark_stepId _ _ _).symm.trans he)
      · exact hb.attempts b hbm he
  | beaten id hs ha =>
    constructor <;> simp only [hs, ha]
    · exact hb.present
    · exact hb.policy
    · exact hb.pending
    · intro a ha he
      obtain ⟨b, hbm, rfl⟩ := Table.mem_update.mp ha
      split
      · rw [if_pos ‹_›] at he
        exact hb.attempts b hbm he
      · rw [if_neg ‹_›] at he
        exact hb.attempts b hbm he

/-- A step inserted with attempt 0, under any policy of fewer than 2^32 - 1 attempts: in every
later state its activities have attempts from 1 to the maximum (1 if that is 0), it waits with
an attempt below that, no task with a larger attempt is ever handed out, and none of the
additions of 1 to these attempts, nor the subtraction of 1 from them, leaves `u32`. -/
theorem run_attempts_bounded {s : WorkflowStepRow} (hw : WellFormed v.db)
    (hs : s ∈ v.db.workflowSteps) (hzero : s.attempt = 0)
    (hnone : ∀ a ∈ v.db.activities, a.stepId ≠ s.id)
    (hm : s.retryPolicyJson.maximumAttempts.toNat < 2 ^ 32 - 1) {ts : List ServerStep}
    (hr : (server crates).Run v ts w) :
    (∀ a ∈ w.db.activities, a.stepId = s.id →
      1 ≤ a.attempt.toNat ∧ a.attempt.toNat ≤ max 1 s.retryPolicyJson.maximumAttempts.toNat ∧
        a.attempt.toNat + 1 < 2 ^ 32) ∧
    (∀ s' ∈ w.db.workflowSteps, s'.id = s.id → s'.state = .pending →
      s'.attempt.toNat < max 1 s.retryPolicyJson.maximumAttempts.toNat ∧
        s'.attempt.toNat + 1 < 2 ^ 32) ∧
    (∀ τ ∈ ts, ∀ a, handedOut crates τ = some a → a.stepId = s.id →
      a.attempt.toNat ≤ max 1 s.retryPolicyJson.maximumAttempts.toNat) := by
  have hstart : Bounded s.id s.retryPolicyJson.maximumAttempts v.db := by
    have hself : ∀ q ∈ v.db.workflowSteps, q.id = s.id → q = s :=
      fun q hq he => hw.steps.unique hq hs (key_iff.mpr he)
    refine ⟨⟨s, hs, rfl⟩, ?_, ?_, ?_⟩
    · intro q hq he
      rw [hself q hq he]
    · intro q hq he _
      rw [hself q hq he, hzero]
      exact Nat.lt_of_lt_of_le Nat.zero_lt_one (Nat.le_max_left _ _)
    · exact fun a ha he => absurd he (hnone a ha)
  have hrun : ∀ {us : List ServerStep} {t : World}, (server crates).Run v us t →
      Bounded s.id s.retryPolicyJson.maximumAttempts t.db :=
    fun hu => (run_moved (fun hw _ hb hmove => moved_bounded hm hw hb hmove) hu hw hstart).2
  refine ⟨?_, ?_, ?_⟩
  · intro a ha he
    have h := (hrun hr).attempts a ha he
    omega
  · intro s' hs' he hstate'
    have h := (hrun hr).pending s' hs' he hstate'
    omega
  · intro τ hτ a hout he
    obtain ⟨us, vs, rfl⟩ := List.append_of_mem hτ
    obtain ⟨hu, hi, hτe, _⟩ := hr.at
    have hb := hrun (hu.append (Machine.Run.single hi))
    rw [hτe] at hout
    obtain ⟨q, hq, rfl, hafter⟩ := handedOut_dispatched hi hout
    rw [hafter] at hb
    exact (hb.attempts _ (mem_dispatched_activities.mpr (.inr rfl)) he).2

theorem retried_step_bounded :
    ∃ s ∈ ((server plainCrates).ending .empty (script (retriedStep.take 1))).db.workflowSteps,
      s.retryPolicyJson.maximumAttempts = 3 ∧
        ∀ a ∈ ((server plainCrates).ending .empty (script retriedStep)).db.activities,
          a.stepId = s.id → 1 ≤ a.attempt.toNat ∧ a.attempt.toNat ≤ 3 ∧
            a.attempt.toNat + 1 < 2 ^ 32 := by
  have hstart := script_run (retriedStep.take 1) (by decide +kernel)
  have hrest := Machine.run_replay (M := server plainCrates)
    ((server plainCrates).ending .empty (script (retriedStep.take 1)))
    ((script retriedStep).drop 1) (by decide +kernel)
  have hstep : ∃ s ∈ ((server plainCrates).ending .empty
      (script (retriedStep.take 1))).db.workflowSteps,
      s.retryPolicyJson.maximumAttempts = 3 ∧ s.attempt = 0 := by decide +kernel
  obtain ⟨s, hs, hm, hzero⟩ := hstep
  have hbound := (run_attempts_bounded (run_wellFormed hstart .empty) hs hzero
    (fun a ha => by cases ha) (by rw [hm]; decide) hrest).1
  rw [hm] at hbound
  exact ⟨s, hs, hm, hbound⟩

/-- At most one attempt of a step runs, and attempts are told apart by their numbers: a running
attempt is the latest, and a step that waits has left all its attempts behind. -/
structure Exclusive (db : Db) : Prop where
  distinct : ∀ a ∈ db.activities, ∀ b ∈ db.activities, a.stepId = b.stepId →
    a.attempt = b.attempt → a = b
  latest : ∀ a ∈ db.activities, a.state = .running → ∀ b ∈ db.activities, b.stepId = a.stepId →
    b.attempt.toNat ≤ a.attempt.toNat
  waiting : ∀ s ∈ db.workflowSteps, s.state = .pending → ∀ a ∈ db.activities, a.stepId = s.id →
    a.state ≠ .running ∧ a.attempt.toNat ≤ s.attempt.toNat
  low : ∀ s ∈ db.workflowSteps, s.state = .pending → s.attempt.toNat < 3
  small : ∀ a ∈ db.activities, a.attempt.toNat ≤ 3

/-- A worker reports a failure that leads to a retry, of an attempt that the step has already
been taken past: another attempt runs, or has a number beyond the one the step goes back to. -/
def Rewinds (crates : Crates) (db : Db) (op : Op) : Prop :=
  ∃ activityId message a s, reportOf crates op = some (activityId, .failure message) ∧
    activityOf db activityId = some a ∧ stepOf db a.stepId = some s ∧
    a.attempt + 1 < s.retryPolicyJson.maximumAttempts ∧
    ∃ b ∈ db.activities, b.stepId = s.id ∧ b.id ≠ a.id ∧
      (b.state = .running ∨ a.attempt + 1 < b.attempt)

theorem builtIn_maximum (hp : policy ∈ builtInPolicies) : policy.maximumAttempts.toNat ≤ 3 := by
  simp only [builtInPolicies, List.mem_cons, List.not_mem_nil, or_false] at hp
  rcases hp with rfl | rfl | rfl <;> decide

theorem Exclusive.running_unique (h : Exclusive db) (ha : a ∈ db.activities)
    (hb : b ∈ db.activities) (hra : a.state = .running) (hrb : b.state = .running)
    (he : a.stepId = b.stepId) : a = b := by
  have h1 := h.latest a ha hra b hb he.symm
  have h2 := h.latest b hb hrb a ha he
  exact h.distinct a ha b hb he (UInt32.toNat_inj.mp (by omega))

/-- A heard report that does not rewind its step leaves every other attempt of it behind. -/
theorem not_rewound (hx : Exclusive db) (hact : activityOf db activityId = some a)
    (hstep : stepOf db a.stepId = some s) (hh : rep.heard a)
    (hop : reportOf crates op = some (activityId, rep)) (hn : ¬ Rewinds crates db op)
    (hlt : rep.counted a.attempt < s.retryPolicyJson.maximumAttempts)
    (hres : ∀ json, rep ≠ .result json) (hb : b ∈ db.activities) (hbs : b.stepId = s.id)
    (hne : b.id ≠ a.id) :
    b.state ≠ .running ∧ b.attempt.toNat ≤ (rep.counted a.attempt).toNat := by
  obtain ⟨hamem, _⟩ := activityOf_mem hact
  obtain ⟨_, hsid⟩ := stepOf_mem hstep
  cases rep with
  | result json => exact absurd rfl (hres json)
  | failure message =>
    have hb' : ¬ (b.state = .running ∨ a.attempt + 1 < b.attempt) := by
      intro h
      exact hn ⟨activityId, message, a, s, hop, hact, hstep, hlt, b, hb, hbs, hne, h⟩
    rw [not_or] at hb'
    exact ⟨hb'.1, UInt32.le_iff_toNat_le.mp (UInt32.not_lt.mp hb'.2)⟩
  | timeout =>
    have hab : b.stepId = a.stepId := hbs.trans hsid
    refine ⟨?_, hx.latest a hamem hh b hb hab⟩
    intro hrb
    rw [hx.running_unique hb hamem hrb hh hab] at hne
    exact hne rfl

theorem exclusive_started (hw : WellFormed db) (hx : Exclusive db) (hnew : FreshSteps env now db new)
    (hs : db'.workflowSteps = db.workflowSteps ++ new) (ha : db'.activities = db.activities) :
    Exclusive db' := by
  constructor <;> simp only [hs, ha]
  · exact hx.distinct
  · exact hx.latest
  · intro s hs' hstate a ha' he
    rcases List.mem_append.mp hs' with hold | hold
    · exact hx.waiting s hold hstate a ha' he
    · obtain ⟨q, hq, hqe⟩ := hw.ofStep a ha'
      exact absurd (hqe.trans he).symm (hnew.other hq hold)
  · intro s hs' hstate
    rcases List.mem_append.mp hs' with hold | hold
    · exact hx.low s hold hstate
    · rw [(hnew.waits s hold).2.1]
      decide
  · exact hx.small

theorem exclusive_dispatched (hw : WellFormed db) (hx : Exclusive db)
    (hc : chosen env op db = some s) (hs : db'.workflowSteps = (dispatched env s db).workflowSteps)
    (ha : db'.activities = (dispatched env s db).activities) : Exclusive db' := by
  have hmem := (chosen_mem hc).1
  have hstate := chosen_pending hw hc
  have hlow := hx.low s hmem hstate
  have hnext : (newAttempt env s).attempt.toNat = s.attempt.toNat + 1 := toNat_succ (by omega)
  have hbehind : ∀ a ∈ db.activities, a.stepId = s.id →
      a.state ≠ .running ∧ a.attempt.toNat < (newAttempt env s).attempt.toNat := by
    intro a ha he
    have h := hx.waiting s hmem hstate a ha he
    exact ⟨h.1, by omega⟩
  constructor <;> simp only [hs, ha, mem_dispatched_steps hw hmem, mem_dispatched_activities]
  · rintro a (ha | rfl) b (hb | rfl) hid hatt
    · exact hx.distinct a ha b hb hid hatt
    · have h := (hbehind a ha hid).2
      rw [hatt] at h
      exact absurd h (Nat.lt_irrefl _)
    · have h := (hbehind b hb hid.symm).2
      rw [← hatt] at h
      exact absurd h (Nat.lt_irrefl _)
    · rfl
  · rintro a (ha | rfl) hrun b (hb | rfl) hid
    · exact hx.latest a ha hrun b hb hid
    · exact absurd hrun (hbehind a ha hid.symm).1
    · exact (hbehind b hb hid).2.le
    · exact Nat.le_refl _
  · rintro q (rfl | ⟨hq, hne⟩) hpend a (ha | rfl) hid
    · cases hpend
    · cases hpend
    · exact hx.waiting q hq hpend a ha hid
    · exact absurd hid.symm hne
  · rintro q (rfl | ⟨hq, _⟩) hpend
    · cases hpend
    · exact hx.low q hq hpend
  · rintro a (ha | rfl)
    · exact hx.small a ha
    · omega

theorem exclusive_reported (hw : WellFormed db) (hp : BuiltIn db) (hx : Exclusive db)
    (hop : reportOf crates op = some (activityId, rep)) (hact : activityOf db activityId = some a)
    (hstep : stepOf db a.stepId = some s) (hh : rep.heard a) (hn : ¬ Rewinds crates db op)
    (hs : db'.workflowSteps = (reported env rep a s db).workflowSteps)
    (ha : db'.activities = (reported env rep a s db).activities) : Exclusive db' := by
  obtain ⟨hmem, hsid⟩ := stepOf_mem hstep
  obtain ⟨hamem, _⟩ := activityOf_mem hact
  have hmax := builtIn_maximum (hp s hmem)
  have hcounted : a.attempt.toNat ≤ (rep.counted a.attempt).toNat := by
    have hsucc : (a.attempt + 1).toNat = a.attempt.toNat + 1 :=
      toNat_succ (Nat.lt_of_le_of_lt (Nat.succ_le_succ (hx.small a hamem)) (by decide))
    cases rep with
    | timeout => exact Nat.le_refl _
    | result json => exact Nat.le_of_succ_le hsucc.ge
    | failure message => exact Nat.le_of_succ_le hsucc.ge
  constructor <;> simp only [hs, ha, mem_reported_steps hw hmem, mem_reported_activities hw hamem]
  · rintro b (rfl | ⟨hb, hbne⟩) c (rfl | ⟨hc, hcne⟩) hid hatt
    · rfl
    · rw [mark_stepId] at hid
      rw [mark_attempt] at hatt
      exact absurd (congrArg ActivityRow.id (hx.distinct c hc a hamem hid.symm hatt.symm)) hcne
    · rw [mark_stepId] at hid
      rw [mark_attempt] at hatt
      exact absurd (congrArg ActivityRow.id (hx.distinct b hb a hamem hid hatt)) hbne
    · exact hx.distinct b hb c hc hid hatt
  · rintro b (rfl | ⟨hb, _⟩) hrun c (rfl | ⟨hc, _⟩) hid
    · exact absurd hrun (mark_not_running env rep a)
    · exact absurd hrun (mark_not_running env rep a)
    · rw [mark_attempt]
      rw [mark_stepId] at hid
      exact hx.latest b hb hrun a hamem hid
    · exact hx.latest b hb hrun c hc hid
  · rintro q (rfl | ⟨hq, hqne⟩) hpend b (rfl | ⟨hb, hbne⟩) hid
    · refine ⟨mark_not_running env rep a, ?_⟩
      rw [mark_attempt]
      rcases write_pending hpend with ⟨_, hatt⟩ | hsame
      · rw [hatt]
        exact hcounted
      · rw [hsame] at hpend ⊢
        exact (hx.waiting s hmem hpend a hamem hsid.symm).2
    · rw [(write_fixed _ _ _ _ _).id] at hid
      rcases write_pending hpend with ⟨hlt, hatt⟩ | hsame
      · rw [hatt]
        refine not_rewound hx hact hstep hh hop hn hlt ?_ hb hid hbne
        rintro json rfl
        cases hpend
      · rw [hsame] at hpend ⊢
        exact hx.waiting s hmem hpend b hb hid
    · rw [mark_stepId] at hid
      exact absurd (hid.symm.trans hsid.symm) hqne
    · exact hx.waiting q hq hpend b hb hid
  · rintro q (rfl | ⟨hq, _⟩) hpend
    · rcases write_pending hpend with ⟨hlt, hatt⟩ | hsame
      · rw [hatt]
        have h := UInt32.lt_iff_toNat_lt.mp hlt
        omega
      · rw [hsame] at hpend ⊢
        exact hx.low s hmem hpend
    · exact hx.low q hq hpend
  · rintro b (rfl | ⟨hb, _⟩)
    · rw [mark_attempt]
      exact hx.small a hamem
    · exact hx.small b hb

theorem exclusive_beaten (hx : Exclusive db) (hs : db'.workflowSteps = db.workflowSteps)
    (ha : db'.activities = Table.update (beats activityId) (beat now) db.activities) :
    Exclusive db' := by
  let g : ActivityRow → ActivityRow := fun r => if beats activityId r then beat now r else r
  have hg : ∀ r, (g r).stepId = r.stepId ∧ (g r).attempt = r.attempt ∧ (g r).state = r.state := by
    intro r
    by_cases h : beats activityId r = true <;> simp [g, h, beat]
  have hmem : ∀ a, a ∈ db'.activities ↔ ∃ b ∈ db.activities, a = g b := by
    intro a
    rw [ha]
    exact Table.mem_update
  constructor <;> simp only [hs, hmem]
  · rintro _ ⟨a, ha, rfl⟩ _ ⟨b, hb, rfl⟩ hid hatt
    rw [(hg a).1, (hg b).1] at hid
    rw [(hg a).2.1, (hg b).2.1] at hatt
    rw [hx.distinct a ha b hb hid hatt]
  · rintro _ ⟨a, ha, rfl⟩ hrun _ ⟨b, hb, rfl⟩ hid
    rw [(hg a).1, (hg b).1] at hid
    rw [(hg a).2.2] at hrun
    rw [(hg a).2.1, (hg b).2.1]
    exact hx.latest a ha hrun b hb hid
  · rintro s hs' hpend _ ⟨a, ha, rfl⟩ hid
    rw [(hg a).1] at hid
    rw [(hg a).2.1, (hg a).2.2]
    exact hx.waiting s hs' hpend a ha hid
  · exact hx.low
  · rintro _ ⟨a, ha, rfl⟩
    rw [(hg a).2.1]
    exact hx.small a ha

theorem moved_exclusive (hw : WellFormed db) (hp : BuiltIn db) (hx : Exclusive db)
    (hn : ¬ Rewinds crates db op) (hm : Moved crates env op db db') : Exclusive db' := by
  cases hm with
  | still hs ha =>
    constructor <;> simp only [hs, ha]
    exacts [hx.distinct, hx.latest, hx.waiting, hx.low, hx.small]
  | started new hop hnew hs ha => exact exclusive_started hw hx hnew hs ha
  | dispatched s hc hs ha => exact exclusive_dispatched hw hx hc hs ha
  | reported id rep hop a s hact hstep hh hs ha =>
    exact exclusive_reported hw hp hx hop hact hstep hh hn hs ha
  | beaten id hs ha => exact exclusive_beaten hx hs ha

theorem exclusive_empty : Exclusive .empty := by
  constructor <;> simp [Db.empty]

/-- In a run in which no failure report rewinds its step, no state has two running activities
of one step or two activities of one step with the same attempt number. -/
theorem run_attempts_exclusive {ts : List ServerStep} (hr : (server crates).Run .empty ts w)
    (hn : ∀ τ ∈ ts, ¬ Rewinds crates τ.before.db τ.input.op) :
    (∀ a ∈ w.db.activities, ∀ b ∈ w.db.activities, a.stepId = b.stepId →
      a.state = .running → b.state = .running → a = b) ∧
    (∀ a ∈ w.db.activities, ∀ b ∈ w.db.activities, a.stepId = b.stepId →
      a.attempt = b.attempt → a = b) := by
  have hinv := hr.keeps_when
    (P := fun w => WellFormed w.db ∧ BuiltIn w.db ∧ Exclusive w.db)
    (C := fun w call => ¬ Rewinds crates w.db call.op)
    (fun w call h hc hnr => by
      have hm := step_moved h.1 crates hc
      exact ⟨step_wellFormed crates call h.1, moved_builtIn h.1 h.2.1 hm,
        moved_exclusive h.1 h.2.1 h.2.2 hnr hm⟩)
    ⟨.empty, builtIn_empty, exclusive_empty⟩ hn
  exact ⟨fun a ha b hb he hra hrb => hinv.2.2.running_unique ha hb hra hrb he,
    hinv.2.2.distinct⟩

/-- `Rewinds` as a search of the tables. -/
def rewinds (crates : Crates) (db : Db) (op : Op) : Bool :=
  match reportOf crates op with
  | some (activityId, .failure _) =>
    (activityOf db activityId).any fun a => (stepOf db a.stepId).any fun s =>
      a.attempt + 1 < s.retryPolicyJson.maximumAttempts &&
        db.activities.any fun b => b.stepId = s.id && b.id ≠ a.id &&
          (b.state = .running || a.attempt + 1 < b.attempt)
  | _ => false

theorem rewinds_iff : rewinds crates db op = true ↔ Rewinds crates db op := by
  unfold rewinds Rewinds
  cases reportOf crates op with
  | none => simp
  | some p =>
    obtain ⟨activityId, rep⟩ := p
    cases rep with
    | result json => simp
    | timeout => simp
    | failure message =>
      simp [Option.any_eq_true, and_assoc]

instance (crates : Crates) (db : Db) (op : Op) : Decidable (Rewinds crates db op) :=
  decidable_of_iff _ rewinds_iff

theorem retried_step_exclusive :
    (∀ τ ∈ (server plainCrates).replay .empty (script retriedStep),
      ¬ Rewinds plainCrates τ.before.db τ.input.op) ∧
    ∀ a ∈ ((server plainCrates).ending .empty (script retriedStep)).db.activities,
      ∀ b ∈ ((server plainCrates).ending .empty (script retriedStep)).db.activities,
        a.stepId = b.stepId → a.state = .running → b.state = .running → a = b := by
  have hn : ∀ τ ∈ (server plainCrates).replay .empty (script retriedStep),
      ¬ Rewinds plainCrates τ.before.db τ.input.op := by decide +kernel
  exact ⟨hn, (run_attempts_exclusive (script_run retriedStep (by decide +kernel)) hn).1⟩

/-- A worker's failure is reported, the retry is handed out, the first failure is reported
again, and the step is handed out a third time. -/
def repeatedFailure : List Op :=
  [.startWorkflow ⟨"x", [], "", "", none, ""⟩, .pollActivity ⟨"", ["x"]⟩,
    .reportActivityFailure ⟨"id-10", "boom"⟩, .pollActivity ⟨"", ["x"]⟩,
    .reportActivityFailure ⟨"id-10", "boom"⟩, .pollActivity ⟨"", ["x"]⟩]

/-- Two attempts of one step then run at once, and both have number 3. -/
theorem repeated_failure_not_exclusive :
    ¬ ∀ (crates : Crates) (w : World), (server crates).Reachable w →
      (∀ a ∈ w.db.activities, ∀ b ∈ w.db.activities, a.stepId = b.stepId →
        a.state = .running → b.state = .running → a = b) ∧
      (∀ a ∈ w.db.activities, ∀ b ∈ w.db.activities, a.stepId = b.stepId →
        a.attempt = b.attempt → a = b) := by
  intro h
  have hreach : (server plainCrates).Reachable
      ((server plainCrates).ending .empty (script repeatedFailure)) :=
    ⟨.empty, _, rfl, script_run _ (by decide +kernel)⟩
  have htwo : ∃ a ∈ ((server plainCrates).ending .empty (script repeatedFailure)).db.activities,
      ∃ b ∈ ((server plainCrates).ending .empty (script repeatedFailure)).db.activities,
        a.stepId = b.stepId ∧ a.state = .running ∧ b.state = .running ∧ a.attempt = b.attempt ∧
          a.id ≠ b.id := by decide +kernel
  obtain ⟨a, ha, b, hb, hid, hra, hrb, _, hne⟩ := htwo
  exact hne (congrArg ActivityRow.id ((h plainCrates _ hreach).1 a ha b hb hid hra hrb))

end Khronos.Proofs
