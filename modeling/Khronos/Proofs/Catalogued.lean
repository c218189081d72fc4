import Khronos.Proofs.Decoding
import Khronos.Server.Catalogue

namespace Khronos.Proofs
open Time Lib Db.Schedules Server Catalogue

/-- The keys of a map ascend. -/
def Ascending (m : StringMap) : Prop := m.Pairwise (fun a b => a.1 < b.1)

theorem get_absent {m : StringMap} (h : ∀ e ∈ m, e.1 ≠ k) : StringMap.get? m k = none := by
  induction m with
  | nil => rfl
  | cons e m ih =>
    have hk : e.1 ≠ k := h e (by simp)
    simp [StringMap.get?, ih (fun e he => h e (by simp [he])), hk]

theorem mem_insert {m : StringMap} (h : e ∈ StringMap.insert k v m) : e = (k, v) ∨ e ∈ m := by
  induction m with
  | nil => simpa [StringMap.insert] using h
  | cons e' m ih =>
    obtain ⟨k', v'⟩ := e'
    unfold StringMap.insert at h
    split at h
    · exact (List.mem_cons.mp h).imp id (List.mem_cons_of_mem _)
    · split at h
      · exact List.mem_cons.mp h
      · rcases List.mem_cons.mp h with rfl | h
        · exact .inr (by simp)
        · exact (ih h).imp id (List.mem_cons_of_mem _)

theorem Ascending.insert (h : Ascending m) (k v : String) :
    Ascending (StringMap.insert k v m) := by
  induction m with
  | nil => simp [StringMap.insert, Ascending]
  | cons e m ih =>
    obtain ⟨k', v'⟩ := e
    obtain ⟨hlt, hm⟩ := List.pairwise_cons.mp h
    unfold StringMap.insert
    split
    · rename_i he
      subst he
      exact List.pairwise_cons.mpr ⟨hlt, hm⟩
    · rename_i hne
      split
      · rename_i hk
        refine List.pairwise_cons.mpr ⟨?_, h⟩
        intro e he
        rcases List.mem_cons.mp he with rfl | he
        · exact hk
        · exact String.lt_trans hk (hlt e he)
      · rename_i hk
        refine List.pairwise_cons.mpr ⟨?_, ih hm⟩
        intro e he
        rcases mem_insert he with rfl | he
        · by_contra hn
          exact hne (String.le_antisymm (String.not_lt.mp hn) (String.not_lt.mp hk))
        · exact hlt e he

theorem get_insert (h : Ascending m) (k v x : String) :
    StringMap.get? (StringMap.insert k v m) x =
      if k = x then some v else StringMap.get? m x := by
  induction m with
  | nil => simp [StringMap.insert, StringMap.get?]
  | cons e m ih =>
    obtain ⟨k', v'⟩ := e
    obtain ⟨hlt, hm⟩ := List.pairwise_cons.mp h
    unfold StringMap.insert
    split
    · rename_i he
      subst he
      have habsent : StringMap.get? m k = none :=
        get_absent (fun e he => (String.ne_of_lt (hlt e he)).symm)
      by_cases hx : k = x
      · subst hx
        simp [StringMap.get?, habsent]
      · simp [StringMap.get?, hx]
    · rename_i hne
      split
      · rename_i hk
        have habsent : StringMap.get? m k = none :=
          get_absent (fun e he => (String.ne_of_lt (String.lt_trans hk (hlt e he))).symm)
        by_cases hx : k = x
        · subst hx
          simp [StringMap.get?, habsent, Ne.symm hne]
        · simp [StringMap.get?, hx]
      · by_cases hx : k = x
        · subst hx
          simp [StringMap.get?, ih hm]
        · simp [StringMap.get?, ih hm, hx]

theorem Ascending.extend (h : Ascending m) (entries : StringMap) :
    Ascending (StringMap.extend m entries) := by
  induction entries generalizing m with
  | nil => exact h
  | cons e entries ih => exact ih (h.insert e.1 e.2)

theorem get_extend (h : Ascending m) (entries : StringMap) (x : String) :
    StringMap.get? (StringMap.extend m entries) x =
      (StringMap.get? entries x).or (StringMap.get? m x) := by
  induction entries generalizing m with
  | nil => simp [StringMap.extend, StringMap.get?]
  | cons e entries ih =>
    obtain ⟨k, v⟩ := e
    refine (ih (h.insert k v)).trans ?_
    rw [get_insert h]
    by_cases hx : k = x
    · simp [StringMap.get?, hx]
    · simp [StringMap.get?, hx]

/-- What the server makes of a valid spec. -/
def madeSpec (spec : ProtoScheduleSpec) : Core.ScheduleSpec :=
  if spec.specType = "cron" then .cron spec.cronExpressions
  else .interval (.fromSecs (spec.intervalSpec.getD 0))

def madePolicy (policy : String) : Core.OverlapPolicy :=
  if policy = "buffer" then .buffer 1
  else if policy = "terminate" then .terminateExisting else .skip

/-- The schedule the server makes of a valid entry. -/
def made (scheduleId : String) (e : Entry) : Core.Schedule where
  scheduleId
  nameSpace := e.nameSpace
  spec := madeSpec e.spec
  action := {
    workflowName := e.action.workflowName
    args := StringMap.extend [] e.action.args
    taskQueue := e.action.taskQueue
    id := e.action.id
    timeouts := coreTimeouts e.action.timeouts }
  policy := madePolicy e.policy

theorem coreSpec_valid (h : validSpec spec = true) : coreSpec spec = .ok (madeSpec spec) := by
  unfold coreSpec madeSpec
  by_cases hc : spec.specType = "cron"
  · simp [hc]
  · obtain ⟨hi, hs⟩ : spec.specType = "interval" ∧ spec.intervalSpec.isSome = true := by
      simpa [validSpec, hc] using h
    obtain ⟨secs, hsecs⟩ := Option.isSome_iff_exists.mp hs
    simp [hi, hsecs]

theorem coreSpec_invalid (h : validSpec spec = false) :
    ∃ status, coreSpec spec = .error status := by
  unfold coreSpec
  by_cases hc : spec.specType = "cron"
  · simp [validSpec, hc] at h
  · by_cases hi : spec.specType = "interval"
    · have hn : spec.intervalSpec = none := by simpa [validSpec, hc, hi] using h
      exact ⟨_, by rw [if_neg hc, if_pos hi, hn]⟩
    · exact ⟨_, by rw [if_neg hc, if_neg hi]⟩

theorem corePolicy_valid (h : validPolicy policy = true) :
    corePolicy policy = .ok (madePolicy policy) := by
  have hcases : policy = "" ∨ policy = "skip" ∨ policy = "buffer" ∨ policy = "terminate" := by
    simpa [validPolicy] using h
  rcases hcases with rfl | rfl | rfl | rfl <;> rfl

theorem corePolicy_invalid (h : validPolicy policy = false) :
    ∃ status, corePolicy policy = .error status := by
  obtain ⟨he, hs, hb, ht⟩ : policy ≠ "" ∧ policy ≠ "skip" ∧ policy ≠ "buffer" ∧
      policy ≠ "terminate" := by simpa [validPolicy] using h
  unfold corePolicy
  exact ⟨_, by rw [if_neg (by simp [he, hs]), if_neg hb, if_neg ht]⟩

theorem ok_bind (a : α) (f : α → Except ε β) : (Except.ok a >>= f) = f a := rfl

theorem requestedSchedule_some (h : requestedEntry req = some e) :
    requestedSchedule req = .ok (made req.scheduleId e) := by
  unfold requestedEntry at h
  split at h
  · rename_i spec action hs ha
    split at h
    · rename_i hv
      cases h
      obtain ⟨hspec, hpolicy⟩ := Bool.and_eq_true_iff.mp hv
      unfold requestedSchedule
      simp only [hs, ha, required, ok_bind, coreSpec_valid hspec, corePolicy_valid hpolicy]
      rfl
    · cases h
  · cases h

theorem requestedEntry_valid (h : requestedEntry req = some e) : e.Valid := by
  unfold requestedEntry at h
  split at h
  · split at h
    · rename_i hv
      cases h
      obtain ⟨hspec, hpolicy⟩ := Bool.and_eq_true_iff.mp hv
      exact ⟨hspec, hpolicy⟩
    · cases h
  · cases h

theorem requestedSchedule_none (h : requestedEntry req = none) :
    ∃ status, requestedSchedule req = .error status := by
  unfold requestedEntry at h
  unfold requestedSchedule
  cases hs : req.spec with
  | none => exact ⟨_, rfl⟩
  | some spec =>
    cases ha : req.action with
    | none => exact ⟨_, rfl⟩
    | some action =>
      rw [hs, ha] at h
      cases hv : validSpec spec with
      | false =>
        obtain ⟨status, he⟩ := coreSpec_invalid hv
        exact ⟨status, by simp only [required, ok_bind, he]; rfl⟩
      | true =>
        have hp : validPolicy (req.policy.getD "") = false := by simpa [hv] using h
        obtain ⟨status, he⟩ := corePolicy_invalid hp
        exact ⟨status, by simp only [required, ok_bind, coreSpec_valid hv, he]; rfl⟩

/-- What the columns keep of a spec: an interval loses what is less than a second. -/
def keptSpec : Core.ScheduleSpec → Core.ScheduleSpec
  | .cron exprs => .cron exprs
  | .interval duration => .interval (.fromSecs duration.asSecs)

/-- What the column keeps of a policy: a buffer loses its size. -/
def keptPolicy : Core.OverlapPolicy → Core.OverlapPolicy
  | .skip => .skip
  | .buffer _ => .buffer 1
  | .terminateExisting => .terminateExisting

def kept (s : Core.Schedule) : Core.Schedule :=
  { s with spec := keptSpec s.spec, policy := keptPolicy s.policy }

section
variable {crates : Crates} {serde : Serde} (hserde : serde.ReadsBack crates)
include hserde

/-- A row is read back as what it keeps of the schedule it was written of. -/
theorem rowToSchedule_kept {s : Core.Schedule} (ha : Ascending s.action.args) :
    rowToSchedule crates serde (scheduleRow serde s) = .ok (kept s) := by
  have hargs := hserde.map _ ha
  have hspec : rowSpec crates (scheduleRow serde s) = .ok (keptSpec s.spec) := by
    unfold rowSpec scheduleRow
    cases s.spec with
    | cron exprs => simp [specColumns, keptSpec, hserde.strings, decoded, Except.map]
    | interval duration => simp [specColumns, keptSpec]
  have hpolicy : rowPolicy (scheduleRow serde s) = keptPolicy s.policy := by
    unfold rowPolicy scheduleRow
    cases s.policy <;> rfl
  unfold rowToSchedule
  rw [hspec, hpolicy]
  simp only [scheduleRow, hargs, hserde.timeouts, decoded]
  rfl

omit hserde in
/-- The server makes no schedule of which the row does not keep all. -/
theorem kept_made (scheduleId : String) (e : Entry) : kept (made scheduleId e) = made scheduleId e := by
  have hspec : keptSpec (madeSpec e.spec) = madeSpec e.spec := by
    unfold madeSpec
    split <;> rfl
  have hpolicy : keptPolicy (madePolicy e.policy) = madePolicy e.policy := by
    unfold madePolicy
    split_ifs <;> rfl
  unfold kept made
  rw [hspec, hpolicy]

theorem rowToSchedule_made (scheduleId : String) (e : Entry) :
    rowToSchedule crates serde (scheduleRow serde (made scheduleId e)) =
      .ok (made scheduleId e) := by
  have hargs : Ascending (made scheduleId e).action.args :=
    Ascending.extend List.Pairwise.nil e.action.args
  rw [rowToSchedule_kept hserde hargs, kept_made]

end

/-- The table holds exactly the schedules of the map. -/
structure Stored (serde : Serde) (rows : List ScheduleRow) (m : Entries) : Prop where
  keyed : Table.Keyed ScheduleRow.scheduleId rows
  described : ∀ r ∈ rows, ∃ e ∈ m r.scheduleId, e.Valid ∧ r = scheduleRow serde (made r.scheduleId e)
  all : ∀ scheduleId, (m scheduleId).isSome → ∃ r ∈ rows, r.scheduleId = scheduleId

theorem Stored.absent_iff (h : Stored serde rows m) :
    m scheduleId = none ↔ ¬ ∃ r ∈ rows, r.scheduleId = scheduleId := by
  constructor
  · rintro hn ⟨r, hr, rfl⟩
    obtain ⟨e, he, _⟩ := h.described r hr
    rw [hn] at he
    cases he
  · intro hn
    by_contra hs
    exact hn (h.all scheduleId (Option.ne_none_iff_isSome.mp hs))

theorem Stored.insert (h : Stored serde rows m) (hn : m scheduleId = none) (he : e.Valid) :
    Stored serde (rows ++ [scheduleRow serde (made scheduleId e)])
      (Function.update m scheduleId (some e)) where
  keyed := h.keyed.append _ (fun q hq he => h.absent_iff.mp hn ⟨q, hq, he⟩)
  described := by
    intro r hr
    rcases List.mem_append.mp hr with hr | hr
    · have hne : r.scheduleId ≠ scheduleId := fun he => h.absent_iff.mp hn ⟨r, hr, he⟩
      rw [Function.update_of_ne hne]
      exact h.described r hr
    · rw [List.mem_singleton.mp hr]
      exact ⟨e, Function.update_self .., he, rfl⟩
  all := by
    intro id hid
    by_cases he : id = scheduleId
    · exact ⟨_, List.mem_append_right _ (List.mem_singleton.mpr rfl), he.symm⟩
    · rw [Function.update_of_ne he] at hid
      obtain ⟨r, hr, hrid⟩ := h.all id hid
      exact ⟨r, List.mem_append_left _ hr, hrid⟩

theorem Stored.remove (h : Stored serde rows m) {p : ScheduleRow → Bool}
    (hp : ∀ r ∈ rows, p r = true ↔ r.scheduleId = scheduleId) :
    Stored serde (rows.filter (fun r => !p r)) (Function.update m scheduleId none) where
  keyed := h.keyed.sublist ((List.filter_sublist).map _)
  described := by
    intro r hr
    obtain ⟨hr, hnp⟩ := List.mem_filter.mp hr
    have hne : r.scheduleId ≠ scheduleId := by
      intro he
      rw [(hp r hr).mpr he] at hnp
      cases hnp
    rw [Function.update_of_ne hne]
    exact h.described r hr
  all := by
    intro id hid
    by_cases he : id = scheduleId
    · rw [he, Function.update_self] at hid
      cases hid
    · rw [Function.update_of_ne he] at hid
      obtain ⟨r, hr, rfl⟩ := h.all id hid
      have hnp : p r = false := by
        rw [← Bool.not_eq_true]
        exact fun hpr => he ((hp r hr).mp hpr)
      exact ⟨r, List.mem_filter.mpr ⟨hr, by simp [hnp]⟩, rfl⟩

/-- A row of the map is rewritten in place. -/
theorem Stored.rewrite (h : Stored serde rows m) {p : ScheduleRow → Bool}
    {f : ScheduleRow → ScheduleRow} {e : Entry} (he : e.Valid)
    (hp : ∀ r ∈ rows, p r = true ↔ r.scheduleId = scheduleId)
    (hm : (m scheduleId).isSome)
    (hf : ∀ r ∈ rows, p r = true → f r = scheduleRow serde (made scheduleId e)) :
    Stored serde (Table.update p f rows) (Function.update m scheduleId (some e)) where
  keyed := by
    apply h.keyed.update p f
    intro r hr hpr
    rw [hf r hr hpr, (hp r hr).mp hpr]
    rfl
  described := by
    intro r hr
    obtain ⟨q, hq, rfl⟩ := Table.mem_update.mp hr
    cases hpq : p q with
    | true =>
      rw [if_pos rfl, hf q hq hpq]
      exact ⟨e, Function.update_self .., he, rfl⟩
    | false =>
      have hne : q.scheduleId ≠ scheduleId := by
        intro he
        rw [(hp q hq).mpr he] at hpq
        cases hpq
      rw [if_neg Bool.false_ne_true, Function.update_of_ne hne]
      exact h.described q hq
  all := by
    intro id hid
    have hsome : (m id).isSome := by
      by_cases he : id = scheduleId
      · rw [he]
        exact hm
      · rwa [Function.update_of_ne he] at hid
    obtain ⟨r, hr, rfl⟩ := h.all id hsome
    refine ⟨_, Table.update_mem hr, ?_⟩
    split
    · rename_i hpr
      rw [hf r hr hpr, (hp r hr).mp hpr]
      rfl
    · rfl

/-- A request is answered as the map answers it, and leaves what the map becomes. -/
structure Answered (serde : Serde) (m : Entries) (call : ScheduleCall)
    (r : Outcome Status ScheduleReply × World) : Prop where
  agrees : AnswersAs r.1 (Catalogue.step m call).1
  stored : Stored serde r.2.db.schedules (Catalogue.step m call).2

theorem create_answered (h : Stored serde w.db.schedules m) (crates : Crates)
    (req : CreateScheduleRequest) :
    Answered serde m (.create req) ((serveSchedules crates serde (.create req)).run w) := by
  simp only [serveSchedules, createSchedule]
  cases hreq : requestedEntry req with
  | none =>
    obtain ⟨status, he⟩ := requestedSchedule_none hreq
    have hstep : Catalogue.step m (.create req) = (.refused, m) := by
      simp [Catalogue.step, create, hreq]
    rw [he]
    exact ⟨hstep ▸ .refused status, hstep ▸ h⟩
  | some e =>
    rw [requestedSchedule_some hreq]
    simp only [Prog.run_bind, Prog.run_mapError, insertSchedule, run_execute]
    cases hm : m req.scheduleId with
    | none =>
      have hstep : Catalogue.step m (.create req) =
          (.created req.scheduleId, Function.update m req.scheduleId (some e)) := by
        simp [Catalogue.step, create, hreq, hm]
      have hn : ¬ ∃ r ∈ w.db.schedules, r.scheduleId = (made req.scheduleId e).scheduleId :=
        h.absent_iff.mp hm
      rw [if_neg hn]
      exact ⟨hstep ▸ .created _, hstep ▸ h.insert hm (requestedEntry_valid hreq)⟩
    | some old =>
      have hstep : Catalogue.step m (.create req) = (.refused, m) := by
        simp [Catalogue.step, create, hreq, hm]
      have hex : ∃ r ∈ w.db.schedules, r.scheduleId = (made req.scheduleId e).scheduleId :=
        h.all req.scheduleId (by rw [hm]; rfl)
      rw [if_pos hex]
      exact ⟨hstep ▸ .refused _, hstep ▸ h⟩

/-- Which rows a request for an id in a namespace is about. -/
theorem Stored.named_iff (h : Stored serde rows m) (hr : r ∈ rows) :
    named scheduleId nameSpace r = true ↔
      r.scheduleId = scheduleId ∧ ∃ e ∈ m scheduleId, e.nameSpace = nameSpace := by
  obtain ⟨e, he, _, hrow⟩ := h.described r hr
  have hns : r.nameSpace = e.nameSpace := by rw [hrow]; rfl
  simp only [named, hns, Bool.and_eq_true, decide_eq_true_eq]
  refine and_congr_right (fun hid => ?_)
  rw [← hid]
  constructor
  · intro hn
    exact ⟨e, he, hn⟩
  · rintro ⟨e', he', hn⟩
    rw [Option.mem_def.mp he, Option.mem_def, Option.some.injEq] at he'
    rw [he']
    exact hn

theorem delete_answered (h : Stored serde w.db.schedules m) (crates : Crates)
    (req : DeleteScheduleRequest) :
    Answered serde m (.delete req) ((serveSchedules crates serde (.delete req)).run w) := by
  have hrun : (serveSchedules crates serde (.delete req)).run w =
      (.ok (.deleted (decide (0 < (w.db.schedules.filter
        (named req.scheduleId req.nameSpace)).length))),
      { w with
        db := { w.db with
          schedules := w.db.schedules.filter (fun r => !named req.scheduleId req.nameSpace r) }
        queue := enqueue w.queue .scheduleChange }) := rfl
  rw [hrun]
  cases ho : ofNamespace m req.nameSpace req.scheduleId with
  | some e =>
    have hstep : Catalogue.step m (.delete req) =
        (.deleted true, Function.update m req.scheduleId none) := by
      simp [Catalogue.step, delete, ho]
    obtain ⟨hm, hns⟩ := Option.filter_eq_some_iff.mp ho
    have hns : e.nameSpace = req.nameSpace := by simpa using hns
    have hp : ∀ r ∈ w.db.schedules, named req.scheduleId req.nameSpace r = true ↔
        r.scheduleId = req.scheduleId :=
      fun r hr => (h.named_iff hr).trans (and_iff_left ⟨e, hm, hns⟩)
    obtain ⟨r, hr, hid⟩ := h.all req.scheduleId (by rw [hm]; rfl)
    have hpos : 0 < (w.db.schedules.filter (named req.scheduleId req.nameSpace)).length :=
      List.length_pos_of_mem (List.mem_filter.mpr ⟨hr, (hp r hr).mpr hid⟩)
    rw [decide_eq_true hpos]
    exact ⟨hstep ▸ .deleted true, hstep ▸ h.remove hp⟩
  | none =>
    have hstep : Catalogue.step m (.delete req) = (.deleted false, m) := by
      simp [Catalogue.step, delete, ho]
    have hp : ∀ r ∈ w.db.schedules, named req.scheduleId req.nameSpace r = false := by
      intro r hr
      rw [← Bool.not_eq_true, h.named_iff hr]
      rintro ⟨_, e, he, hns⟩
      have hsome : ofNamespace m req.nameSpace req.scheduleId = some e :=
        Option.filter_eq_some_iff.mpr ⟨he, by simpa using hns⟩
      rw [ho] at hsome
      cases hsome
    have hnone : w.db.schedules.filter (named req.scheduleId req.nameSpace) = [] :=
      List.filter_eq_nil_iff.mpr (fun r hr => by simp [hp r hr])
    have hall : w.db.schedules.filter (fun r => !named req.scheduleId req.nameSpace r) =
        w.db.schedules := List.filter_eq_self.mpr (fun r hr => by simp [hp r hr])
    rw [hnone, hall]
    exact ⟨hstep ▸ .deleted false, hstep ▸ h⟩

section
variable {crates : Crates} {serde : Serde} (hserde : serde.ReadsBack crates)
include hserde

/-- The schedule of an id is found as its entry describes it. -/
theorem run_getSchedule (h : Stored serde w.db.schedules m) (scheduleId : String) :
    (getSchedule crates serde scheduleId).run w = (.ok ((m scheduleId).map (made scheduleId)), w) := by
  rw [getSchedule, run_query]
  cases hf : w.db.schedules.filter (fun r => r.scheduleId = scheduleId) with
  | nil =>
    have hn : m scheduleId = none := by
      apply h.absent_iff.mpr
      rintro ⟨r, hr, he⟩
      exact absurd (by simpa using he) (List.filter_eq_nil_iff.mp hf r hr)
    rw [hn]
    rfl
  | cons r rest =>
    obtain ⟨hr, hid⟩ := List.mem_filter.mp (hf ▸ List.mem_cons_self (a := r) (l := rest))
    obtain rfl : r.scheduleId = scheduleId := by simpa using hid
    obtain ⟨e, he, _, hrow⟩ := h.described r hr
    have hread := rowToSchedule_made hserde r.scheduleId e
    rw [← hrow] at hread
    simp only [hread, Option.mem_def.mp he]
    rfl

theorem update_answered (h : Stored serde w.db.schedules m) (req : UpdateScheduleRequest) :
    Answered serde m (.update req) ((serveSchedules crates serde (.update req)).run w) := by
  simp only [serveSchedules, updateSchedule]
  cases hs : req.spec with
  | none =>
    have hstep : Catalogue.step m (.update req) = (.refused, m) := by
      simp [Catalogue.step, update, hs]
    exact ⟨hstep ▸ .refused _, hstep ▸ h⟩
  | some spec =>
    simp only [required, Prog.run_bind, Prog.run_mapError, run_getSchedule hserde h,
      Outcome.mapError, Prog.resume_ok]
    cases hm : m req.scheduleId with
    | none =>
      have hstep : Catalogue.step m (.update req) = (.refused, m) := by
        simp [Catalogue.step, update, hs, hm]
      exact ⟨hstep ▸ .refused _, hstep ▸ h⟩
    | some e =>
      simp only [Option.map_some]
      cases hv : validSpec spec with
      | false =>
        have hstep : Catalogue.step m (.update req) = (.refused, m) := by
          simp [Catalogue.step, update, hs, hm, hv]
        obtain ⟨status, he⟩ := coreSpec_invalid hv
        rw [he]
        exact ⟨hstep ▸ .refused status, hstep ▸ h⟩
      | true =>
        have hstep : Catalogue.step m (.update req) = (.updated true,
            if e.nameSpace = req.nameSpace then
              Function.update m req.scheduleId (some { e with spec }) else m) := by
          simp [Catalogue.step, update, hs, hm, hv]
        rw [coreSpec_valid hv]
        refine ⟨hstep ▸ .updated true, ?_⟩
        rw [hstep]
        change Stored serde (Table.update (named req.scheduleId req.nameSpace)
          (setSchedule serde { made req.scheduleId e with spec := madeSpec spec })
            w.db.schedules) _
        by_cases hns : e.nameSpace = req.nameSpace
        · rw [if_pos hns]
          have hp : ∀ r ∈ w.db.schedules, named req.scheduleId req.nameSpace r = true ↔
              r.scheduleId = req.scheduleId :=
            fun r hr => (h.named_iff hr).trans (and_iff_left ⟨e, hm, hns⟩)
          refine h.rewrite ⟨hv, ?_⟩ hp (by rw [hm]; rfl) ?_
          · obtain ⟨r, hr, hid⟩ := h.all req.scheduleId (by rw [hm]; rfl)
            obtain ⟨e', he', hvalid, _⟩ := h.described r hr
            rw [hid, hm, Option.mem_def, Option.some.injEq] at he'
            rw [he']
            exact hvalid.policy
          intro r hr hpr
          obtain ⟨hid, hnsr⟩ : r.scheduleId = req.scheduleId ∧ r.nameSpace = req.nameSpace := by
            simpa [named] using hpr
          rw [setSchedule, hid, hnsr, ← hns]
          rfl
        · rw [if_neg hns, Table.update_none]
          · exact h
          · intro r hr
            rw [← Bool.not_eq_true, h.named_iff hr]
            rintro ⟨_, e', he', hn⟩
            rw [hm, Option.mem_def, Option.some.injEq] at he'
            rw [he'] at hns
            exact hns hn

end

theorem scheduleSpecToProto_made (h : validSpec spec = true) :
    scheduleSpecToProto (madeSpec spec) = usedSpec spec := by
  unfold madeSpec usedSpec
  by_cases hc : spec.specType = "cron"
  · rw [if_pos hc, if_pos hc, scheduleSpecToProto, hc]
  · obtain ⟨hi, hs⟩ : spec.specType = "interval" ∧ spec.intervalSpec.isSome = true := by
      simpa [validSpec, hc] using h
    obtain ⟨secs, hsecs⟩ := Option.isSome_iff_exists.mp hs
    rw [if_neg hc, if_neg hc, scheduleSpecToProto, hi, hsecs]
    rfl

theorem overlapPolicyToProto_made (h : validPolicy policy = true) :
    overlapPolicyToProto (madePolicy policy) = if policy = "" then "skip" else policy := by
  have hcases : policy = "" ∨ policy = "skip" ∨ policy = "buffer" ∨ policy = "terminate" := by
    simpa [validPolicy] using h
  rcases hcases with rfl | rfl | rfl | rfl <;> rfl

theorem nonZero_getD (secs : UInt64) : (nonZero secs).getD 0 = secs := by
  unfold nonZero
  split
  · rename_i h
    exact h.symm
  · rfl

/-- A listing shows an entry as it was requested. -/
theorem scheduleToInfo_shows (created : String → Clock) (scheduleId : String) (hv : e.Valid) :
    Shows (scheduleToInfo created (made scheduleId e)) e where
  nameSpace := rfl
  spec := congrArg some (scheduleSpecToProto_made hv.spec)
  action := by
    refine ⟨_, rfl, rfl, ?_, ?_, rfl, rfl, ?_⟩
    · intro k
      exact (get_extend List.Pairwise.nil e.action.args k).trans (by simp [StringMap.get?])
    · refine List.pairwise_map.mpr ?_
      exact (Ascending.extend List.Pairwise.nil e.action.args).imp (fun h => String.ne_of_lt h)
    · change some (ProtoTimeouts.mk _ _ _) = _
      unfold made coreTimeouts
      cases e.action.timeouts with
      | none => rfl
      | some t => simp [nonZero_getD]
  policy := congrArg some (overlapPolicyToProto_made hv.policy)

section
variable {crates : Crates} {serde : Serde} (hserde : serde.ReadsBack crates)
include hserde

theorem list_answered (h : Stored serde w.db.schedules m) (req : ListSchedulesRequest)
    (created : String → Clock) :
    Answered serde m (.list req created)
      ((serveSchedules crates serde (.list req created)).run w) := by
  let rows := oldestFirst created
    (w.db.schedules.filter (fun r => r.nameSpace = orDefault req.nameSpace))
  have hmem : ∀ r, r ∈ rows ↔ r ∈ w.db.schedules ∧ r.nameSpace = orDefault req.nameSpace := by
    intro r
    simp [rows, oldestFirst, List.mem_insertionSort]
  have hmade : ∀ r ∈ rows, ∃ s, rowToSchedule crates serde r = .ok s ∧
      ∃ e ∈ ofNamespace m (orDefault req.nameSpace) r.scheduleId,
        e.Valid ∧ s = made r.scheduleId e := by
    intro r hr
    obtain ⟨hr, hns⟩ := (hmem r).mp hr
    obtain ⟨e, he, hv, hrow⟩ := h.described r hr
    have hread := rowToSchedule_made hserde r.scheduleId e
    rw [← hrow] at hread
    rw [hrow] at hns
    exact ⟨_, hread, e, Option.filter_eq_some_iff.mpr ⟨he, decide_eq_true hns⟩, hv, rfl⟩
  obtain ⟨schedules, hread, hall⟩ := mapM_ok hmade
  have hrun : (serveSchedules crates serde (.list req created)).run w =
      (.ok (.listed (schedules.map (scheduleToInfo created))), w) := by
    simp only [serveSchedules, Server.listSchedules, Db.Schedules.listSchedules, Prog.run_bind,
      Prog.run_mapError, run_query]
    rw [hread]
    rfl
  have hids : (schedules.map (scheduleToInfo created)).map ScheduleInfo.scheduleId =
      rows.map ScheduleRow.scheduleId := by
    rw [List.map_map]
    refine forall₂_column ?_ hall
    rintro r s ⟨e, _, _, rfl⟩
    rfl
  rw [hrun]
  refine ⟨.listed _ _ ⟨?_, ?_, ?_⟩, h⟩
  · have hperm : (rows.map ScheduleRow.scheduleId).Perm
        ((w.db.schedules.filter (fun r => r.nameSpace = orDefault req.nameSpace)).map
          ScheduleRow.scheduleId) := (List.perm_insertionSort _ _).map _
    rw [hids]
    exact hperm.nodup_iff.mpr (h.keyed.sublist ((List.filter_sublist).map _))
  · intro info hinfo
    obtain ⟨s, hs, rfl⟩ := List.mem_map.mp hinfo
    obtain ⟨r, _, e, he, hv, rfl⟩ := forall₂_origin hall hs
    exact ⟨e, he, scheduleToInfo_shows created r.scheduleId hv⟩
  · intro id hid
    obtain ⟨e, he⟩ := Option.isSome_iff_exists.mp hid
    obtain ⟨hm, hns⟩ := Option.filter_eq_some_iff.mp he
    obtain ⟨r, hr, rfl⟩ := h.all id (by rw [hm]; rfl)
    obtain ⟨e', he', _, hrow⟩ := h.described r hr
    rw [hm, Option.mem_def, Option.some.injEq] at he'
    have hrows : r ∈ rows := (hmem r).mpr ⟨hr, by rw [hrow, ← he']; exact of_decide_eq_true hns⟩
    have hin : r.scheduleId ∈ rows.map ScheduleRow.scheduleId := List.mem_map.mpr ⟨r, hrows, rfl⟩
    rw [← hids] at hin
    exact List.mem_map.mp hin

/-- The `ScheduleService` refines the map of schedules. -/
def refinement : Refinement (scheduleService crates serde) catalogue where
  related w m := Stored serde w.db.schedules m
  agrees := AnswersAs
  start := by
    intro w hw
    refine ⟨fun _ => none, rfl, ?_⟩
    rw [show w.db.schedules = [] from hw]
    refine ⟨List.nodup_nil, ?_, ?_⟩ <;> simp
  step := by
    intro w m call h _
    have hanswered : Answered serde m call ((serveSchedules crates serde call).run w) := by
      cases call with
      | create req => exact create_answered h crates req
      | update req => exact update_answered hserde h req
      | delete req => exact delete_answered h crates req
      | list req created => exact list_answered hserde h req created
    exact ⟨trivial, hanswered.stored, hanswered.agrees⟩

/-- Every sequence of schedule requests is answered as a finite map answers it. -/
theorem scheduleService_refines {w₀ w : World} (h₀ : w₀.db.schedules = [])
    {ts : List (Transition World ScheduleCall (Outcome Status ScheduleReply))}
    (hr : (scheduleService crates serde).Run w₀ ts w) :
    ∃ us m, catalogue.Run (fun _ => none) us m ∧
      List.Forall₂ (fun τ υ => τ.input = υ.input ∧ AnswersAs τ.output υ.output) ts us := by
  obtain ⟨m₀, rfl, hrel⟩ := (refinement hserde).start (s := w₀) h₀
  obtain ⟨us, m, hrun, _, hall⟩ := (refinement hserde).run hr hrel
  exact ⟨us, m, hrun, hall⟩

end

theorem scheduleService_admitted {calls : List ScheduleCall} (h : ∀ call ∈ calls, call.spaced)
    (w : World) : (scheduleService crates serde).Admitted w calls := by
  induction calls generalizing w with
  | nil => trivial
  | cons call calls ih =>
    exact ⟨h call (by simp), ih (fun call hcall => h call (by simp [hcall])) _⟩

/-- One schedule is created, asked for again elsewhere, changed, listed and deleted. -/
def scheduleCalls : List ScheduleCall :=
  [.create ⟨"s", "a", some ⟨"cron", ["0 0 * * * *"], none⟩, some ⟨"w", [], "", "", none⟩, none⟩,
    .create ⟨"s", "b", some ⟨"interval", [], some 30⟩, some ⟨"w", [], "", "", none⟩, none⟩,
    .update ⟨"s", "a", some ⟨"interval", [], some 30⟩⟩,
    .list ⟨"a"⟩ (fun _ => .ofSecs 0 (by omega)),
    .delete ⟨"s", "a"⟩]

theorem scheduleCalls_refine :
    ∃ us m, catalogue.Run (fun _ => none) us m ∧
      List.Forall₂ (fun τ υ => τ.input = υ.input ∧ AnswersAs τ.output υ.output)
        ((scheduleService readingCrates readingSerde).replay .empty scheduleCalls) us :=
  scheduleService_refines readingSerde_readsBack rfl (Machine.run_replay _ _
    (scheduleService_admitted (by simp [scheduleCalls, ScheduleCall.spaced]) _))

end Khronos.Proofs
