import Khronos.Core.Readings
import Khronos.Proofs.Advance
import Khronos.Proofs.Decoding
import Khronos.Server.Checks

namespace Khronos.Proofs
open Time Lib Db.Activities Db.Workflows Server Server.Engine

/-- Who reads a stored time. -/
inductive Reader where
  | rowToWorkflow | rowToStep | rowToSchedule | scheduler
  | retryTimers | heartbeatTimers | checkHeartbeats
deriving DecidableEq

/-- The readers that have a `parse_datetime`. -/
def Reader.parses : Reader → Bool
  | .rowToWorkflow | .rowToStep | .rowToSchedule | .scheduler => true
  | .retryTimers | .heartbeatTimers | .checkHeartbeats => false

/-- What a reader makes of a text: an instant, or an error that it passes on or ignores. -/
def Reader.read : Reader → String → Option DateTime
  | .rowToWorkflow, s => (Db.Workflows.parseDatetime s).toOption
  | .rowToStep, s => (Db.Activities.parseDatetime s).toOption
  | .rowToSchedule, s => (Db.Schedules.parseDatetime s).toOption
  | .scheduler, s => (Scheduler.parseDatetime s).toOption
  | .retryTimers, s | .heartbeatTimers, s => DateTime.parseFromStr s "%Y-%m-%d %H:%M:%S"
  | .checkHeartbeats, s => (checkedTime .other s).toOption

/-- The formats with a literal `Z` that each `parse_datetime` lists. -/
def zuluFormats : List String := ["%Y-%m-%dT%H:%M:%S%.fZ", "%Y-%m-%dT%H:%M:%SZ"]

def naiveFormats : List String :=
  ["%Y-%m-%d %H:%M:%S%.f", "%Y-%m-%d %H:%M:%S", "%Y-%m-%dT%H:%M:%S%.f", "%Y-%m-%dT%H:%M:%S"]

/-- The texts that should be read, with the instants they denote: what `format_datetime` writes,
and ISO texts that end in `Z`, which stands for UTC. -/
inductive Denotes : String → DateTime → Prop
  | written {d : DateTime} (h : d.Representable) : Denotes d.format d.trunc
  | zulu (hf : fmt ∈ zuluFormats) (h : NaiveDateTime.parseFromStr s fmt = some d) : Denotes s d

theorem parse_items (h : NaiveDateTime.parseFromStr s fmt = some d) :
    ∃ q, parseItems (strftime fmt.toList) {} s.toList = some q := by
  obtain ⟨q, hq, _⟩ := Option.bind_eq_some_iff.mp h
  exact ⟨q, hq⟩

theorem zulu_ends (hf : fmt ∈ zuluFormats) (h : NaiveDateTime.parseFromStr s fmt = some d) :
    s.toList.getLast? = some 'Z' := by
  have hitems : ∀ fmt ∈ zuluFormats, strftime fmt.toList =
      (strftime fmt.toList).dropLast ++ [.literal 'Z'] := by
    decide +kernel
  obtain ⟨q, hq⟩ := parse_items h
  rw [hitems fmt hf] at hq
  exact ends_literal _ hq

theorem naive_ends (hf : fmt ∈ naiveFormats) (h : NaiveDateTime.parseFromStr s fmt = some d) :
    EndsInDigit s.toList := by
  have hitems : ∀ fmt ∈ naiveFormats,
      strftime fmt.toList = (strftime fmt.toList).dropLast ++ [.second] ∨
        strftime fmt.toList = (strftime fmt.toList).dropLast.dropLast ++ [.second, .fraction] := by
    decide +kernel
  obtain ⟨q, hq⟩ := parse_items h
  rcases hitems fmt hf with he | he
  · rw [he] at hq
    exact ends_second _ hq
  · rw [he] at hq
    exact ends_fraction _ hq

/-- No format without the `Z` reads a text that ends in one. -/
theorem zulu_unread {s : String} (hz : s.toList.getLast? = some 'Z') (hf : fmt ∈ naiveFormats) :
    NaiveDateTime.parseFromStr s fmt = none := by
  cases h : NaiveDateTime.parseFromStr s fmt with
  | none => rfl
  | some d =>
    obtain ⟨c, hc, hdigit⟩ := naive_ends hf h
    rw [hz] at hc
    cases hc
    exact absurd hdigit (by decide)

theorem zulu_naive {s : String} (hz : s.toList.getLast? = some 'Z') {fmts : List String}
    (hl : ∀ fmt ∈ fmts, fmt ∈ naiveFormats) :
    fmts.findSome? (NaiveDateTime.parseFromStr s) = none :=
  List.findSome?_eq_none_iff.mpr fun fmt hfmt => zulu_unread hz (hl fmt hfmt)

/-- Three of the readers parse with copies of one function. -/
theorem read_schedule (s : String) : Reader.read .rowToSchedule s = Reader.read .rowToWorkflow s :=
  rfl

theorem read_scheduler (s : String) : Reader.read .scheduler s = Reader.read .rowToWorkflow s :=
  rfl

theorem checked_none (refused : String → DbError) (text : String) :
    checkedTime refused text = .error (refused text) := by
  rw [checkedTime, timer_time_none]

/-- No format without an offset makes the engine's readers read a text. -/
theorem read_engine {r : Reader} (hr : r.parses = false) (s : String) : r.read s = none := by
  cases r with
  | rowToWorkflow | rowToStep | rowToSchedule | scheduler => cases hr
  | retryTimers => exact timer_time_none s
  | heartbeatTimers => exact timer_time_none s
  | checkHeartbeats =>
    rw [Reader.read, checked_none]
    rfl

/-- No reader makes anything of a text that ends in `Z`. -/
theorem read_zulu {s : String} (hz : s.toList.getLast? = some 'Z') (r : Reader) :
    r.read s = none := by
  have hworkflow : Reader.read .rowToWorkflow s = none := by
    rw [Reader.read, Db.Workflows.parseDatetime, zulu_naive hz (by simp [naiveFormats]),
      runs_zoned_none]
    rfl
  cases r with
  | rowToWorkflow => exact hworkflow
  | rowToStep =>
    rw [Reader.read, Db.Activities.parseDatetime, zulu_naive hz (by simp [naiveFormats]),
      steps_zoned_none]
    rfl
  | rowToSchedule => exact (read_schedule s).trans hworkflow
  | scheduler => exact (read_scheduler s).trans hworkflow
  | retryTimers | heartbeatTimers | checkHeartbeats => exact read_engine rfl s

/-- A `parse_datetime` reads what `format_datetime` writes, up to the second. -/
theorem read_written {d : DateTime} (h : d.Representable) {r : Reader} (hr : r.parses = true) :
    r.read d.format = some d.trunc := by
  have hworkflow : Reader.read .rowToWorkflow d.format = some d.trunc := by
    rw [Reader.read, runs_parseDatetime h]
    rfl
  cases r with
  | rowToWorkflow => exact hworkflow
  | rowToStep =>
    rw [Reader.read, steps_parseDatetime h]
    rfl
  | rowToSchedule => exact (read_schedule _).trans hworkflow
  | scheduler => exact (read_scheduler _).trans hworkflow
  | retryTimers | heartbeatTimers | checkHeartbeats => cases hr

/-- What `check_heartbeats` reads, in its order. -/
def checkedTexts (db : Db) : List String := (runningRows db).filterMap checkedText

/-- How the check ends that is to read these texts: with the first of them. -/
def refusal (refused : String → DbError) (texts : List String) : Outcome DbError Unit :=
  match texts.head? with
  | some text => .error (refused text)
  | none => .ok ()

theorem run_checkHeartbeat (refused : String → DbError) (now : Clock) (env : Env)
    (activity : RunningActivity) (w : World) :
    (checkHeartbeat refused now env activity).run w =
      (refusal refused (checkedText activity).toList, w) := by
  unfold checkHeartbeat checkedText
  cases activity.heartbeatTimeoutSecs with
  | none => rfl
  | some timeoutSecs =>
    cases activity.lastHeartbeatAtStr.or activity.startedAtStr with
    | none => rfl
    | some text =>
      dsimp only
      rw [checked_none]
      rfl

theorem run_checks (refused : String → DbError) (now : Clock) (env : Env)
    (xs : List (RunningActivity × Nat)) (w : World) :
    (Prog.forEach xs fun (activity, i) =>
        checkHeartbeat refused now (env.part (i + 1)) activity).run w =
      (refusal refused (xs.filterMap fun x => checkedText x.1), w) := by
  induction xs with
  | nil => rfl
  | cons x xs ih =>
    rw [Prog.forEach, Prog.run_bind, run_checkHeartbeat, List.filterMap_cons]
    cases checkedText x.1 with
    | none => exact ih
    | some text => rfl

/-- The first text that the check reads ends it, and nothing has been changed before. -/
theorem run_checkHeartbeats (refused : String → DbError) (env : Env) (w : World) :
    (checkHeartbeats refused env).run w = (refusal refused (checkedTexts w.db), w) := by
  have htexts : (runningRows w.db).zipIdx.filterMap (fun x => checkedText x.1) =
      checkedTexts w.db := by
    have hfst := List.filterMap_map (f := Prod.fst) (g := checkedText)
      (l := (runningRows w.db).zipIdx)
    rw [List.zipIdx_map_fst] at hfst
    exact hfst.symm
  rw [checkHeartbeats, Prog.run_bind, getRunningActivities, run_query]
  exact (run_checks refused (env.now 0) env _ w).trans (by rw [htexts])

/-- A reader reads a text as the instant that it denotes exactly when it is a `parse_datetime` and
`format_datetime` has written the text. So the engine arms no timer, whatever the state, and its
check of the heartbeats ends with the first text that it reads. -/
theorem readers_agree_iff (h : Denotes s d) (r : Reader) :
    (r.read s = some d ↔ r.parses = true ∧ Stamp s) ∧
      (∀ env runId w, (scheduleTimersForWorkflow env runId).run w = (.ok (), w)) ∧
      ∀ refused env w, (checkHeartbeats refused env).run w =
        (refusal refused (checkedTexts w.db), w) := by
  refine ⟨?_, run_scheduleTimers, run_checkHeartbeats⟩
  constructor
  · intro hread
    cases hr : r.parses with
    | false =>
      rw [read_engine hr] at hread
      cases hread
    | true =>
      cases h with
      | written hd => exact ⟨rfl, _, hd, rfl⟩
      | zulu hf hz =>
        rw [read_zulu (zulu_ends hf hz)] at hread
        cases hread
  · rintro ⟨hr, e, he, hs⟩
    cases h with
    | written hd => exact read_written hd hr
    | zulu hf hz =>
      have hread := read_zulu (zulu_ends hf hz) r
      rw [hs, read_written he hr] at hread
      cases hread

/-- The start of the year 2024. -/
def newYear : Clock := Clock.ofSecs 1704067200 (by omega)

theorem newYear_read : Reader.read .scheduler newYear.datetime = some newYear.time.trunc :=
  (readers_agree_iff (.written newYear.representable) .scheduler).1.mpr
    ⟨rfl, newYear.time, newYear.representable, rfl⟩

/-- The engine's retry timers do not read it as it is stored, and no `parse_datetime` with a `Z`. -/
theorem newYear_unread :
    (¬ ∀ (r : Reader) (d : DateTime), d.Representable → r.read d.format = some d.trunc) ∧
      ¬ ∀ (r : Reader) (s fmt : String) (d : DateTime), r.parses = true → fmt ∈ zuluFormats →
        NaiveDateTime.parseFromStr s fmt = some d → r.read s = some d := by
  constructor
  · intro h
    have hread : Reader.read .retryTimers newYear.datetime = some newYear.time.trunc :=
      h .retryTimers newYear.time newYear.representable
    rw [read_engine rfl] at hread
    cases hread
  · intro h
    have hzulu : NaiveDateTime.parseFromStr "2024-01-01T00:00:00Z" "%Y-%m-%dT%H:%M:%SZ" =
        some newYear.time := by
      decide +kernel
    exact absurd (h .rowToStep _ _ _ rfl (by decide) hzulu) (by decide +kernel)

end Khronos.Proofs
