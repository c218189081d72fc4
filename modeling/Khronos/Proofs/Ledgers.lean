import Khronos.Proofs.Isolation
import Khronos.Proofs.Refused
import Khronos.Server.Ledger

namespace Khronos.Proofs
open Time Lib Db.Schedules Server Catalogue

/-- What every reader of a row asks of its columns. -/
structure Decodable (crates : Crates) (serde : Serde) (r : ScheduleRow) : Prop where
  cron : r.specType = .cron → ∀ text ∈ r.cronExpressions, (crates.stringsFromStr text).isSome
  args : (serde.mapFromStr r.actionArgsJson).isSome
  timeouts : (crates.timeoutsFromStr r.timeoutsJson).isSome

theorem decoded_ok {found : Option α} (h : found.isSome) (column : String) :
    ∃ a ∈ found, decoded column found = .ok a := by
  obtain ⟨a, rfl⟩ := Option.isSome_iff_exists.mp h
  exact ⟨a, rfl, rfl⟩

theorem Decodable.rowSpec {crates : Crates} {serde : Serde} (h : Decodable crates serde r) :
    ∃ spec, Db.Schedules.rowSpec crates r = .ok spec := by
  unfold Db.Schedules.rowSpec
  cases ht : r.specType with
  | interval => exact ⟨_, rfl⟩
  | cron =>
    cases hc : r.cronExpressions with
    | none => exact ⟨_, rfl⟩
    | some text =>
      obtain ⟨exprs, _, he⟩ := decoded_ok (h.cron ht text hc) "cron_expressions"
      exact ⟨.cron exprs, by simp only [he]; rfl⟩

/-- The schedule that a row is read as keeps the arguments of the row. -/
theorem Decodable.read {crates : Crates} {serde : Serde} (h : Decodable crates serde r) :
    ∃ s, rowToSchedule crates serde r = .ok s ∧
      s.action.args ∈ serde.mapFromStr r.actionArgsJson := by
  obtain ⟨spec, hspec⟩ := h.rowSpec
  obtain ⟨args, hargs, ha⟩ := decoded_ok h.args "action_args_json"
  obtain ⟨timeouts, _, ht⟩ := decoded_ok h.timeouts "timeouts_json"
  unfold rowToSchedule
  rw [hspec, ha, ht]
  exact ⟨_, rfl, hargs⟩

/-- What is kept of the schedules: one row for each id, all of them readable, and the loader
reads from each cron row the list that it was last given. -/
structure Faithful (crates : Crates) (serde : Serde) (given : String → List String)
    (rows : List ScheduleRow) : Prop where
  keyed : Table.Keyed ScheduleRow.scheduleId rows
  decodable : ∀ r ∈ rows, Decodable crates serde r
  cron : ∀ r ∈ rows, r.specType = .cron → loadedCron crates r = some (given r.scheduleId)

/-- What a write gives to the rows of an id. -/
def noted (given : String → List String) (key : String) (asked : Option (List String)) :
    String → List String :=
  match asked with
  | some exprs => Function.update given key exprs
  | none => given

theorem noted_other {given : String → List String} {key other : String}
    {asked : Option (List String)} (h : other ≠ key) : noted given key asked other = given other := by
  cases asked with
  | none => rfl
  | some exprs => exact Function.update_of_ne h _ _

section
variable {crates : Crates} {serde : Serde} {given : String → List String}
  {rows : List ScheduleRow} {key space : String} {asked : Option (List String)}

theorem Faithful.insert (h : Faithful crates serde given rows) {row : ScheduleRow}
    (hn : ∀ r ∈ rows, r.scheduleId ≠ row.scheduleId) (hd : Decodable crates serde row)
    (hc : row.specType = .cron → loadedCron crates row = asked ∧ asked.isSome) :
    Faithful crates serde (noted given row.scheduleId asked) (rows ++ [row]) where
  keyed := h.keyed.append _ hn
  decodable := by
    intro r hr
    rcases List.mem_append.mp hr with hr | hr
    · exact h.decodable r hr
    · rw [List.mem_singleton.mp hr]
      exact hd
  cron := by
    intro r hr ht
    rcases List.mem_append.mp hr with hr | hr
    · rw [noted_other (hn r hr)]
      exact h.cron r hr ht
    · obtain rfl := List.mem_singleton.mp hr
      obtain ⟨hl, hsome⟩ := hc ht
      obtain ⟨exprs, rfl⟩ := Option.isSome_iff_exists.mp hsome
      rw [hl, noted, Function.update_self]

theorem Faithful.delete (h : Faithful crates serde given rows) (p : ScheduleRow → Bool) :
    Faithful crates serde given (rows.filter p) where
  keyed := h.keyed.sublist ((List.filter_sublist).map _)
  decodable := fun r hr => h.decodable r (List.mem_filter.mp hr).1
  cron := fun r hr => h.cron r (List.mem_filter.mp hr).1

/-- The row of an id is rewritten: with new cron expressions, or keeping those that it has. -/
theorem Faithful.rewrite (h : Faithful crates serde given rows) {f : ScheduleRow → ScheduleRow}
    (hid : ∀ r, (f r).scheduleId = r.scheduleId)
    (hd : ∀ r ∈ rows, named key space r = true → Decodable crates serde (f r))
    (hc : ∀ r ∈ rows, named key space r = true → (f r).specType = .cron →
      match asked with
      | some exprs => loadedCron crates (f r) = some exprs
      | none => r.specType = .cron ∧ loadedCron crates (f r) = loadedCron crates r) :
    Faithful crates serde
      (if rows.any (named key space) then noted given key asked else given)
      (Table.update (named key space) f rows) where
  keyed := h.keyed.update _ f (fun r _ _ => hid r)
  decodable := by
    intro r hr
    obtain ⟨q, hq, rfl⟩ := Table.mem_update.mp hr
    cases hn : named key space q with
    | true => exact hd q hq hn
    | false => exact h.decodable q hq
  cron := by
    intro r hr ht
    obtain ⟨q, hq, rfl⟩ := Table.mem_update.mp hr
    cases hn : named key space q with
    | true =>
      have hany : rows.any (named key space) = true :=
        List.any_eq_true.mpr ⟨q, hq, hn⟩
      have hq' : q.scheduleId = key := of_decide_eq_true (Bool.and_eq_true_iff.mp hn).1
      rw [hn, if_pos rfl] at ht
      rw [if_pos rfl, if_pos hany, hid, hq']
      have hcq := hc q hq hn ht
      cases asked with
      | some exprs =>
        rw [noted, Function.update_self]
        exact hcq
      | none =>
        rw [hcq.2, noted, ← hq']
        exact h.cron q hq hcq.1
    | false =>
      rw [hn, if_neg Bool.false_ne_true] at ht
      rw [if_neg Bool.false_ne_true, h.cron q hq ht]
      split
      · rename_i hany
        obtain ⟨t, ht, hnt⟩ := List.any_eq_true.mp hany
        have ht' : t.scheduleId = key := of_decide_eq_true (Bool.and_eq_true_iff.mp hnt).1
        rw [noted_other]
        intro he
        have hqt : q = t := h.keyed.unique hq ht (he.trans ht'.symm)
        rw [hqt, hnt] at hn
        cases hn
      · rfl

end

theorem any_update {p : ScheduleRow → Bool} {f : ScheduleRow → ScheduleRow}
    {rows : List ScheduleRow} (hf : ∀ r, p (f r) = p r) :
    (Table.update p f rows).any p = rows.any p := by
  rw [Table.update, List.any_map]
  congr 1
  funext r
  cases hp : p r <;> simp [hp, hf]

/-- The invariant of the writers. -/
def InStep (crates : Crates) (serde : Serde) (l : Ledger) : Prop :=
  Faithful crates serde l.given l.world.db.schedules

@[simp] theorem note_world (call : ScheduleWrite) (out : Outcome Status Unit) (l : Ledger) :
    (l.note call out).world = l.world := by
  unfold Ledger.note
  split
  · split <;> rfl
  · rfl

theorem note_ok (call : ScheduleWrite) (l : Ledger) :
    (l.note call (.ok ())).given =
      if l.world.db.schedules.any (named call.target.1 call.target.2) then
        noted l.given call.target.1 call.cron
      else l.given := by
  unfold Ledger.note noted
  cases call.cron with
  | none => simp
  | some exprs =>
    dsimp only
    split <;> rfl

section
variable {crates : Crates} {serde : Serde} {spliced : Temporal.Spliced} {l : Ledger}
  {call : ScheduleWrite} {w : World}

theorem inStep_ok {rows : List ScheduleRow}
    (hrun : ((call.run crates serde spliced).run l.world).1 = .ok () ∧
      ((call.run crates serde spliced).run l.world).2.db.schedules = rows)
    (h : Faithful crates serde
      (if rows.any (named call.target.1 call.target.2) then
        noted l.given call.target.1 call.cron
      else l.given) rows) :
    InStep crates serde ((scheduleWriters crates serde spliced).step l call).2 := by
  obtain ⟨hok, rfl⟩ := hrun
  simp only [InStep, scheduleWriters, hok, note_ok, note_world]
  exact h

theorem inStep_error (h : InStep crates serde l)
    (hrun : ∃ e, (call.run crates serde spliced).run l.world = (.error e, l.world)) :
    InStep crates serde ((scheduleWriters crates serde spliced).step l call).2 := by
  obtain ⟨e, hrun⟩ := hrun
  simp only [InStep, scheduleWriters, hrun, note_world]
  exact h

/-- A row is inserted under an id that no row has. -/
theorem inStep_insert (h : InStep crates serde l) {r : ScheduleRow}
    (hrun : ((call.run crates serde spliced).run l.world).1 = .ok () ∧
      ((call.run crates serde spliced).run l.world).2.db.schedules =
        l.world.db.schedules ++ [r])
    (hkey : call.target = (r.scheduleId, r.nameSpace))
    (hn : ¬ ∃ q ∈ l.world.db.schedules, q.scheduleId = r.scheduleId)
    (hd : Decodable crates serde r)
    (hc : r.specType = .cron → loadedCron crates r = call.cron ∧ call.cron.isSome) :
    InStep crates serde ((scheduleWriters crates serde spliced).step l call).2 := by
  apply inStep_ok hrun
  have hany : (l.world.db.schedules ++ [r]).any (named r.scheduleId r.nameSpace) = true := by
    simp [named]
  rw [hkey, if_pos hany]
  exact Faithful.insert h (fun q hq he => hn ⟨q, hq, he⟩) hd hc

/-- The rows of the id and the namespace of a request are rewritten. -/
theorem inStep_rewrite (h : InStep crates serde l) {f : ScheduleRow → ScheduleRow}
    (hrun : ((call.run crates serde spliced).run l.world).1 = .ok () ∧
      ((call.run crates serde spliced).run l.world).2.db.schedules =
        Table.update (named call.target.1 call.target.2) f l.world.db.schedules)
    (hf : ∀ r, (f r).scheduleId = r.scheduleId ∧ (f r).nameSpace = r.nameSpace)
    (hd : ∀ r ∈ l.world.db.schedules, named call.target.1 call.target.2 r = true →
      Decodable crates serde (f r))
    (hc : ∀ r ∈ l.world.db.schedules, named call.target.1 call.target.2 r = true →
      (f r).specType = .cron → match call.cron with
      | some exprs => loadedCron crates (f r) = some exprs
      | none => r.specType = .cron ∧ loadedCron crates (f r) = loadedCron crates r) :
    InStep crates serde ((scheduleWriters crates serde spliced).step l call).2 := by
  apply inStep_ok hrun
  rw [any_update (fun r => by simp [named, hf])]
  exact Faithful.rewrite h (fun r => (hf r).1) hd hc

/-- The rows of the id and the namespace of a request are deleted. -/
theorem inStep_delete (h : InStep crates serde l) (hcron : call.cron = none)
    {p : ScheduleRow → Bool}
    (hrun : ((call.run crates serde spliced).run l.world).1 = .ok () ∧
      ((call.run crates serde spliced).run l.world).2.db.schedules =
        l.world.db.schedules.filter p) :
    InStep crates serde ((scheduleWriters crates serde spliced).step l call).2 := by
  apply inStep_ok hrun
  simp only [hcron, noted, ite_self]
  exact Faithful.delete h p

/-- What the crates do with the columns, as documented: they read back what they wrote, the keys
of a `BTreeMap` ascend, and no timeout has to be there. -/
structure Readers (crates : Crates) (serde : Serde) : Prop where
  back : serde.ReadsBack crates
  ascending : ∀ text, ∀ m ∈ serde.mapFromStr text, Ascending m
  noTimeouts : (crates.timeoutsFromStr "\x7b\x7d").isSome

theorem scheduleRow_decodable (hs : serde.ReadsBack crates) {s : Core.Schedule}
    (ha : Ascending s.action.args) : Decodable crates serde (scheduleRow serde s) where
  cron := by
    intro ht text htext
    cases hspec : s.spec with
    | interval secs => simp [scheduleRow, specColumns, hspec] at ht
    | cron exprs =>
      obtain rfl : text = serde.stringsToString exprs := by
        simpa [scheduleRow, specColumns, hspec] using htext.symm
      rw [hs.strings]
      rfl
  args := by
    rw [scheduleRow, hs.map _ ha]
    rfl
  timeouts := by
    rw [scheduleRow, hs.timeouts]
    rfl

/-- The loader reads the list that the schedule was made with. -/
theorem scheduleRow_loaded (hs : serde.ReadsBack crates) {s : Core.Schedule}
    (ht : (scheduleRow serde s).specType = .cron) :
    ∃ exprs, s.spec = .cron exprs ∧ loadedCron crates (scheduleRow serde s) = some exprs := by
  cases hspec : s.spec with
  | interval secs => simp [scheduleRow, specColumns, hspec] at ht
  | cron exprs => exact ⟨exprs, rfl, by simp [loadedCron, scheduleRow, specColumns, hspec, hs.strings]⟩

theorem coreSpec_cron {spec : ProtoScheduleSpec} {exprs : List String}
    (h : coreSpec spec = .ok (.cron exprs)) : nativeCron (some spec) = some exprs := by
  unfold coreSpec at h
  split at h
  · rename_i hc
    cases h
    simp [nativeCron, hc]
  · split at h
    · split at h <;> cases h
    · cases h

theorem requestedSchedule_parts {req : CreateScheduleRequest} {s : Core.Schedule}
    (h : requestedSchedule req = .ok s) :
    Ascending s.action.args ∧ ∃ spec, req.spec = some spec ∧ coreSpec spec = .ok s.spec := by
  cases he : requestedEntry req with
  | none =>
    obtain ⟨status, hs⟩ := requestedSchedule_none he
    rw [hs] at h
    cases h
  | some e =>
    have hspec := coreSpec_valid (requestedEntry_valid he).spec
    rw [requestedSchedule_some he] at h
    cases h
    refine ⟨Ascending.extend List.Pairwise.nil _, e.spec, ?_, hspec⟩
    unfold requestedEntry at he
    split at he
    · rename_i spec action hs ha
      split at he
      · cases he
        exact hs
      · cases he
    · cases he

theorem create_inStep (hc : Readers crates serde) (h : InStep crates serde l)
    (req : CreateScheduleRequest) :
    InStep crates serde ((scheduleWriters crates serde spliced).step l (.create req)).2 := by
  cases hreq : requestedSchedule req with
  | error status =>
    apply inStep_error h
    simp only [ScheduleWrite.run, createSchedule, hreq]
    exact ⟨status, rfl⟩
  | ok s =>
    obtain ⟨hid, hns⟩ := requestedSchedule_key hreq
    obtain ⟨ha, spec, hspec, hcore⟩ := requestedSchedule_parts hreq
    by_cases hex : ∃ r ∈ l.world.db.schedules, r.scheduleId = s.scheduleId
    · apply inStep_error h
      simp only [ScheduleWrite.run, createSchedule, hreq, Prog.run_bind, Prog.run_mapError,
        insertSchedule, run_execute, if_pos hex]
      exact ⟨_, rfl⟩
    · refine inStep_insert (r := scheduleRow serde s) h ?_ (Prod.ext hid.symm hns.symm) hex
        (scheduleRow_decodable hc.back ha) ?_
      · simp only [ScheduleWrite.run, createSchedule, hreq, Prog.run_bind, Prog.run_mapError,
          insertSchedule, run_execute, if_neg hex]
        exact ⟨rfl, rfl⟩
      · intro ht
        obtain ⟨exprs, hcron, hl⟩ := scheduleRow_loaded hc.back ht
        have hasked : nativeCron req.spec = some exprs := by
          rw [hspec]
          exact coreSpec_cron (hcron ▸ hcore)
        exact ⟨hl.trans hasked.symm, by rw [ScheduleWrite.cron, hasked]; rfl⟩

/-- The schedule is found by its id alone, so that it is the one of the row that is rewritten. -/
theorem update_inStep (hc : Readers crates serde) (h : InStep crates serde l)
    (req : UpdateScheduleRequest) :
    InStep crates serde ((scheduleWriters crates serde spliced).step l (.update req)).2 := by
  cases hspec : req.spec with
  | none =>
    apply inStep_error h
    simp only [ScheduleWrite.run, updateSchedule, hspec]
    exact ⟨_, rfl⟩
  | some spec =>
    cases hf : l.world.db.schedules.filter (fun r => r.scheduleId = req.scheduleId) with
    | nil =>
      apply inStep_error h
      simp only [ScheduleWrite.run, updateSchedule, hspec, required, Prog.run_bind,
        Prog.run_mapError, getSchedule, run_query, hf]
      exact ⟨_, rfl⟩
    | cons r rest =>
      have hr : r ∈ l.world.db.schedules := (List.mem_filter.mp (hf ▸ List.mem_cons_self)).1
      obtain ⟨s, hs, hargs⟩ := (h.decodable r hr).read
      cases hcore : coreSpec spec with
      | error status =>
        apply inStep_error h
        simp only [ScheduleWrite.run, updateSchedule, hspec, required, Prog.run_bind,
          Prog.run_mapError, getSchedule, run_query, hf, hs, hcore]
        exact ⟨_, rfl⟩
      | ok newSpec =>
        refine inStep_rewrite (f := setSchedule serde { s with spec := newSpec }) h ?_
          (fun _ => ⟨rfl, rfl⟩) ?_ ?_
        · simp only [ScheduleWrite.run, updateSchedule, hspec, required, Prog.run_bind,
            Prog.run_mapError, getSchedule, run_query, hf, hs, hcore]
          exact ⟨rfl, rfl⟩
        · intro q _ _
          obtain ⟨hcron, ha, ht⟩ := scheduleRow_decodable hc.back
            (s := { s with spec := newSpec }) (hc.ascending _ _ hargs)
          exact ⟨hcron, ha, ht⟩
        · intro q _ _ ht
          obtain ⟨exprs, hexprs, hl⟩ := scheduleRow_loaded hc.back
            (s := { s with spec := newSpec }) ht
          have hasked : nativeCron req.spec = some exprs := by
            rw [hspec]
            exact coreSpec_cron (hcore.trans (congrArg _ hexprs))
          simp only [ScheduleWrite.cron, hasked]
          exact hl

theorem delete_inStep (h : InStep crates serde l) (req : DeleteScheduleRequest) :
    InStep crates serde ((scheduleWriters crates serde spliced).step l (.delete req)).2 :=
  inStep_delete h rfl ⟨rfl, rfl⟩

theorem deleteTemporal_inStep (h : InStep crates serde l)
    (req : Temporal.DeleteScheduleRequest) :
    InStep crates serde ((scheduleWriters crates serde spliced).step l (.deleteTemporal req)).2 :=
  inStep_delete h rfl ⟨rfl, rfl⟩

/-- The text that a Temporal request to create puts into the column of the arguments. -/
def temporalArgs (crates : Crates) (req : Temporal.CreateScheduleRequest) : Option String :=
  ((req.schedule.bind (·.action)).bind (·.startWorkflow)).map
    (Temporal.actionArgs crates req.scheduleId)

/-- A valid Temporal request has an action, and a row of type cron is one of cron strings. -/
theorem requestedRow_parts {req : Temporal.CreateScheduleRequest} {row : ScheduleRow}
    (h : Temporal.requestedRow crates req = .ok row) :
    row.scheduleId = req.scheduleId ∧ row.nameSpace = orDefault req.nameSpace ∧
      temporalArgs crates req = some row.actionArgsJson ∧ row.timeoutsJson = "\x7b\x7d" ∧
      (row.specType = .cron → (temporalCron req.schedule).isSome) := by
  obtain ⟨schedule, spec, action, columns, sw, hs, hspec, ha, hc, hw, rfl⟩ :=
    Temporal.requestedRow_ok h
  refine ⟨rfl, rfl, by simp [temporalArgs, hs, ha, hw], rfl, fun ht => ?_⟩
  change columns.specType = .cron at ht
  unfold Temporal.specColumns at hc
  split at hc
  · rename_i hcron
    simpa [temporalCron, hs, hspec] using hcron
  · split at hc
    · cases hc
      cases ht
    · cases hc

/-- What a Temporal request has to be like for the columns it writes to be read back: if it
creates a row, that row is of an interval and the input of its action is a JSON map; if it
updates one, it gives no cron strings and its texts end where their quotes do. -/
def Encoded (crates : Crates) (serde : Serde) (l : Ledger) : ScheduleWrite → Prop
  | .createTemporal req =>
    (∃ row, Temporal.requestedRow crates req = .ok row) →
      (∀ r ∈ l.world.db.schedules, r.scheduleId ≠ req.scheduleId) →
      temporalCron req.schedule = none ∧
        ∀ text ∈ temporalArgs crates req, (serde.mapFromStr text).isSome
  | .updateTemporal req =>
    l.world.db.schedules.any (named req.scheduleId (orDefault req.nameSpace)) = true →
      temporalCron req.schedule = none ∧ plainUpdate req = true
  | _ => True

theorem createTemporal_inStep (hc : Readers crates serde) (h : InStep crates serde l)
    (req : Temporal.CreateScheduleRequest) (he : Encoded crates serde l (.createTemporal req)) :
    InStep crates serde ((scheduleWriters crates serde spliced).step l (.createTemporal req)).2 := by
  cases hreq : Temporal.requestedRow crates req with
  | error status =>
    apply inStep_error h
    simp only [ScheduleWrite.run, Temporal.createSchedule, hreq]
    exact ⟨status, rfl⟩
  | ok row =>
    obtain ⟨hid, hns, hargs, htimeouts, hcron⟩ := requestedRow_parts hreq
    by_cases hex : ∃ r ∈ l.world.db.schedules, r.scheduleId = row.scheduleId
    · apply inStep_error h
      simp only [ScheduleWrite.run, Temporal.createSchedule, hreq, Temporal.insertRow,
        Prog.run_mapError, run_execute, if_pos hex]
      exact ⟨_, rfl⟩
    · obtain ⟨hnone, hmap⟩ := he ⟨row, hreq⟩ (fun r hr hrid => hex ⟨r, hr, hrid.trans hid.symm⟩)
      have hinterval : row.specType ≠ .cron := by
        intro ht
        have hsome := hcron ht
        rw [hnone] at hsome
        cases hsome
      refine inStep_insert (r := row) h ?_ (Prod.ext hid.symm hns.symm) hex ?_ ?_
      · simp only [ScheduleWrite.run, Temporal.createSchedule, hreq, Temporal.insertRow,
          Prog.run_mapError, run_execute, if_neg hex]
        exact ⟨rfl, trivial⟩
      · exact ⟨fun ht => absurd ht hinterval, hmap _ hargs, htimeouts ▸ hc.noTimeouts⟩
      · exact fun ht => absurd ht hinterval

theorem applyAll_key (sets : List Temporal.Assignment) (r : ScheduleRow) :
    (Temporal.applyAll sets r).scheduleId = r.scheduleId ∧
      (Temporal.applyAll sets r).nameSpace = r.nameSpace := by
  induction sets generalizing r with
  | nil => exact ⟨rfl, rfl⟩
  | cons set sets ih =>
    obtain ⟨hid, hns⟩ := ih (set.apply r)
    unfold Temporal.applyAll at hid hns ⊢
    rw [List.foldl_cons, hid, hns]
    cases set <;> exact ⟨rfl, rfl⟩

/-- What assignments leave to a row that give it no cron expressions. -/
structure Recast (r q : ScheduleRow) : Prop where
  cron : q.specType = .cron → r.specType = .cron
  cronExpressions : q.cronExpressions = r.cronExpressions
  args : q.actionArgsJson = r.actionArgsJson
  timeouts : q.timeoutsJson = r.timeoutsJson

theorem Recast.decodable {r q : ScheduleRow} (h : Recast r q) (hr : Decodable crates serde r) :
    Decodable crates serde q where
  cron ht := h.cronExpressions ▸ hr.cron (h.cron ht)
  args := h.args ▸ hr.args
  timeouts := h.timeouts ▸ hr.timeouts

theorem applyAll_recast {sets : List Temporal.Assignment} (h : ∀ text, .cron text ∉ sets)
    (r : ScheduleRow) : Recast r (Temporal.applyAll sets r) := by
  induction sets generalizing r with
  | nil => exact ⟨id, rfl, rfl, rfl⟩
  | cons set sets ih =>
    obtain ⟨hcron, hexprs, hargs, htimeouts⟩ :=
      ih (fun text hm => h text (List.mem_cons_of_mem _ hm)) (set.apply r)
    have hset : Recast r (set.apply r) := by
      cases set with
      | cron text => exact absurd List.mem_cons_self (h text)
      | interval secs => exact ⟨nofun, rfl, rfl, rfl⟩
      | workflowName text => exact ⟨id, rfl, rfl, rfl⟩
      | taskQueue text => exact ⟨id, rfl, rfl, rfl⟩
      | actionId text => exact ⟨id, rfl, rfl, rfl⟩
      | overlapPolicy policy => exact ⟨id, rfl, rfl, rfl⟩
    exact ⟨fun ht => hset.cron (hcron ht), hexprs.trans hset.cronExpressions,
      hargs.trans hset.args, htimeouts.trans hset.timeouts⟩

theorem assignments_cron {schedule : Temporal.Schedule} (h : temporalCron (some schedule) = none)
    (text : String) : .cron text ∉ Temporal.assignments schedule := by
  intro hm
  unfold Temporal.assignments at hm
  rcases List.mem_append.mp hm with hm | hm
  · rcases List.mem_append.mp hm with hm | hm
    · cases hspec : schedule.spec with
      | none => simp [hspec] at hm
      | some spec =>
        have hempty : spec.cronString = [] := by simpa [temporalCron, hspec] using h
        rw [hspec] at hm
        change Temporal.Assignment.cron text ∈ Temporal.specAssignments spec at hm
        unfold Temporal.specAssignments at hm
        rw [hempty] at hm
        simp only [List.isEmpty_nil, Bool.not_true, Bool.false_eq_true, if_false] at hm
        split at hm <;> simp at hm
    · cases ha : schedule.action.bind Temporal.ScheduleAction.startWorkflow with
      | none => simp [ha] at hm
      | some sw =>
        rw [ha] at hm
        change Temporal.Assignment.cron text ∈ Temporal.actionAssignments sw at hm
        unfold Temporal.actionAssignments at hm
        rcases List.mem_append.mp hm with hm | hm
        · simp at hm
        · split at hm <;> simp at hm
  · simp at hm

theorem updateTemporal_inStep (h : InStep crates serde l) (req : Temporal.UpdateScheduleRequest)
    (he : Encoded crates serde l (.updateTemporal req)) :
    InStep crates serde ((scheduleWriters crates serde spliced).step l (.updateTemporal req)).2 := by
  cases hany : l.world.db.schedules.any (named req.scheduleId (orDefault req.nameSpace)) with
  | false =>
    apply inStep_error h
    simp only [ScheduleWrite.run, Temporal.updateSchedule, Prog.run_bind, Prog.run_mapError,
      run_query, hany]
    exact ⟨_, rfl⟩
  | true =>
    obtain ⟨hnone, hplain⟩ := he hany
    cases hs : req.schedule with
    | none =>
      apply inStep_error h
      simp only [ScheduleWrite.run, Temporal.updateSchedule, Prog.run_bind, Prog.run_mapError,
        run_query, hany, hs]
      exact ⟨_, rfl⟩
    | some schedule =>
      have hq : (Temporal.assignments schedule).all (fun set => Temporal.plain set.text) = true := by
        simpa [plainUpdate, hs] using hplain
      have hrecast := applyAll_recast (assignments_cron (hs ▸ hnone))
      refine inStep_rewrite (f := Temporal.applyAll (Temporal.assignments schedule)) h ?_
        (applyAll_key _) ?_ ?_
      · simp only [ScheduleWrite.run, Temporal.updateSchedule, Prog.run_bind, Prog.run_mapError,
          run_query, hany, hs, required, Temporal.updateRow, hq]
        exact ⟨rfl, rfl⟩
      · intro r hr _
        exact (hrecast r).decodable (h.decodable r hr)
      · intro r _ _ ht
        simp only [ScheduleWrite.cron, hnone]
        exact ⟨(hrecast r).cron ht, by rw [loadedCron, loadedCron, (hrecast r).cronExpressions]⟩

theorem write_inStep (hc : Readers crates serde) (h : InStep crates serde l)
    (call : ScheduleWrite) (he : Encoded crates serde l call) :
    InStep crates serde ((scheduleWriters crates serde spliced).step l call).2 := by
  cases call with
  | create req => exact create_inStep hc h req
  | update req => exact update_inStep hc h req
  | delete req => exact delete_inStep h req
  | createTemporal req => exact createTemporal_inStep hc h req he
  | updateTemporal req => exact updateTemporal_inStep h req he
  | deleteTemporal req => exact deleteTemporal_inStep h req

/-- In every run whose Temporal requests encode their columns as they are read, every row is
decoded, the loader reads the cron expressions that were last given to it, and every listing
succeeds. -/
theorem run_schedules_decode {l₀ : Ledger} {ts : List (Transition Ledger ScheduleWrite
    (Outcome Status Unit))} (hc : Readers crates serde)
    (h0 : (scheduleWriters crates serde spliced).initial l₀)
    (hr : (scheduleWriters crates serde spliced).Run l₀ ts l)
    (he : ∀ τ ∈ ts, Encoded crates serde τ.before τ.input) :
    (∀ r ∈ l.world.db.schedules, (∃ s, rowToSchedule crates serde r = .ok s) ∧
      (r.specType = .cron → loadedCron crates r = some (l.given r.scheduleId))) ∧
    ∀ created req, ∃ infos,
      ((Server.listSchedules crates serde created req).run l.world).1 = .ok infos := by
  have hl : InStep crates serde l := by
    refine hr.keeps_when (P := InStep crates serde) (C := Encoded crates serde)
      (fun t i ht _ hi => write_inStep hc ht i hi) ?_ he
    have hnil : l₀.world.db.schedules = [] := h0
    refine ⟨?_, ?_, ?_⟩ <;> simp [hnil, Table.Keyed]
  refine ⟨fun r hr => ⟨?_, hl.cron r hr⟩, fun created req => ?_⟩
  · obtain ⟨s, hs, _⟩ := (hl.decodable r hr).read
    exact ⟨s, hs⟩
  · have hrows : ∀ r ∈ oldestFirst created (l.world.db.schedules.filter
        (fun r => r.nameSpace = orDefault req.nameSpace)),
        ∃ s, rowToSchedule crates serde r = .ok s ∧ True := by
      intro r hr
      rw [oldestFirst, List.mem_insertionSort] at hr
      obtain ⟨s, hs, _⟩ := (hl.decodable r (List.mem_filter.mp hr).1).read
      exact ⟨s, hs, trivial⟩
    obtain ⟨schedules, hschedules, _⟩ := mapM_ok hrows
    unfold Server.listSchedules Db.Schedules.listSchedules
    rw [Prog.run_bind, Prog.run_mapError, run_query, hschedules]
    exact ⟨_, rfl⟩

end

/-- The map that a text was made of, if its keys ascend as those of a `BTreeMap` do. -/
noncomputable def ascendingSerde : Serde :=
  open Classical in
  { readingSerde with
    mapFromStr := fun text => (Function.partialInv mapText text).filter (fun m => Ascending m) }

theorem ascending_readers : Readers readingCrates ascendingSerde where
  back := {
    strings := readingSerde_readsBack.strings
    map := by
      intro m hm
      change (Function.partialInv mapText (mapText m)).filter _ = some m
      rw [Function.partialInv_left mapText_injective, Option.filter_some]
      exact if_pos (@decide_eq_true _ (Classical.propDecidable _) hm)
    timeouts := readingSerde_readsBack.timeouts }
  ascending := by
    intro text m hm
    exact @of_decide_eq_true _ (Classical.propDecidable _) (Option.filter_eq_some_iff.mp hm).2
  noTimeouts := by
    have hempty : "\x7b\x7d" = emptyText := by
      rw [emptyText, Json.print]
      rfl
    change Option.isSome (if "\x7b\x7d" = emptyText then _ else _)
    rw [if_pos hempty]
    rfl

/-- Where a text that is spliced does not end its literal, nothing is ever spliced. -/
def unspliced : Temporal.Spliced := fun _ _ _ rows => (.ok (), rows)

/-- A schedule that starts a workflow at every full hour. -/
def hourly : ScheduleWrite :=
  .create ⟨"s", "default", some ⟨"cron", ["0 0 * * * *"], none⟩, some ⟨"w", [], "", "", none⟩, none⟩

/-- The same through the Temporal interface. -/
def hourlyTemporal : ScheduleWrite :=
  .createTemporal ⟨"", "s", some ⟨some ⟨["0 0 * * * *"], []⟩,
    some ⟨some ⟨"", some "w", none, none⟩⟩, none⟩⟩

/-- The writers with crates that read back what they wrote. -/
noncomputable def readingWriters : Machine Ledger ScheduleWrite (Outcome Status Unit) :=
  scheduleWriters readingCrates ascendingSerde unspliced

def unwritten : Ledger := ⟨.empty, fun _ => []⟩

theorem hourly_decodes :
    let l := readingWriters.ending unwritten [hourly]
    (∀ r ∈ l.world.db.schedules, (∃ s, rowToSchedule readingCrates ascendingSerde r = .ok s) ∧
      (r.specType = .cron → loadedCron readingCrates r = some (l.given r.scheduleId))) ∧
    ∀ created req, ∃ infos,
      ((Server.listSchedules readingCrates ascendingSerde created req).run l.world).1 =
        .ok infos := by
  have hrun : readingWriters.Run unwritten (readingWriters.replay unwritten [hourly])
      (readingWriters.ending unwritten [hourly]) :=
    Machine.run_replay _ _ ⟨trivial, trivial⟩
  have hinitial : readingWriters.initial unwritten := rfl
  refine run_schedules_decode ascending_readers hinitial hrun ?_
  intro τ hτ
  obtain rfl := List.mem_singleton.mp hτ
  trivial

/-- Cron strings joined by commas are no JSON text. -/
theorem joined_unread : readingCrates.stringsFromStr "0 0 * * * *" = none := by
  apply dif_neg
  rintro ⟨l, hl⟩
  obtain ⟨t, ht⟩ := (Json.array (l.map .string)).print_first
  unfold stringsText at hl
  rw [ht] at hl
  have hlist := congrArg String.toList hl
  rw [String.toList_ofList] at hlist
  have hfirst : '[' = '0' := (List.cons.inj hlist).1
  exact absurd hfirst (by decide)

/-- No reader makes anything of the row that a Temporal request with a cron string writes. -/
theorem hourlyTemporal_unread :
    ¬ ∀ crates serde spliced l₀ ts l, Readers crates serde →
      (scheduleWriters crates serde spliced).initial l₀ →
      (scheduleWriters crates serde spliced).Run l₀ ts l →
      (∀ r ∈ l.world.db.schedules, ∃ s, rowToSchedule crates serde r = .ok s) ∨
      ∀ r ∈ l.world.db.schedules, r.specType = .cron →
        loadedCron crates r = some (l.given r.scheduleId) := by
  intro h
  have hrun : readingWriters.Run unwritten (readingWriters.replay unwritten [hourlyTemporal])
      (readingWriters.ending unwritten [hourlyTemporal]) :=
    Machine.run_replay _ _ ⟨trivial, trivial⟩
  let row : ScheduleRow :=
    ⟨"s", "default", .cron, some "0 0 * * * *", some 0, .skip, "w", "", "", some "", "\x7b\x7d"⟩
  have hrow : row ∈ (readingWriters.ending unwritten [hourlyTemporal]).world.db.schedules :=
    List.mem_singleton.mpr rfl
  have hinitial : readingWriters.initial unwritten := rfl
  rcases h _ _ _ _ _ _ ascending_readers hinitial hrun with h | h
  · obtain ⟨s, hs⟩ := h row hrow
    have hspec : rowSpec readingCrates row = .error (.other "Failed to parse cron_expressions") := by
      simp only [rowSpec, row, joined_unread]
      rfl
    unfold rowToSchedule at hs
    rw [hspec] at hs
    cases hs
  · have hloaded := h row hrow rfl
    rw [loadedCron, show row.cronExpressions = some "0 0 * * * *" from rfl, Option.bind_some,
      joined_unread] at hloaded
    cases hloaded

end Khronos.Proofs
