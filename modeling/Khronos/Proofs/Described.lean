import Khronos.Proofs.Updated

namespace Khronos.Proofs
open Time Lib Db.Schedules Server Server.Temporal

/-- The JSON text of a list of strings has brackets, and quotes around each of them. -/
def BracketsLists (crates : Crates) : Prop :=
  ∀ text l, crates.stringsFromStr text = some l →
    (l.map fun s => s.length + 3).sum + 1 ≤ text.length

/-- Joined texts have one comma less than there are texts. -/
theorem joined_length (first : String) (rest : List String) :
    (joined (first :: rest)).length + 1 = ((first :: rest).map fun s => s.length + 1).sum := by
  unfold joined
  induction rest generalizing first with
  | nil => simp
  | cons second rest ih =>
    rw [String.intercalate_cons_of_ne_nil (by simp), String.length_append, String.length_append,
      List.map_cons, List.sum_cons, ← ih second]
    have hcomma : ",".length = 1 := rfl
    omega

/-- Expressions joined with commas are never the text of their list. -/
theorem joined_not_read {crates : Crates} (hb : BracketsLists crates) {l : List String}
    (h : l ≠ []) : (crates.stringsFromStr (joined l)).getD [] ≠ l := by
  have hquotes : ∀ m : List String,
      (m.map fun s => s.length + 1).sum ≤ (m.map fun s => s.length + 3).sum := by
    intro m
    induction m with
    | nil => exact le_rfl
    | cons s m ih =>
      simp only [List.map_cons, List.sum_cons]
      omega
  cases l with
  | nil => exact absurd rfl h
  | cons first rest =>
    cases hread : crates.stringsFromStr (joined (first :: rest)) with
    | none => simp
    | some l' =>
      rintro (rfl : l' = first :: rest)
      have hlong := hb _ _ hread
      have hshort := joined_length first rest
      have hle := hquotes (first :: rest)
      omega

/-- A description gives the spec of a request back: its cron strings and, where it has none, the
seconds of its first interval. -/
def TellsSpec (spec : ScheduleSpec) (d : Schedule) : Prop :=
  ∃ told, d.spec = some told ∧ told.cronString = spec.cronString ∧
    (spec.cronString = [] → told.interval = [some (firstSeconds spec.interval)])

/-- A description gives the names back that were set. -/
structure TellsAction (type queue id : Option String) (d : Schedule) : Prop where
  type : ∀ text ∈ type, (d.action.bind ScheduleAction.startWorkflow).bind
    NewWorkflowExecutionInfo.workflowType = some text
  queue : ∀ text ∈ queue, (d.action.bind ScheduleAction.startWorkflow).bind
    NewWorkflowExecutionInfo.taskQueue = some text
  id : ∀ text ∈ id, (d.action.bind ScheduleAction.startWorkflow).map
    NewWorkflowExecutionInfo.workflowId = some text

/-- A row holds a spec as both requests write it. -/
structure HoldsSpec (spec : ScheduleSpec) (r : ScheduleRow) : Prop where
  cron : spec.cronString ≠ [] →
    r.specType = .cron ∧ r.cronExpressions = some (joined spec.cronString)
  interval : spec.cronString = [] →
    r.specType = .interval ∧ r.intervalSeconds = some (firstSeconds spec.interval)

theorem tellsSpec_iff {crates : Crates} (hb : BracketsLists crates) {spec : ScheduleSpec}
    {r : ScheduleRow} (h : HoldsSpec spec r) :
    TellsSpec spec (describedSchedule crates r) ↔
      spec.cronString = [] ∧ 0 < firstSeconds spec.interval := by
  by_cases hc : spec.cronString = []
  · obtain ⟨htype, hsecs⟩ := h.interval hc
    have htold : (describedSchedule crates r).spec = some ⟨[],
        if 0 < firstSeconds spec.interval then [some (firstSeconds spec.interval)] else []⟩ := by
      simp only [describedSchedule, htype, hsecs, Option.getD_some]
    constructor
    · rintro ⟨told, he, -, hsame⟩
      refine ⟨hc, ?_⟩
      rw [← Option.some.inj (htold.symm.trans he)] at hsame
      by_contra hle
      have hnone := hsame hc
      rw [if_neg hle] at hnone
      cases hnone
    · rintro ⟨-, hpos⟩
      exact ⟨_, htold, hc.symm, fun _ => if_pos hpos⟩
  · obtain ⟨htype, hexprs⟩ := h.cron hc
    have htold : (describedSchedule crates r).spec =
        some ⟨(crates.stringsFromStr (joined spec.cronString)).getD [], []⟩ := by
      simp only [describedSchedule, htype, hexprs, Option.bind_some]
    refine iff_of_false ?_ (fun h => hc h.1)
    rintro ⟨told, he, hsame, -⟩
    rw [← Option.some.inj (htold.symm.trans he)] at hsame
    exact joined_not_read hb hc hsame

/-- What a request to create asks to be told again; a name that is absent is empty. -/
def Tells (spec : ScheduleSpec) (sw : NewWorkflowExecutionInfo) (d : Schedule) : Prop :=
  TellsSpec spec d ∧
    TellsAction (some (sw.workflowType.getD "")) (some (sw.taskQueue.getD ""))
      (some sw.workflowId) d

/-- What a request to update asks to be told again, which is what it sets. -/
def TellsSet (schedule : Schedule) (d : Schedule) : Prop :=
  (∀ spec ∈ schedule.spec, spec.cronString ≠ [] ∨ spec.interval ≠ [] → TellsSpec spec d) ∧
  ∀ sw ∈ schedule.action.bind ScheduleAction.startWorkflow, TellsAction sw.workflowType sw.taskQueue
    (if sw.workflowId = "" then none else some sw.workflowId) d

theorem run_describe (crates : Crates) {scheduleId nameSpace : String} {r : ScheduleRow}
    (h : w.db.schedules.filter (named scheduleId (orDefault nameSpace)) = [r]) :
    (describeSchedule crates ⟨nameSpace, scheduleId⟩).run w =
      (.ok (describedSchedule crates r), w) := by
  have hcount : w.db.schedules.countP (named scheduleId (orDefault nameSpace)) = 1 := by
    rw [List.countP_eq_length_filter, h]
    rfl
  simp only [describeSchedule, Prog.run_bind, Prog.run_mapError, run_query, hcount,
    Outcome.ofExcept, Outcome.mapError, Prog.resume_ok, if_neg one_ne_zero, h, queryRow,
    Prog.run_pure]

theorem run_createTemporal_ok {crates : Crates} {req : Temporal.CreateScheduleRequest}
    (h : (Temporal.createSchedule crates req).run w = (.ok (), w')) :
    ∃ row, requestedRow crates req = .ok row ∧
      (¬ ∃ r ∈ w.db.schedules, r.scheduleId = row.scheduleId) ∧
      w'.db.schedules = w.db.schedules ++ [row] := by
  unfold Temporal.createSchedule at h
  cases hreq : requestedRow crates req with
  | error status =>
    rw [hreq] at h
    cases h
  | ok row =>
    rw [hreq] at h
    simp only [insertRow, Prog.run_mapError, run_execute] at h
    by_cases hex : ∃ r ∈ w.db.schedules, r.scheduleId = row.scheduleId
    · rw [if_pos hex] at h
      cases h
    · rw [if_neg hex] at h
      cases h
      exact ⟨row, rfl, hex, rfl⟩

/-- The columns of a row that has been created hold the spec of the request. -/
theorem specColumns_holds {spec : ScheduleSpec} {columns : SpecColumns}
    (h : Temporal.specColumns spec = .ok columns) {r : ScheduleRow}
    (htype : r.specType = columns.specType) (hexprs : r.cronExpressions = columns.cronExpressions)
    (hsecs : r.intervalSeconds = columns.intervalSeconds) : HoldsSpec spec r := by
  obtain ⟨cron, interval⟩ := spec
  cases cron with
  | cons expr exprs =>
    cases h
    exact ⟨fun _ => ⟨htype, hexprs⟩, nofun⟩
  | nil =>
    cases interval with
    | cons first rest =>
      cases h
      exact ⟨fun hne => absurd rfl hne, fun _ => ⟨htype, hsecs⟩⟩
    | nil => cases h

/-- So do those of a row that has been updated, if the request has a spec. -/
theorem asked_holds {schedule : Schedule} {spec : ScheduleSpec} (hs : schedule.spec = some spec)
    (hset : spec.cronString ≠ [] ∨ spec.interval ≠ []) (r : ScheduleRow) :
    HoldsSpec spec (asked schedule r) := by
  constructor
  · intro hc
    simp [asked, hs, hc]
  · intro hc
    have hi := hset.resolve_left (not_not_intro hc)
    simp [asked, hs, hc, hi]

theorem asked_tells {schedule : Schedule} {sw : NewWorkflowExecutionInfo}
    (h : schedule.action.bind ScheduleAction.startWorkflow = some sw) (crates : Crates)
    (r : ScheduleRow) : TellsAction sw.workflowType sw.taskQueue
      (if sw.workflowId = "" then none else some sw.workflowId)
      (describedSchedule crates (asked schedule r)) := by
  constructor
  · intro text ht
    simp_all [describedSchedule, asked]
  · intro text ht
    simp_all [describedSchedule, asked]
  · intro text ht
    split at ht
    · cases ht
    · simp_all [describedSchedule, asked]

/-- A request to update sets nothing but intervals, if it sets a spec at all. -/
def SetsInterval (schedule : Schedule) : Prop :=
  ∀ spec ∈ schedule.spec, spec.cronString = [] ∧
    (spec.interval ≠ [] → 0 < firstSeconds spec.interval)

theorem tellsSet_iff {crates : Crates} (hb : BracketsLists crates) (schedule : Schedule)
    (r : ScheduleRow) : TellsSet schedule (describedSchedule crates (asked schedule r)) ↔
      SetsInterval schedule := by
  have haction : ∀ sw ∈ schedule.action.bind ScheduleAction.startWorkflow,
      TellsAction sw.workflowType sw.taskQueue
        (if sw.workflowId = "" then none else some sw.workflowId)
        (describedSchedule crates (asked schedule r)) := fun sw h => asked_tells h crates r
  constructor
  · rintro ⟨hspec, -⟩ spec hs
    by_cases hset : spec.cronString ≠ [] ∨ spec.interval ≠ []
    · have htold := (tellsSpec_iff hb (asked_holds hs hset r)).mp (hspec spec hs hset)
      exact ⟨htold.1, fun _ => htold.2⟩
    · simp only [not_or, not_not] at hset
      exact ⟨hset.1, fun hi => absurd hset.2 hi⟩
  · intro h
    refine ⟨fun spec hs hset => ?_, haction⟩
    obtain ⟨hc, hi⟩ := h spec hs
    exact (tellsSpec_iff hb (asked_holds hs hset r)).mpr
      ⟨hc, hi (hset.resolve_left (not_not_intro hc))⟩

/-- An accepted request to create a schedule leaves one row of its name, with what it says. -/
theorem created_row {crates : Crates} {req : Temporal.CreateScheduleRequest}
    (hrun : (Temporal.createSchedule crates req).run w = (.ok (), w')) :
    ∃ schedule spec sw row, req.schedule = some schedule ∧ schedule.spec = some spec ∧
      schedule.action.bind ScheduleAction.startWorkflow = some sw ∧ HoldsSpec spec row ∧
      TellsAction (some (sw.workflowType.getD "")) (some (sw.taskQueue.getD ""))
        (some sw.workflowId) (describedSchedule crates row) ∧
      w'.db.schedules.filter (named req.scheduleId (orDefault req.nameSpace)) = [row] := by
  obtain ⟨row, hreq, hnew, hrows⟩ := run_createTemporal_ok hrun
  obtain ⟨schedule, spec, action, columns, sw, hs, hspec, ha, hcolumns, hsw, hrow⟩ :=
    requestedRow_ok hreq
  have hid : row.scheduleId = req.scheduleId := by rw [hrow]
  have hns : row.nameSpace = orDefault req.nameSpace := by rw [hrow]
  refine ⟨schedule, spec, sw, row, hs, hspec, ?_, ?_, ?_, ?_⟩
  · rw [ha]
    exact hsw
  · refine specColumns_holds hcolumns ?_ ?_ ?_ <;> rw [hrow]
  · constructor <;> (intro text ht; cases ht; rw [hrow]; rfl)
  · -- The id is new, so no other row has it.
    have hnamed : named req.scheduleId (orDefault req.nameSpace) row = true := by
      simp [named, hid, hns]
    rw [hrows, List.filter_append, List.filter_cons_of_pos hnamed, List.filter_nil,
      List.filter_eq_nil_iff.mpr, List.nil_append]
    intro r hr hn
    simp only [named, Bool.and_eq_true, decide_eq_true_eq] at hn
    exact hnew ⟨r, hr, hn.1.trans hid.symm⟩

/-- An accepted update of it within its quotes leaves the row with what it sets. -/
theorem updated_row {spliced : Spliced} {req : Temporal.UpdateScheduleRequest}
    {schedule : Schedule} (hs : req.schedule = some schedule) (hp : plainUpdate req = true)
    (hrow : w.db.schedules.filter (named req.scheduleId (orDefault req.nameSpace)) = [row])
    (hrun : (Temporal.updateSchedule spliced req).run w = (.ok (), w')) :
    w'.db.schedules.filter (named req.scheduleId (orDefault req.nameSpace)) =
      [asked schedule row] := by
  have hmem : row ∈ w.db.schedules.filter (named req.scheduleId (orDefault req.nameSpace)) := by
    rw [hrow]
    exact List.mem_cons_self
  obtain ⟨hr, hnamed⟩ := List.mem_filter.mp hmem
  have hcarried := carriedOut_of_plain hs (List.any_eq_true.mpr ⟨row, hr, hnamed⟩) spliced hp
  obtain rfl := congrArg Prod.snd (hcarried.symm.trans hrun)
  have hkeeps : ∀ r, named req.scheduleId (orDefault req.nameSpace) (asked schedule r) =
      named req.scheduleId (orDefault req.nameSpace) r := fun _ => rfl
  change (Table.update _ _ _).filter _ = _
  rw [Table.filter_update_within hkeeps, hrow]
  simp [Table.update, hnamed]

/-- After an accepted request to create a schedule its description gives the request's spec and
names back exactly when the request has no cron strings and its interval is positive; and after an
accepted update of it whose texts stay within their quotes, what the update sets, exactly when
that is no list of cron strings either. -/
theorem described_iff {crates : Crates} (hb : BracketsLists crates)
    {req : Temporal.CreateScheduleRequest}
    (hrun : (Temporal.createSchedule crates req).run w = (.ok (), w')) :
    ∃ schedule spec sw d, req.schedule = some schedule ∧ schedule.spec = some spec ∧
      schedule.action.bind ScheduleAction.startWorkflow = some sw ∧
      (describeSchedule crates ⟨req.nameSpace, req.scheduleId⟩).run w' = (.ok d, w') ∧
      (Tells spec sw d ↔ spec.cronString = [] ∧ 0 < firstSeconds spec.interval) ∧
      ∀ (spliced : Spliced) (update : Temporal.UpdateScheduleRequest) (changed : Schedule)
        (w'' : World), update.scheduleId = req.scheduleId →
        orDefault update.nameSpace = orDefault req.nameSpace → update.schedule = some changed →
        plainUpdate update = true →
        (Temporal.updateSchedule spliced update).run w' = (.ok (), w'') →
        ∃ d', (describeSchedule crates ⟨req.nameSpace, req.scheduleId⟩).run w'' = (.ok d', w'') ∧
          (TellsSet changed d' ↔ SetsInterval changed) := by
  obtain ⟨schedule, spec, sw, row, hs, hspec, hsw, hholds, haction, hrow⟩ := created_row hrun
  refine ⟨schedule, spec, sw, _, hs, hspec, hsw, run_describe crates hrow, ?_, ?_⟩
  · unfold Tells
    rw [tellsSpec_iff hb hholds]
    exact and_iff_left haction
  · intro spliced update changed w'' huid huns hchanged hplain hupdate
    rw [← huid, ← huns] at hrow
    have hrow' := updated_row hchanged hplain hrow hupdate
    rw [huid, huns] at hrow'
    exact ⟨_, run_describe crates hrow', tellsSet_iff hb changed row⟩

theorem readingCrates_brackets : BracketsLists readingCrates := by
  intro text l h
  have htext : stringsText l = text :=
    (stringsText_injective.isPartialInv l text).mp h
  have hitems : (Json.array (l.map .string)).print =
      Printing.bracketed '[' ']' (l.map Printing.quoted) := by
    rw [Json.print, List.map_map]
    congr 1
    refine List.map_congr_left fun s _ => ?_
    rw [Function.comp_apply, Json.print]
  have hlen := Printing.bracketed_length '[' ']' (l.map Printing.quoted)
  have hquoted : ∀ m : List String, (m.map fun s => s.length + 3).sum ≤
      ((m.map Printing.quoted).map fun item => item.length + 1).sum := by
    intro m
    induction m with
    | nil => exact le_rfl
    | cons s m ih =>
      have hs := Printing.quoted_length s
      simp only [List.map_cons, List.sum_cons] at ih ⊢
      omega
  have hl := hquoted l
  rw [← htext, stringsText, String.length_ofList, hitems]
  omega

/-- A schedule of the workflow `w` every minute. -/
def everyMinute : Temporal.CreateScheduleRequest :=
  ⟨"", "s", some ⟨some ⟨[], [some 60]⟩, some ⟨some ⟨"", some "w", none, none⟩⟩, none⟩⟩

def everyHour : Temporal.CreateScheduleRequest :=
  ⟨"", "s", some ⟨some ⟨["0 0 * * * *"], []⟩, some ⟨some ⟨"", some "w", none, none⟩⟩, none⟩⟩

theorem every_minute_described : ∃ d,
    (describeSchedule readingCrates ⟨"", "s"⟩).run
      ((Temporal.createSchedule readingCrates everyMinute).after .empty) =
        (.ok d, (Temporal.createSchedule readingCrates everyMinute).after .empty) ∧
      Tells ⟨[], [some 60]⟩ ⟨"", some "w", none, none⟩ d := by
  have hrun : (Temporal.createSchedule readingCrates everyMinute).run .empty =
      (.ok (), (Temporal.createSchedule readingCrates everyMinute).after .empty) := rfl
  obtain ⟨schedule, spec, sw, d, hs, hspec, hsw, hd, htells, -⟩ :=
    described_iff readingCrates_brackets hrun
  cases hs
  cases hspec
  cases hsw
  exact ⟨d, hd, htells.mpr ⟨rfl, by decide⟩⟩

theorem hourly_not_described :
    ¬ ∀ (crates : Crates) (req : Temporal.CreateScheduleRequest) (schedule : Schedule)
      (spec : ScheduleSpec) (sw : NewWorkflowExecutionInfo) (w w' : World), BracketsLists crates →
        req.schedule = some schedule → schedule.spec = some spec →
        schedule.action.bind ScheduleAction.startWorkflow = some sw →
        spec.cronString ≠ [] ∨ 0 < firstSeconds spec.interval →
        (Temporal.createSchedule crates req).run w = (.ok (), w') →
        ∃ d, (describeSchedule crates ⟨req.nameSpace, req.scheduleId⟩).run w' = (.ok d, w') ∧
          Tells spec sw d := by
  intro h
  have hbrackets : BracketsLists plainCrates := by
    intro text l hread
    cases hread
  have hrun : (Temporal.createSchedule plainCrates everyHour).run .empty =
      (.ok (), (Temporal.createSchedule plainCrates everyHour).after .empty) := rfl
  obtain ⟨d, hd, ⟨told, hspec, hcron, -⟩, -⟩ :=
    h plainCrates everyHour _ _ _ .empty _ hbrackets rfl rfl rfl (.inl (by decide)) hrun
  cases hd
  cases hspec
  cases hcron

end Khronos.Proofs
