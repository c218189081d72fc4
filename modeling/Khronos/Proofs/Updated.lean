import Khronos.Lib.Literals
import Khronos.Proofs.Refused

namespace Khronos.Proofs
open Time Lib Lib.Literals Db.Schedules Server Server.Temporal

/-- The pieces that the text of an assignment is put together of. -/
def pieces : Assignment → List Piece
  | .cron text => [.code "spec_type = ".toList, .text "cron".toList,
      .code ", cron_expressions = ".toList, .text text.toList]
  | .interval secs => [.code "spec_type = ".toList, .text "interval".toList,
      .code (", interval_seconds = ".toList ++ (toString secs.toInt).toList)]
  | .workflowName text => [.code "action_workflow_name = ".toList, .text text.toList]
  | .taskQueue text => [.code "action_task_queue = ".toList, .text text.toList]
  | .actionId text => [.code "action_id = ".toList, .text text.toList]
  | .overlapPolicy policy =>
    [.code "overlap_policy = ".toList, .text (Temporal.policyText policy).toList]

/-- What follows the assignment of the time. -/
def setPieces : List Assignment → List Piece
  | [] => [.code " WHERE schedule_id = ?1 AND namespace = ?2".toList]
  | set :: sets => .code ", ".toList :: (pieces set ++ setPieces sets)

def updatePieces (sets : List Assignment) : List Piece :=
  [.code "UPDATE schedules SET updated_at = datetime(".toList, .text "now".toList,
    .code ")".toList] ++ setPieces sets

/-- The text of an assignment of a text. -/
theorem toList_spliced (start text : String) :
    (start ++ text ++ "'").toList = start.toList ++ (text.toList ++ [quote]) := by
  rw [String.toList_append, String.toList_append, List.append_assoc]
  rfl

theorem render_assigned {start column : String} (h : start.toList = column.toList ++ [quote])
    (text : String) : (start ++ text ++ "'").toList =
      render [.code column.toList, .text text.toList] := by
  rw [toList_spliced, h]
  simp [render, Piece.render]

theorem render_pieces (set : Assignment) : set.sql.toList = render (pieces set) := by
  cases set with
  | cron text =>
    have h : "spec_type = 'cron', cron_expressions = '".toList = "spec_type = ".toList ++
        quote :: ("cron".toList ++ quote :: (", cron_expressions = ".toList ++ [quote])) := by
      decide +kernel
    refine (toList_spliced "spec_type = 'cron', cron_expressions = '" text).trans ?_
    rw [h]
    simp only [pieces, render, Piece.render, List.flatMap_cons, List.flatMap_nil, List.cons_append,
      List.append_assoc, List.nil_append, List.append_nil]
  | interval secs =>
    have h : "spec_type = 'interval', interval_seconds = ".toList = "spec_type = ".toList ++
        quote :: ("interval".toList ++ quote :: ", interval_seconds = ".toList) := by
      decide +kernel
    change ("spec_type = 'interval', interval_seconds = " ++ toString secs.toInt).toList = _
    rw [String.toList_append, h]
    simp only [pieces, render, Piece.render, List.flatMap_cons, List.flatMap_nil, List.cons_append,
      List.append_assoc, List.nil_append, List.append_nil]
  | workflowName text => exact render_assigned (by decide +kernel) text
  | taskQueue text => exact render_assigned (by decide +kernel) text
  | actionId text => exact render_assigned (by decide +kernel) text
  | overlapPolicy policy => exact render_assigned (by decide +kernel) (Temporal.policyText policy)

theorem render_setPieces (sets : List Assignment) :
    render (setPieces sets) = sets.flatMap (fun set => ", ".toList ++ set.sql.toList) ++
      " WHERE schedule_id = ?1 AND namespace = ?2".toList := by
  induction sets with
  | nil => exact List.append_nil _
  | cons set sets ih =>
    change ", ".toList ++ render (pieces set ++ setPieces sets) = _
    rw [render_append, ← render_pieces, ih, List.flatMap_cons, List.append_assoc, List.append_assoc]

theorem intercalate_flatMap (sep first : List Char) (rest : List (List Char)) :
    sep.intercalate (first :: rest) = first ++ rest.flatMap (sep ++ ·) := by
  induction rest generalizing first with
  | nil => simp
  | cons second rest ih =>
    rw [List.intercalate_cons_cons, ih, List.flatMap_cons, List.append_assoc, List.append_assoc]

/-- The text of the statement is that of its pieces. -/
theorem render_update (sets : List Assignment) :
    (updateSql sets).toList = render (updatePieces sets) := by
  have hstart : "UPDATE schedules SET ".toList ++ "updated_at = datetime('now')".toList =
      "UPDATE schedules SET updated_at = datetime(".toList ++
        quote :: ("now".toList ++ quote :: ")".toList) := by
    decide +kernel
  change ("UPDATE schedules SET " ++ ", ".intercalate ("updated_at = datetime('now')" ::
    sets.map Assignment.sql) ++ " WHERE schedule_id = ?1 AND namespace = ?2").toList = _
  rw [String.toList_append, String.toList_append, String.toList_intercalate, List.map_cons,
    intercalate_flatMap, ← List.append_assoc, hstart, updatePieces, render_append,
    render_setPieces, List.map_map, List.flatMap_map]
  simp only [render, Piece.render, List.flatMap_cons, List.flatMap_nil, List.cons_append,
    List.append_assoc, List.nil_append, List.append_nil, Function.comp_apply]

theorem allCalm_number (n : Int) (next : Option Char) : AllCalm (toString n).toList next := by
  have hnat : ∀ m : Nat, (toString m).toList.all quiet = true := by
    intro m
    rw [Nat.toString_eq_repr, Nat.toList_repr, List.all_eq_true]
    exact fun c hc => digit_quiet (Nat.isDigit_of_mem_toDigits (by omega) le_rfl hc)
  cases n with
  | ofNat m => exact allCalm_of_quiet (hnat m) next
  | negSucc m =>
    have hsign : (toString (Int.negSucc m)).toList = '-' :: (toString (m + 1)).toList := by
      change ("-" ++ toString (m + 1)).toList = _
      rw [String.toList_append]
      rfl
    rw [hsign]
    refine ⟨⟨by decide, fun _ => ?_⟩, allCalm_of_quiet (hnat (m + 1)) next⟩
    -- A digit follows the sign.
    cases hd : (toString (m + 1)).toList with
    | nil =>
      rw [Nat.toString_eq_repr, Nat.toList_repr] at hd
      exact absurd hd Nat.toDigits_ne_nil
    | cons d ds =>
      have hquiet := List.all_eq_true.mp (hnat (m + 1)) d (hd ▸ List.mem_cons_self)
      simp only [quiet, Bool.and_eq_true, bne_iff_ne] at hquiet
      simpa using hquiet.2

/-- An assignment is code and texts, whatever follows it. -/
theorem laid_pieces (set : Assignment) {rest : List Piece}
    (hrest : (render rest).head? ≠ some quote) (hl : Laid rest) : Laid (pieces set ++ rest) := by
  have hquiet : ∀ s ∈ ["spec_type = ", ", cron_expressions = ", ", interval_seconds = ",
      "action_workflow_name = ", "action_task_queue = ", "action_id = ", "overlap_policy = "],
      s.toList.all quiet = true := by decide +kernel
  have hcomma : ∀ s ∈ [", cron_expressions = ", ", interval_seconds = "],
      s.toList.head? = some ',' := by decide +kernel
  cases set with
  | cron text =>
    exact ⟨allCalm_of_quiet (hquiet _ (by simp)) _,
      render_code_head (hcomma _ (by simp)) (by decide) _,
      allCalm_of_quiet (hquiet _ (by simp)) _, hrest, hl⟩
  | interval secs =>
    have hhead : (", interval_seconds = ".toList ++ (toString secs.toInt).toList).head? =
        some ',' := by
      rw [List.head?_append, hcomma _ (by simp)]
      rfl
    exact ⟨allCalm_of_quiet (hquiet _ (by simp)) _, render_code_head hhead (by decide) _,
      .append (allCalm_of_quiet (hquiet _ (by simp)) _) (allCalm_number _ _), hl⟩
  | workflowName text => exact ⟨allCalm_of_quiet (hquiet _ (by simp)) _, hrest, hl⟩
  | taskQueue text => exact ⟨allCalm_of_quiet (hquiet _ (by simp)) _, hrest, hl⟩
  | actionId text => exact ⟨allCalm_of_quiet (hquiet _ (by simp)) _, hrest, hl⟩
  | overlapPolicy policy => exact ⟨allCalm_of_quiet (hquiet _ (by simp)) _, hrest, hl⟩

theorem setPieces_laid (sets : List Assignment) :
    Laid (setPieces sets) ∧ (render (setPieces sets)).head? ≠ some quote := by
  have hquiet : ∀ s ∈ [", ", " WHERE schedule_id = ?1 AND namespace = ?2"],
      s.toList.all quiet = true ∧ s.toList.head? ≠ none ∧ s.toList.head? ≠ some quote := by
    decide +kernel
  have hhead : ∀ s ∈ [", ", " WHERE schedule_id = ?1 AND namespace = ?2"], ∀ ps,
      (render (.code s.toList :: ps)).head? ≠ some quote := by
    intro s hs ps
    obtain ⟨-, hsome, hne⟩ := hquiet s hs
    obtain ⟨c, hc⟩ := Option.ne_none_iff_exists'.mp hsome
    exact render_code_head hc (fun he => hne (hc.trans (congrArg some he))) ps
  induction sets with
  | nil => exact ⟨⟨allCalm_of_quiet (hquiet _ (by simp)).1 _, trivial⟩, hhead _ (by simp) []⟩
  | cons set sets ih =>
    exact ⟨⟨allCalm_of_quiet (hquiet _ (by simp)).1 _, laid_pieces set ih.2 ih.1⟩,
      hhead _ (by simp) _⟩

theorem updatePieces_laid (sets : List Assignment) : Laid (updatePieces sets) := by
  have hquiet : ∀ s ∈ ["UPDATE schedules SET updated_at = datetime(", ")"],
      s.toList.all quiet = true := by decide +kernel
  have hclose : ")".toList.head? = some ')' := by decide +kernel
  exact ⟨allCalm_of_quiet (hquiet _ (by simp)) _, render_code_head hclose (by decide) _,
    allCalm_of_quiet (hquiet _ (by simp)) _, (setPieces_laid sets).1⟩

theorem plain_iff (text : String) : plain text = true ↔ Plain text.toList := by
  simp only [plain, Plain, List.all_eq_true, Bool.and_eq_true, decide_eq_true_eq]
  constructor
  · exact fun h => ⟨fun hq => (h _ hq).1 rfl, fun hn => (h _ hn).2 rfl⟩
  · rintro ⟨hq, hn⟩ c hc
    refine ⟨?_, ?_⟩
    · rintro rfl
      exact hq hc
    · rintro rfl
      exact hn hc

/-- Of the texts in an assignment only the request's own may not be plain. -/
theorem pieces_plain (set : Assignment) :
    (∀ s, .text s ∈ pieces set → Plain s) ↔ plain set.text = true := by
  have hown : ∀ text ∈ ["", "cron", "interval"], plain text = true := by decide +kernel
  cases set with
  | cron text =>
    have hcron := (plain_iff "cron").mp (hown _ (by simp))
    simp only [pieces, List.mem_cons, reduceCtorEq, Piece.text.injEq, List.not_mem_nil, or_false,
      false_or, forall_eq_or_imp, forall_eq, Assignment.text, plain_iff]
    exact and_iff_right hcron
  | interval secs =>
    have hinterval := (plain_iff "interval").mp (hown _ (by simp))
    simp only [pieces, List.mem_cons, reduceCtorEq, Piece.text.injEq, List.not_mem_nil, or_false,
      false_or, forall_eq, Assignment.text]
    exact iff_of_true hinterval (hown _ (by simp))
  | overlapPolicy policy =>
    have hpolicy := (plain_iff (Temporal.policyText policy)).mp (by cases policy <;> decide +kernel)
    simp only [pieces, List.mem_cons, reduceCtorEq, Piece.text.injEq, List.not_mem_nil, or_false,
      false_or, forall_eq, Assignment.text]
    exact iff_of_true hpolicy (hown _ (by simp))
  | workflowName text => simp [pieces, Assignment.text, plain_iff]
  | taskQueue text => simp [pieces, Assignment.text, plain_iff]
  | actionId text => simp [pieces, Assignment.text, plain_iff]

theorem setPieces_plain (sets : List Assignment) :
    (∀ s, .text s ∈ setPieces sets → Plain s) ↔ sets.all (fun set => plain set.text) = true := by
  induction sets with
  | nil => simp [setPieces]
  | cons set sets ih =>
    simp only [setPieces, List.mem_cons, reduceCtorEq, false_or, List.mem_append, or_imp,
      forall_and, List.all_cons, Bool.and_eq_true, pieces_plain, ih]

/-- SQLite reads the statement as it is meant exactly when no text of the request has a quote or a
NUL in it. -/
theorem reads_iff (sets : List Assignment) :
    lex (updateSql sets).toList = some (meant (updatePieces sets)) ↔
      sets.all (fun set => plain set.text) = true := by
  have hnow : Plain "now".toList := (plain_iff "now").mp (by decide +kernel)
  rw [render_update, lex_render_iff (updatePieces_laid sets), ← setPieces_plain]
  simp only [updatePieces, List.mem_append, List.mem_cons, reduceCtorEq, Piece.text.injEq,
    List.not_mem_nil, or_false, false_or, or_imp, forall_and, forall_eq]
  exact and_iff_right hnow

/-- The row with the columns set that a request names, each to what the request says. What is
absent from a request names nothing. -/
def asked (schedule : Schedule) (r : ScheduleRow) : ScheduleRow :=
  let spec := schedule.spec.getD ⟨[], []⟩
  let sw := (schedule.action.bind ScheduleAction.startWorkflow).getD ⟨"", none, none, none⟩
  { r with
    specType := if spec.cronString ≠ [] then .cron
      else if spec.interval ≠ [] then .interval else r.specType
    cronExpressions := if spec.cronString ≠ [] then some (joined spec.cronString)
      else r.cronExpressions
    intervalSeconds := if spec.cronString = [] ∧ spec.interval ≠ [] then
      some (firstSeconds spec.interval) else r.intervalSeconds
    actionWorkflowName := sw.workflowType.getD r.actionWorkflowName
    actionTaskQueue := sw.taskQueue.getD r.actionTaskQueue
    actionId := if sw.workflowId ≠ "" then some sw.workflowId else r.actionId
    overlapPolicy := (schedule.overlapPolicy.map storedPolicy).getD r.overlapPolicy }

theorem applyAll_append (sets more : List Assignment) (r : ScheduleRow) :
    applyAll (sets ++ more) r = applyAll more (applyAll sets r) :=
  List.foldl_append

theorem applyAll_spec (spec : ScheduleSpec) (r : ScheduleRow) :
    applyAll (specAssignments spec) r = { r with
      specType := if spec.cronString ≠ [] then .cron
        else if spec.interval ≠ [] then .interval else r.specType
      cronExpressions := if spec.cronString ≠ [] then some (joined spec.cronString)
        else r.cronExpressions
      intervalSeconds := if spec.cronString = [] ∧ spec.interval ≠ [] then
        some (firstSeconds spec.interval) else r.intervalSeconds } := by
  obtain ⟨cron, interval⟩ := spec
  cases cron with
  | cons expr exprs => rfl
  | nil =>
    cases interval with
    | cons first rest => rfl
    | nil => rfl

theorem applyAll_action (sw : NewWorkflowExecutionInfo) (r : ScheduleRow) :
    applyAll (actionAssignments sw) r = { r with
      actionWorkflowName := sw.workflowType.getD r.actionWorkflowName
      actionTaskQueue := sw.taskQueue.getD r.actionTaskQueue
      actionId := if sw.workflowId ≠ "" then some sw.workflowId else r.actionId } := by
  obtain ⟨id, type, queue, input⟩ := sw
  have hempty : id.isEmpty = true ↔ id = "" := String.isEmpty_iff
  unfold actionAssignments
  by_cases hid : id = ""
  · rw [if_pos (hempty.mpr hid), if_neg (not_not_intro hid)]
    cases type <;> cases queue <;> rfl
  · rw [if_neg (fun h => hid (hempty.mp h)), if_pos hid]
    cases type <;> cases queue <;> rfl

/-- The assignments set exactly the columns that the request names. -/
theorem applyAll_asked (schedule : Schedule) (r : ScheduleRow) :
    applyAll (assignments schedule) r = asked schedule r := by
  have hspec : ∀ spec : Option ScheduleSpec,
      (spec.map specAssignments).getD [] = specAssignments (spec.getD ⟨[], []⟩) := by
    intro spec
    cases spec <;> rfl
  have haction : ∀ sw : Option NewWorkflowExecutionInfo, (sw.map actionAssignments).getD [] =
      actionAssignments (sw.getD ⟨"", none, none, none⟩) := by
    intro sw
    cases sw <;> rfl
  unfold assignments asked
  rw [applyAll_append, applyAll_append, hspec, haction, applyAll_spec, applyAll_action]
  cases schedule.overlapPolicy <;> rfl

/-- The request is carried out: the columns of its schedule that it names hold what it says, and
nothing else changes. -/
def CarriedOut (spliced : Spliced) (req : Temporal.UpdateScheduleRequest) (schedule : Schedule)
    (w : World) : Prop :=
  (Temporal.updateSchedule spliced req).run w = (.ok (), { w with db := { w.db with
    schedules := Table.update (named req.scheduleId (orDefault req.nameSpace)) (asked schedule)
      w.db.schedules } })

section
variable {req : Temporal.UpdateScheduleRequest} {schedule : Schedule} {w : World}
  (hs : req.schedule = some schedule)
  (hfound : w.db.schedules.any (named req.scheduleId (orDefault req.nameSpace)) = true)
include hs hfound

theorem carriedOut_of_plain (spliced : Spliced) (hp : plainUpdate req = true) :
    CarriedOut spliced req schedule w := by
  have hall : (assignments schedule).all (fun set => plain set.text) = true := by
    simpa [plainUpdate, hs] using hp
  have hasked : applyAll (assignments schedule) = asked schedule :=
    funext (applyAll_asked schedule)
  unfold CarriedOut
  simp only [Temporal.updateSchedule, Prog.run_bind, Prog.run_mapError, run_query, hfound, hs,
    required, updateRow, hall, ← hasked]
  rfl

/-- A statement in which SQLite finds a literal that does not end is refused. -/
def RefusesUnread (spliced : Spliced) : Prop :=
  ∀ sql scheduleId nameSpace rows, lex sql.toList = none →
    ∃ e, spliced sql scheduleId nameSpace rows = (.error e, rows)

theorem unread_not_carriedOut {spliced : Spliced} (hrefuses : RefusesUnread spliced)
    (hunread : lex (updateSql (assignments schedule)).toList = none) :
    ¬ CarriedOut spliced req schedule w := by
  intro h
  have hq : (assignments schedule).all (fun set => plain set.text) = false := by
    by_contra hne
    have hread := (reads_iff _).mpr (by simpa using hne)
    cases hunread.symm.trans hread
  have hrun := run_updateTemporal_spliced spliced req hs hfound hq
  obtain ⟨e, he⟩ := hrefuses _ req.scheduleId (orDefault req.nameSpace) w.db.schedules hunread
  rw [he] at hrun
  cases (congrArg Prod.fst hrun).symm.trans (congrArg Prod.fst h)

/-- SQLite reads the statement of an update as it is meant exactly when no text of the request has
a quote or a NUL in it; the request is then carried out. Where a literal does not end, it is not. -/
theorem update_carriedOut (spliced : Spliced) :
    (lex (updateSql (assignments schedule)).toList =
        some (meant (updatePieces (assignments schedule))) ↔ plainUpdate req = true) ∧
    (plainUpdate req = true → CarriedOut spliced req schedule w) ∧
    (RefusesUnread spliced → lex (updateSql (assignments schedule)).toList = none →
      ¬ CarriedOut spliced req schedule w) := by
  refine ⟨?_, carriedOut_of_plain hs hfound spliced, unread_not_carriedOut hs hfound⟩
  rw [reads_iff, plainUpdate, hs, Option.all_some]

end

/-- A new name with comment marks and placeholders in it, for the schedule that is stored. -/
def commented : Schedule :=
  ⟨none, some ⟨some ⟨"", some "a -- ?1 /* ?2", some "q; \"x\"", none⟩⟩, none⟩

/-- A new name with an apostrophe. -/
def apostrophe : Schedule := ⟨none, some ⟨some ⟨"", some "it's", none, none⟩⟩, none⟩

/-- What SQLite makes of a statement, as far as it does not read it at all. -/
def refusing : Spliced := fun sql _ _ rows =>
  match lex sql.toList with
  | none => (.error (.other "unrecognized token"), rows)
  | some _ => (.ok (), rows)

theorem refusing_refuses : RefusesUnread refusing := by
  intro sql scheduleId nameSpace rows h
  refine ⟨.other "unrecognized token", ?_⟩
  rw [refusing, h]

def oneStored : World := { World.empty with db := { Db.empty with schedules := [storedSchedule] } }

theorem commented_carriedOut :
    CarriedOut refusing ⟨"", "s", some commented⟩ commented oneStored := by
  have hfound : oneStored.db.schedules.any (named "s" (orDefault "")) = true := rfl
  have hplain : plainUpdate ⟨"", "s", some commented⟩ = true := by decide +kernel
  exact (update_carriedOut rfl hfound refusing).2.1 hplain

/-- The text ends the literal, and the quote after it begins another that does not end. -/
theorem apostrophe_unread : lex (updateSql (assignments apostrophe)).toList = none := by
  have hname : "it's".toList = "it".toList ++ quote :: "s".toList := by decide +kernel
  have hsets : assignments apostrophe = [.workflowName "it's"] := rfl
  have hsql : (updateSql (assignments apostrophe)).toList =
      "UPDATE schedules SET updated_at = datetime(".toList ++ quote :: ("now".toList ++ quote ::
        ((")".toList ++ (", ".toList ++ "action_workflow_name = ".toList)) ++ quote ::
          ("it".toList ++ quote :: ("s".toList ++ quote ::
            " WHERE schedule_id = ?1 AND namespace = ?2".toList)))) := by
    rw [render_update, hsets]
    simp only [updatePieces, setPieces, pieces, render, Piece.render, hname, List.flatMap_cons,
      List.flatMap_nil, List.cons_append, List.append_assoc, List.nil_append, List.append_nil]
  have hopen : lex (quote :: " WHERE schedule_id = ?1 AND namespace = ?2".toList) = none := by
    rw [lex_cons, if_neg (by decide), nextToken, if_pos rfl, closeQuote_open (by decide +kernel)]
    rfl
  rw [hsql, lex_code (allCalm_of_quiet (by decide +kernel) _),
    lex_text ((plain_iff "now").mp (by decide +kernel)) (by decide +kernel),
    lex_code (allCalm_of_quiet (by decide +kernel) _),
    lex_text ((plain_iff "it").mp (by decide +kernel)) (by decide +kernel),
    lex_code (allCalm_of_quiet (by decide +kernel) _), hopen]
  rfl

theorem apostrophe_not_carriedOut :
    ¬ ∀ (spliced : Spliced) (req : Temporal.UpdateScheduleRequest) (schedule : Schedule)
      (w : World), RefusesUnread spliced → req.schedule = some schedule →
        w.db.schedules.any (named req.scheduleId (orDefault req.nameSpace)) = true →
        CarriedOut spliced req schedule w := by
  intro h
  have hfound : oneStored.db.schedules.any (named "s" (orDefault "")) = true := rfl
  have hcarried := h refusing ⟨"", "s", some apostrophe⟩ apostrophe oneStored refusing_refuses rfl
    hfound
  exact unread_not_carriedOut rfl hfound refusing_refuses apostrophe_unread hcarried

end Khronos.Proofs
