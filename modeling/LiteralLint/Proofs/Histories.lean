import LiteralLint.Proofs.Output

/-! # Histories of Reports

  A report is written in steps. At any of them the sink may run out of room,
  and between any two of them it may be put right again or made to fail in
  another way. Whatever the order of these events, what each step does follows
  from the room that the sink has at that moment.

  The key ideas:

  - A line may be written in pieces, each of which is only tried if the one
    before it succeeds. Where the sink runs out of room, it has taken what it
    would have taken of the whole line (`Sink.writeAll_eq`).
  - Two numbers are kept along a history (`count_step`, `flushes_step`): the
    count of the report goes up with each line that was taken whole, and the
    sink is flushed by nothing but the end of the report.
-/

namespace LiteralLint

/-! ### Writing in Pieces -/

namespace Sink

variable {sink : Sink} {bytes : Bytes}

/-- How many of a number of bytes the sink takes. -/
def takes (sink : Sink) (length : Nat) : Nat :=
  match sink.room? with
  | none => length
  | some room => min room length

/-- Write pieces in order, until one of them fails. -/
def writeAll (sink : Sink) : List Bytes → Except Fault Unit × Sink
  | [] => (.ok (), sink)
  | piece :: pieces =>
    match sink.write piece with
    | (.ok (), sink) => sink.writeAll pieces
    | (.error fault, sink) => (.error fault, sink)

/-- **Pieces are written as a whole.** Where they are cut cannot be seen,
    neither in the outcome nor in the sink. -/
theorem writeAll_eq (sink : Sink) (pieces : List Bytes) :
    sink.writeAll pieces = sink.write pieces.flatten := by
  induction pieces generalizing sink with
  | nil => exact (write_nil sink).symm
  | cons piece pieces ih =>
    -- The first piece is written, and the others are written to what it leaves.
    rw [List.flatten_cons, write_append, writeAll]
    rcases sink.write piece with ⟨fault | _, sink'⟩
    · rfl
    · exact ih sink'

/-- `Takes sink bytes sink'`: the sink has taken of the bytes what it has room
    for, and has that much less room. -/
structure Takes (sink : Sink) (bytes : Bytes) (sink' : Sink) : Prop where
  written : sink'.written = sink.written ++ bytes.take (sink.takes bytes.length)
  room? : sink'.room? = sink.room?.map fun room => room - sink.takes bytes.length
  overflow : sink'.overflow = sink.overflow
  flushFault? : sink'.flushFault? = sink.flushFault?
  flushes : sink'.flushes = sink.flushes

/-- A write uses up as much room as it has bytes. -/
theorem room?_after (sink : Sink) (bytes : Bytes) :
    (sink.after bytes).room? = sink.room?.map fun room => room - bytes.length := by
  obtain ⟨room?, overflow, flushFault?, written, flushes⟩ := sink
  cases room? <;> rfl

/-- This is so after every write. -/
theorem takes_after (sink : Sink) (bytes : Bytes) : sink.Takes bytes (sink.after bytes) := by
  have htake : bytes.take (sink.takes bytes.length)
      = bytes.take (sink.room?.getD bytes.length) := by
    unfold takes
    cases sink.room? with
    | none => rfl
    | some room =>
      show bytes.take (min room bytes.length) = bytes.take room
      rw [← List.take_take, List.take_length]
  refine ⟨?_, ?_, ?_, flushFault?_after sink bytes, flushes_after sink bytes⟩
  · rw [written_after, htake]
  · rw [room?_after]
    unfold takes
    cases sink.room? with
    | none => rfl
    | some room =>
      show some (room - bytes.length) = some (room - min room bytes.length)
      congr 1
      omega
  · unfold after write
    cases sink.room? <;> rfl

/-- A write succeeds if and only if the bytes fit. -/
theorem write_eq_ok_iff : (sink.write bytes).1 = .ok () ↔ sink.Fits bytes.length := by
  constructor
  · intro hok
    by_contra hfits
    rw [write_of_not_fits hfits] at hok
    cases hok
  · intro hfits
    rw [write_of_fits hfits]

end Sink

/-! ### Actions -/

/-- What is done with a report before its end. -/
inductive Report.Action
  /-- A finding is added. -/
  | add (finding : Finding)
  /-- The count is asked for. -/
  | count
  /-- The sink is given other room and other faults. -/
  | adjust (settings : Sink)

/-- The answer to an action. -/
inductive Report.Reply
  | added (outcome : Except Fault Unit)
  | counted (count : Nat)
  | adjusted
  deriving DecidableEq

/-- Whether an answer says that a finding was added. -/
def Report.Reply.succeeds : Report.Reply → Bool
  | .added (.ok ()) => true
  | .added (.error _) | .counted _ | .adjusted => false

namespace Report

/-- Do one thing with a report. -/
def act (report : Report) : Action → Reply × Report
  | .add finding =>
    let (outcome, report) := report.add finding
    (.added outcome, report)
  | .count => (.counted report.count, report)
  | .adjust settings => (.adjusted, { report with sink := report.sink.adjust settings })

/-- The answers to actions, in order. -/
def replies (report : Report) : List Action → List Reply
  | [] => []
  | action :: actions => (report.act action).1 :: (report.act action).2.replies actions

/-- The report after actions. -/
def after (report : Report) : List Action → Report
  | [] => report
  | action :: actions => (report.act action).2.after actions

/-- What comes last is done with the report that the rest leaves. -/
theorem after_concat (report : Report) (actions : List Action) (action : Action) :
    report.after (actions ++ [action]) = ((report.after actions).act action).2 := by
  induction actions generalizing report with
  | nil => rfl
  | cons first actions ih => exact ih (report.act first).2

theorem replies_concat (report : Report) (actions : List Action) (action : Action) :
    report.replies (actions ++ [action])
      = report.replies actions ++ [((report.after actions).act action).1] := by
  induction actions generalizing report with
  | nil => rfl
  | cons first actions ih =>
    rw [List.cons_append, replies, replies, ih]
    rfl

/-! ### Effects -/

/-- The bytes of the line of a finding. -/
def line (finding : Finding) : Bytes := Utf8.encode (finding.render ++ "\n")

/-- `Writes sink bytes outcome sink'`: the sink has taken what it has room for,
    and the write has succeeded if this is all. How the bytes are cut into
    pieces does not matter. -/
structure Writes (sink : Sink) (bytes : Bytes) (outcome : Except Fault Unit) (sink' : Sink) :
    Prop where
  takes : sink.Takes bytes sink'
  ok_iff : outcome = .ok () ↔ sink.Fits bytes.length
  fault : ∀ fault, outcome = .error fault → fault = sink.overflow
  pieces : ∀ pieces : List Bytes, pieces.flatten = bytes →
    sink.writeAll pieces = (outcome, sink')

/-- What an action does to a report. -/
inductive Does (report : Report) : Action → Reply × Report → Prop
  /-- The line of a finding is written, and counts if it was taken whole. -/
  | added {finding : Finding} {outcome : Except Fault Unit} {sink : Sink} {count : Nat}
      (hwrites : Writes report.sink (line finding) outcome sink)
      (hsuccess : outcome = .ok () → count = report.count + 1)
      (hfailure : outcome ≠ .ok () → count = report.count) :
      Does report (.add finding) (.added outcome, ⟨sink, count⟩)
  /-- To ask for the count changes nothing. -/
  | counted : Does report .count (.counted report.count, report)
  /-- New settings change neither the count nor what was taken. -/
  | adjusted {settings sink : Sink} (hwritten : sink.written = report.sink.written)
      (hflushes : sink.flushes = report.sink.flushes) (hroom : sink.room? = settings.room?)
      (hoverflow : sink.overflow = settings.overflow)
      (hflushFault : sink.flushFault? = settings.flushFault?) :
      Does report (.adjust settings) (.adjusted, ⟨sink, report.count⟩)

/-- What the end of a report does: it writes a summary, unless nothing was
    counted, and flushes if that was taken whole. -/
structure Ends (report : Report) (summary : Bytes) (answer : Except Fault Nat) (sink : Sink) :
    Prop where
  /-- The sink but for its flushes is that of a write. -/
  writes : ∃ outcome, Writes report.sink summary outcome { sink with flushes := report.sink.flushes }
  flushed : report.sink.Fits summary.length → sink.flushes = report.sink.flushes + 1
  unflushed : ¬ report.sink.Fits summary.length → sink.flushes = report.sink.flushes
  ok_iff : ∀ count, answer = .ok count ↔
    report.sink.Fits summary.length ∧ report.sink.flushFault? = none ∧ count = report.count

variable {report : Report}

/-! ### What an Action Does -/

theorem writes_after (sink : Sink) (bytes : Bytes) :
    Writes sink bytes (sink.write bytes).1 (sink.after bytes) where
  takes := sink.takes_after bytes
  ok_iff := Sink.write_eq_ok_iff
  fault := by
    intro fault hfault
    by_cases hfits : sink.Fits bytes.length
    · rw [Sink.write_of_fits hfits] at hfault
      cases hfault
    · rw [Sink.write_of_not_fits hfits] at hfault
      exact (Except.error.inj hfault).symm
  pieces := by
    intro pieces hpieces
    rw [Sink.writeAll_eq, hpieces]
    rfl

/-- An action does what it should. -/
theorem does_act (report : Report) (action : Action) : report.Does action (report.act action) := by
  cases action with
  | add finding =>
    have hwrites := writes_after report.sink (line finding)
    have hadd := add_eq report finding
    show report.Does _ (.added (report.add finding).1, (report.add finding).2)
    -- Whether the line is taken whole decides about the count.
    rcases hwrite : report.sink.write (line finding) with ⟨fault | _, sink⟩
    · rw [← line, hwrite] at hadd
      rw [Sink.after, hwrite] at hwrites
      rw [hadd]
      refine .added hwrites ?_ (fun _ => rfl)
      intro hok
      cases hok
    · rw [← line, hwrite] at hadd
      rw [Sink.after, hwrite] at hwrites
      rw [hadd]
      exact .added hwrites (fun _ => rfl) (fun hne => absurd rfl hne)
  | count => exact .counted
  | adjust settings => exact .adjusted rfl rfl rfl rfl rfl

/-- An action raises the count by one if it adds a finding, and leaves it as it
    is otherwise. -/
theorem count_step (report : Report) (action : Action) :
    (report.act action).2.count
      = report.count + if (report.act action).1.succeeds then 1 else 0 := by
  have hdoes := report.does_act action
  generalize report.act action = result at hdoes ⊢
  cases hdoes with
  | @added finding outcome sink count hwrites hsuccess hfailure =>
    cases outcome with
    | ok _ => exact hsuccess rfl
    | error fault => exact hfailure nofun
  | counted => rfl
  | adjusted => rfl

/-- No action flushes the sink. -/
theorem flushes_step (report : Report) (action : Action) :
    (report.act action).2.sink.flushes = report.sink.flushes := by
  have hdoes := report.does_act action
  generalize report.act action = result at hdoes ⊢
  cases hdoes with
  | added hwrites => exact hwrites.takes.flushes
  | counted => rfl
  | adjusted _ hflushes => exact hflushes

/-! ### Histories -/

/-- Along a history, the count goes up by the number of findings added. -/
theorem count_after (report : Report) (actions : List Action) :
    (report.after actions).count
      = report.count + (report.replies actions).countP Reply.succeeds := by
  induction actions generalizing report with
  | nil => rfl
  | cons action actions ih =>
    unfold after replies
    rw [ih, count_step, List.countP_cons]
    omega

/-- Along a history, the sink is not flushed. -/
theorem flushes_after (report : Report) (actions : List Action) :
    (report.after actions).sink.flushes = report.sink.flushes := by
  induction actions generalizing report with
  | nil => rfl
  | cons action actions ih =>
    unfold after
    rw [ih, flushes_step]

/-! ### The End of a Report -/

/-- A summary that fits is flushed once, and the flush decides. -/
theorem finish_of_fits (h : report.sink.Fits (summaryBytes report.count).length) :
    report.finish
      = (match report.sink.flushFault? with
          | none => .ok report.count
          | some fault => .error fault,
        { report.sink.after (summaryBytes report.count) with
          flushes := report.sink.flushes + 1 }) := by
  simp only [finish_eq, Sink.write_of_fits h, Sink.flush, Sink.flushFault?_after,
    Sink.flushes_after]
  cases report.sink.flushFault? <;> rfl

/-- A summary that does not fit is not flushed. -/
theorem finish_of_not_fits (h : ¬ report.sink.Fits (summaryBytes report.count).length) :
    report.finish
      = (.error report.sink.overflow, report.sink.after (summaryBytes report.count)) := by
  simp only [finish_eq, Sink.write_of_not_fits h]

/-- A report ends as it should. -/
theorem ends_finish (report : Report) :
    report.Ends (summaryBytes report.count) report.finish.1 report.finish.2 := by
  -- But for the flush, the sink is that of the write.
  have hsink : { report.finish.2 with flushes := report.sink.flushes }
      = report.sink.after (summaryBytes report.count) := by
    by_cases hfits : report.sink.Fits (summaryBytes report.count).length
    · rw [finish_of_fits hfits, ← Sink.flushes_after report.sink (summaryBytes report.count)]
    · rw [finish_of_not_fits hfits, ← Sink.flushes_after report.sink (summaryBytes report.count)]
  refine ⟨⟨_, hsink ▸ writes_after report.sink (summaryBytes report.count)⟩, ?_, ?_, ?_⟩
  · intro hfits
    rw [finish_of_fits hfits]
  · intro hfits
    rw [finish_of_not_fits hfits, Sink.flushes_after]
  · intro count
    by_cases hfits : report.sink.Fits (summaryBytes report.count).length
    · rw [finish_of_fits hfits]
      cases hfault : report.sink.flushFault? with
      | none => simp [hfits, eq_comm]
      | some fault => simp
    · rw [finish_of_not_fits hfits]
      simp [hfits]

/-- The summary as it is worded. -/
theorem summaryBytes_eq (count : Nat) :
    summaryBytes count
      = if count = 0 then []
        else Utf8.encode (toString count ++ " string interpolation issues found\n") := by
  have hworded : summary count ++ "\n"
      = toString count ++ " string interpolation issues found\n" := by
    rw [summary, String.append_assoc]
    rfl
  rw [summaryBytes, hworded]

/-- **A report over any history.** Whatever was done with it, its count is the
    number of findings that were added, and its sink was not flushed. What is
    done next has the effect that the room of the sink allows at that moment,
    and so has the end of the report. -/
theorem history_sound (sink : Sink) (actions : List Action) :
    let report := (Report.on sink).after actions
    let replies := (Report.on sink).replies actions
    let count := replies.countP Reply.succeeds
    report.count = count
      ∧ report.sink.flushes = sink.flushes
      ∧ (∀ action, report.Does action (report.act action)
          ∧ (Report.on sink).after (actions ++ [action]) = (report.act action).2
          ∧ (Report.on sink).replies (actions ++ [action]) = replies ++ [(report.act action).1])
      ∧ report.Ends
          (if count = 0 then []
            else Utf8.encode (toString count ++ " string interpolation issues found\n"))
          report.finish.1 report.finish.2 := by
  intro report replies count
  have hcount : report.count = count := by
    show ((Report.on sink).after actions).count = _
    rw [count_after]
    show 0 + count = count
    omega
  refine ⟨hcount, flushes_after _ actions, ?_, ?_⟩
  · intro action
    exact ⟨report.does_act action, after_concat _ actions action, replies_concat _ actions action⟩
  · have hends := report.ends_finish
    rwa [summaryBytes_eq, hcount] at hends

/-- A line is cut, the sink is put right, and a whole line follows. Only that
    one counts, and the summary that ends the report is cut in its turn. -/
example :
    let finding : Finding := ⟨.missingMark, "$x", .bare, 1⟩
    let history : List Action :=
      [.adjust { room? := some 12 }, .add finding, .count, .adjust {}, .add finding,
        .adjust { room? := some 4 }]
    let report := (Report.on {}).after history
    (Report.on {}).replies history
        = [.adjusted, .added (.error .closed), .counted 0, .adjusted, .added (.ok ()), .adjusted]
      ∧ report.finish.1 = .error .closed
      ∧ Utf8.decode report.finish.2.written.toList
        = "Possible misPossible missing s or f on string \"$x\", line 1\n1 st"
      ∧ report.finish.2.flushes = 0 := by
  decide +kernel

end Report

end LiteralLint
