import LiteralLint.Proofs.LineNumbers

/-! # Reports on Sinks That Fail

  A report is written line by line to a sink that may run out of room at any
  byte. What the sink then holds, and what the lint answers, is what it would
  be if the whole report were written at once.

  The key ideas:

  - Two writes, the second only if the first succeeds, are one write
    (`write_append`). How output is cut into writes can therefore not be seen,
    neither in what the sink takes nor in the fault.
  - A lint is one write of `Report.bytes` and, if that succeeds, one flush
    (`lint_eq`).
-/

namespace LiteralLint

/-! ### Writing -/

namespace Sink

variable {sink : Sink} {xs ys : Bytes}

/-- Whether a sink has room for a number of bytes. -/
def Fits (sink : Sink) (length : Nat) : Prop := ∀ room, sink.room? = some room → length ≤ room

/-- The sink once the bytes are written, as far as it takes them. -/
def after (sink : Sink) (bytes : Bytes) : Sink := (sink.write bytes).2

/-- Bytes that fit are written. -/
theorem write_of_fits (h : sink.Fits xs.length) : sink.write xs = (.ok (), sink.after xs) := by
  rw [after, write]
  cases hroom : sink.room? with
  | none => rfl
  | some room => simp [h room hroom]

/-- Bytes that do not fit are cut, and the write fails for the reason that the
    sink gives. -/
theorem write_of_not_fits (h : ¬ sink.Fits xs.length) :
    sink.write xs = (.error sink.overflow, sink.after xs) := by
  rw [after, write]
  cases hroom : sink.room? with
  | none => exact absurd (fun room hsome => by simp [hroom] at hsome) h
  | some room =>
    have hless : ¬ xs.length ≤ room := by
      intro hle
      apply h
      intro room' hsome
      rw [hroom] at hsome
      obtain rfl := Option.some.inj hsome
      exact hle
    simp [hless]

/-- A sink takes what it has room for, from the beginning. -/
theorem written_after (sink : Sink) (bytes : Bytes) :
    (sink.after bytes).written
      = sink.written ++ bytes.take (sink.room?.getD bytes.length) := by
  rw [after, write]
  cases sink.room? <;> simp

/-- Writing changes nothing but the room and what was taken. -/
@[simp] theorem flushes_after (sink : Sink) (bytes : Bytes) :
    (sink.after bytes).flushes = sink.flushes := by
  rw [after, write]
  cases sink.room? <;> rfl

@[simp] theorem flushFault?_after (sink : Sink) (bytes : Bytes) :
    (sink.after bytes).flushFault? = sink.flushFault? := by
  rw [after, write]
  cases sink.room? <;> rfl

/-- To write nothing is to do nothing. -/
theorem write_nil (sink : Sink) : sink.write [] = (.ok (), sink) := by
  obtain ⟨room?, overflow, flushFault?, written, flushes⟩ := sink
  cases room? <;> simp [write]

/-- **Two writes are one write.** The second one is only tried if the first one
    succeeds. -/
theorem write_append (sink : Sink) (xs ys : Bytes) :
    sink.write (xs ++ ys)
      = match sink.write xs with
        | (.ok (), sink) => sink.write ys
        | (.error fault, sink) => (.error fault, sink) := by
  obtain ⟨room?, overflow, flushFault?, written, flushes⟩ := sink
  have happend : ∀ ys : Bytes, written ++ (xs ++ ys) = written ++ xs ++ ys := by
    intro ys
    apply Array.ext'
    simp
  cases room? with
  | none => simp [write, happend]
  | some room =>
    by_cases hfirst : xs.length ≤ room
    · -- The first part is taken whole, and leaves that much less room.
      have hsecond : xs.length + ys.length ≤ room ↔ ys.length ≤ room - xs.length := by omega
      have htake : (xs ++ ys).take room = xs ++ ys.take (room - xs.length) := by
        rw [List.take_append, List.take_of_length_le hfirst]
      simp [write, hfirst, hsecond, htake, happend, Nat.sub_sub, List.take_of_length_le hfirst]
    · -- The first part is cut already, so nothing of the second one is taken.
      have hboth : ¬ xs.length + ys.length ≤ room := by omega
      have htake : (xs ++ ys).take room = xs.take room := by
        rw [List.take_append_of_le_length (by omega)]
      have hroom : room - (xs.length + ys.length) = room - xs.length := by omega
      simp [write, hfirst, hboth, htake, hroom]

end Sink

/-! ### Reports -/

namespace Report

/-- The bytes of the lines of findings. -/
def lines (findings : List Finding) : Bytes :=
  findings.flatMap fun finding => Utf8.encode (finding.render ++ "\n")

/-- The bytes of a whole report: a line for each finding and a summary, or
    nothing at all if there are no findings. -/
def bytes (findings : List Finding) : Bytes :=
  if findings = [] then []
  else lines findings ++ Utf8.encode (summary findings.length ++ "\n")

/-- The bytes that the summary of a report adds. -/
def summaryBytes (count : Nat) : Bytes :=
  if count = 0 then [] else Utf8.encode (summary count ++ "\n")

theorem bytes_eq (findings : List Finding) :
    bytes findings = lines findings ++ summaryBytes findings.length := by
  cases findings with
  | nil => rfl
  | cons finding findings => simp [bytes, summaryBytes]

variable {report : Report}

/-- A finding is added by writing its line. -/
theorem add_eq (report : Report) (finding : Finding) :
    report.add finding
      = match report.sink.write (Utf8.encode (finding.render ++ "\n")) with
        | (.ok (), sink) => (.ok (), ⟨sink, report.count + 1⟩)
        | (.error fault, sink) => (.error fault, ⟨sink, report.count⟩) := by
  unfold add writeLine
  rcases report.sink.write (Utf8.encode (finding.render ++ "\n")) with ⟨_ | _, sink⟩ <;> rfl

/-- Findings whose lines fit are all added, and all are counted. -/
theorem addAll_of_fits {findings : List Finding}
    (h : (report.sink.write (lines findings)).1 = .ok ()) :
    report.addAll findings
      = (.ok (), ⟨report.sink.after (lines findings), report.count + findings.length⟩) := by
  induction findings generalizing report with
  | nil =>
    show (_, report) = (_, Report.mk (report.sink.write []).2 report.count)
    rw [Sink.write_nil]
  | cons finding findings ih =>
    have hlines : lines (finding :: findings)
        = Utf8.encode (finding.render ++ "\n") ++ lines findings := List.flatMap_cons
    rw [hlines, Sink.write_append] at h
    rw [addAll, add_eq, Sink.after, hlines, Sink.write_append]
    -- The first line fits, and the others fit after it.
    rcases hfirst : report.sink.write (Utf8.encode (finding.render ++ "\n")) with ⟨fault | _, sink⟩
    · rw [hfirst] at h
      cases h
    · rw [hfirst] at h
      have hothers := @ih ⟨sink, report.count + 1⟩ h
      simp only [hothers, List.length_cons, Sink.after]
      congr 2
      omega

/-- Findings whose lines do not all fit are written until the sink is full. -/
theorem addAll_of_error {findings : List Finding} {fault : Fault}
    (h : (report.sink.write (lines findings)).1 = .error fault) :
    ∃ count, report.addAll findings
      = (.error fault, ⟨report.sink.after (lines findings), count⟩) := by
  induction findings generalizing report with
  | nil =>
    rw [show lines [] = [] from rfl, Sink.write_nil] at h
    cases h
  | cons finding findings ih =>
    have hlines : lines (finding :: findings)
        = Utf8.encode (finding.render ++ "\n") ++ lines findings := List.flatMap_cons
    rw [hlines, Sink.write_append] at h
    rw [addAll, add_eq, Sink.after, hlines, Sink.write_append]
    -- The sink is full within the first line, or it is within a later one.
    rcases hfirst : report.sink.write (Utf8.encode (finding.render ++ "\n")) with ⟨fault' | _, sink⟩
    · rw [hfirst] at h
      obtain rfl := Except.error.inj h
      exact ⟨report.count, rfl⟩
    · rw [hfirst] at h
      exact @ih ⟨sink, report.count + 1⟩ h

/-- A report ends with one write of its summary and, if that succeeds, one
    flush. -/
theorem finish_eq (report : Report) :
    report.finish
      = match report.sink.write (summaryBytes report.count) with
        | (.error fault, sink) => (.error fault, sink)
        | (.ok (), sink) =>
          match sink.flush with
          | (.error fault, sink) => (.error fault, sink)
          | (.ok (), sink) => (.ok report.count, sink) := by
  by_cases hcount : report.count = 0
  · rcases hflush : report.sink.flush with ⟨fault | _, flushed⟩ <;>
      simp only [finish, summarize, summaryBytes, hcount, if_true, Sink.write_nil, hflush]
  · rcases hwrite : report.sink.write (Utf8.encode (summary report.count ++ "\n"))
      with ⟨fault | _, sink⟩
    · simp only [finish, summarize, summaryBytes, hcount, if_false, writeLine, hwrite]
    · rcases hflush : sink.flush with ⟨fault | _, flushed⟩ <;>
        simp only [finish, summarize, summaryBytes, hcount, if_false, writeLine, hwrite, hflush]

end Report

/-! ### Linting -/

namespace Sink

/-- Write the bytes and flush, for the answer `count`. A write that fails is
    not followed by a flush. -/
def commit (sink : Sink) (bytes : Bytes) (count : Nat) : Except Failure Nat × Sink :=
  match sink.write bytes with
  | (.error fault, sink) => (.error (.unwritable fault), sink)
  | (.ok (), sink) =>
    match sink.flush with
    | (.error fault, sink) => (.error (.unwritable fault), sink)
    | (.ok (), sink) => (.ok count, sink)

/-- Bytes that fit are flushed once, and the flush decides. -/
theorem commit_of_fits {sink : Sink} {bytes : Bytes} (h : sink.Fits bytes.length) (count : Nat) :
    sink.commit bytes count
      = (match sink.flushFault? with
          | none => .ok count
          | some fault => .error (.unwritable fault),
        { sink.after bytes with flushes := sink.flushes + 1 }) := by
  simp only [commit, write_of_fits h, flush, flushFault?_after, flushes_after]
  cases sink.flushFault? <;> rfl

/-- Bytes that do not fit are not flushed. -/
theorem commit_of_not_fits {sink : Sink} {bytes : Bytes} (h : ¬ sink.Fits bytes.length)
    (count : Nat) :
    sink.commit bytes count = (.error (.unwritable sink.overflow), sink.after bytes) := by
  simp only [commit, write_of_not_fits h]

end Sink

/-- **A report is one write and one flush.** It is written as a whole, as far as
    it fits, and flushed if it does. -/
theorem Report.conclude_eq (findings : List Finding) (sink : Sink) :
    conclude (.ok findings) sink = sink.commit (bytes findings) findings.length := by
  simp only [conclude]
  rw [Sink.commit, bytes_eq, Sink.write_append]
  rcases hlines : sink.write (lines findings) with ⟨fault | _, sink'⟩
  · -- The lines of the findings do not fit.
    obtain ⟨count, hadd⟩ := @addAll_of_error (.on sink) findings fault (congrArg Prod.fst hlines)
    have hafter : sink.after (lines findings) = sink' := congrArg Prod.snd hlines
    rw [hadd]
    simp only [on, hafter]
  · have hadd := @addAll_of_fits (.on sink) findings (congrArg Prod.fst hlines)
    have hafter : sink.after (lines findings) = sink' := congrArg Prod.snd hlines
    rw [hadd]
    simp only [on, hafter, Nat.zero_add, finish_eq]
    -- What is left is the summary, which fits or does not, and the flush.
    rcases sink'.write (summaryBytes findings.length) with ⟨fault | _, sink''⟩
    · rfl
    · rcases hflush : sink''.flush with ⟨fault | _, flushed⟩ <;> simp only [hflush]

namespace Source

/-- A lint with a log is its report, and the events of its check. -/
theorem lintWith_eq {σ : Type} (emit : σ → Event → σ) (log : σ) (text : String) (sink : Sink) :
    let source := ofText text
    source.lintWith emit log sink
      = (source.lint sink,
          (source.events ++ [Event.finished source.size source.literals.length
            source.findings.length]).foldl emit log) := by
  intro source
  rw [lint, lintWith, lintWith, checkWith_eq, checkWith_eq]

/-- The report of a lint is on all findings of the text. -/
theorem lint_eq (text : String) (sink : Sink) :
    (ofText text).lint sink
      = sink.commit (Report.bytes (ofText text).findings) (ofText text).findings.length := by
  rw [lint, lintWith, checkWith_eq]
  exact Report.conclude_eq _ sink

/-- On a sink without limits, a lint answers with the number of findings. -/
theorem lint_unlimited (text : String) :
    ((ofText text).lint {}).1 = .ok (ofText text).findings.length := by
  have hfits : Sink.Fits {} (Report.bytes (ofText text).findings).length := by
    intro room hroom
    cases hroom
  rw [lint_eq, Sink.commit_of_fits hfits]

end Source

end LiteralLint
