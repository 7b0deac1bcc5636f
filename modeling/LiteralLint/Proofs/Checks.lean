import LiteralLint.Lint
import LiteralLint.Proofs.Rules

/-! # Checks

  A check follows the scan of its source, step by step, and goes on to the end
  unless a literal stops it.

  The key ideas:

  - What a scan finds from a state on is what its next step completes, and what
    it finds from there on (`Scan.literals_of_rule`, `Scan.events_of_rule`).
  - A check that nothing stops puts the events of the scan into its log, one
    after the other, and then the one that counts what it has seen
    (`Source.checkFrom_eq`). These are the same events whatever the log is, and
    the outcome does not depend on it.
-/

namespace LiteralLint

open Scan

namespace Scan

variable {s t : State} {label : Label}

/-! ### What Is Still to Come -/

/-- The literals that a scan completes from here on. -/
def State.literals (s : State) : List Literal := (trace s).filterMap Label.literal?

/-- The events of a scan from here on. -/
def State.events (s : State) : List Event := (trace s).filterMap Label.event?

theorem literals_of_end (hend : step? s = none) : s.literals = [] := by
  rw [State.literals, trace_of_end hend]
  rfl

theorem events_of_end (hend : step? s = none) : s.events = [] := by
  rw [State.events, trace_of_end hend]
  rfl

theorem literals_of_rule (h : Rule s label t) :
    s.literals = label.literal?.toList ++ t.literals :=
  filterMap_trace_of_rule Label.literal? h

theorem events_of_rule (h : Rule s label t) : s.events = label.event?.toList ++ t.events :=
  filterMap_trace_of_rule Label.event? h

end Scan

namespace Source

variable {σ : Type} {emit : σ → Event → σ} {log : σ} {source : Source} {count : Nat}
  {found : Array Finding} {s t : State} {label : Label} {literal : Literal}

/-! ### Steps of a Check -/

theorem checkFrom_of_end (hend : step? s = none) :
    source.checkFrom emit log count found s
      = (.ok found.toList, emit log (.finished source.size count found.size)) := by
  rw [checkFrom]
  split <;> simp_all

/-- A step that completes no literal is logged, and the check goes on. -/
theorem checkFrom_of_silent (h : Rule s label t) (hsilent : label.literal? = none) :
    source.checkFrom emit log count found s
      = source.checkFrom emit (label.event?.toList.foldl emit log) count found t := by
  have hstep := step?_eq_some_iff.2 h
  rw [checkFrom]
  split <;> simp_all

/-- A step that completes a literal is logged, and the check goes on if the
    source has the line of the literal. -/
theorem checkFrom_of_literal (h : Rule s label t) (hliteral : label.literal? = some literal)
    (hline : source.contains literal.line = true) :
    source.checkFrom emit log count found s
      = source.checkFrom emit (label.event?.toList.foldl emit log) (count + 1)
          (found ++ literal.finding?.toList) t := by
  have hstep := step?_eq_some_iff.2 h
  rw [checkFrom]
  split <;> simp_all

/-! ### Checks to the End -/

/-- **A check that no literal stops has the findings of the scan and logs its
    events.** -/
theorem checkFrom_eq (hlines : ∀ literal ∈ s.literals, source.contains literal.line = true) :
    let findings := s.literals.filterMap Literal.finding?
    source.checkFrom emit log count found s
      = (.ok (found.toList ++ findings),
          (s.events ++ [Event.finished source.size (count + s.literals.length)
            (found.size + findings.length)]).foldl emit log) := by
  intro findings
  induction s using run_induction generalizing log count found with
  | hend s hend =>
    rw [checkFrom_of_end hend, events_of_end hend]
    simp [findings, literals_of_end hend]
  | hstep s label t hrule ih =>
    have hliterals := literals_of_rule hrule
    cases hliteral : label.literal? with
    | none =>
      rw [hliteral, Option.toList_none, List.nil_append] at hliterals
      rw [hliterals] at hlines
      rw [checkFrom_of_silent hrule hliteral, ih hlines]
      simp only [findings, hliterals, events_of_rule hrule, List.foldl_append]
    | some literal =>
      rw [hliteral, Option.toList_some, List.singleton_append] at hliterals
      rw [hliterals, List.forall_mem_cons] at hlines
      rw [checkFrom_of_literal hrule hliteral hlines.1, ih hlines.2]
      -- The literal counts, and so does its finding if it has one.
      have hfindings : findings
          = literal.finding?.toList ++ t.literals.filterMap Literal.finding? := by
        simp only [findings, hliterals, List.filterMap_cons]
        cases literal.finding? <;> rfl
      have hsize : (found ++ literal.finding?.toList).size
          = found.size + literal.finding?.toList.length := by
        cases literal.finding? <;> simp
      simp only [hfindings, hliterals, events_of_rule hrule, List.foldl_append]
      simp [hsize, Nat.add_assoc, Nat.add_comm 1]

end Source

end LiteralLint
