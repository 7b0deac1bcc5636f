import LiteralLint.Proofs.ExitStatus
import LiteralLint.Proofs.Inputs

/-! # The Command Line

  There are three ways to name an input on the command line: by itself, with
  `--` after it, and with `--` before it. Only in the last of them may a name
  begin with a dash, `-` apart, which is standard input in all of them.

  The key ideas:

  - Once there is an operand, no argument but one `--` leaves it the answer
    (`Arguments.parseFrom_some_eq_ok_iff`).
  - What a run reads is what it depends on. Standard input is read when the
    outcome is not the same for every standard input (`Command.ReadsStdin`).
-/

namespace LiteralLint

namespace Arguments

variable {arguments : List String} {argument first input : String}

/-! ### Operands -/

/-- An argument that is an operand also where options are known. -/
def IsOperand (argument : String) : Prop :=
  argument = "-" ∨ argument.toList.head? ≠ some '-'

theorem option?_eq_none_iff : option? argument.toList = none ↔ IsOperand argument := by
  have hdash : argument = "-" ↔ argument.toList = ['-'] := by
    rw [← String.toList_inj]
    rfl
  rw [IsOperand, hdash]
  unfold option?
  split
  · next h => simp [h]
  · next h => simp [h]
  · next hlong hshort =>
    -- An argument that begins with a dash and is no option ends there.
    refine iff_of_true rfl ?_
    cases htext : argument.toList with
    | nil => exact .inr nofun
    | cons c rest =>
      by_cases hc : c = '-'
      · subst hc
        cases rest with
        | nil => exact .inl rfl
        | cons letter rest => exact absurd htext (hshort letter rest)
      · exact .inr (by simpa using hc)

/-- The argument after which all others are operands is none itself. -/
theorem not_isOperand_dashes : ¬ IsOperand "--" := by
  rw [← option?_eq_none_iff]
  decide

/-! ### What Is Accepted -/

theorem parseOperands_some_eq_ok_iff :
    parseOperands (some first) arguments = .ok input ↔ arguments = [] ∧ first = input := by
  cases arguments with
  | nil => simp [parseOperands, atEnd]
  | cons argument rest => simp [parseOperands, operand]

theorem parseOperands_none_eq_ok_iff :
    parseOperands none arguments = .ok input ↔ arguments = [input] := by
  cases arguments with
  | nil => simp [parseOperands, atEnd]
  | cons argument rest =>
    rw [parseOperands, operand]
    show parseOperands (some argument) rest = .ok input ↔ _
    rw [parseOperands_some_eq_ok_iff, List.cons.injEq, and_comm]

/-- After an operand there is nothing, or `--` and nothing. -/
theorem parseFrom_some_eq_ok_iff :
    parseFrom (some first) arguments = .ok input
      ↔ (arguments = [] ∨ arguments = ["--"]) ∧ first = input := by
  cases arguments with
  | nil => simp [parseFrom, atEnd]
  | cons argument rest =>
    rw [parseFrom]
    by_cases hdashes : argument = "--"
    · simp [hdashes, parseOperands_some_eq_ok_iff]
    · simp only [hdashes, if_false, List.cons.injEq, reduceCtorEq, false_and, or_self]
      cases option? argument.toList <;> simp [operand]

/-- The arguments that name an input. -/
theorem parse_eq_ok_iff :
    parse arguments = .ok input
      ↔ (arguments = [input] ∨ arguments = [input, "--"]) ∧ IsOperand input
        ∨ arguments = ["--", input] := by
  rw [parse]
  cases arguments with
  | nil => simp [parseFrom, atEnd]
  | cons argument rest =>
    rw [parseFrom]
    by_cases hdashes : argument = "--"
    · subst hdashes
      rw [if_pos rfl, parseOperands_none_eq_ok_iff]
      constructor
      · rintro rfl
        exact .inr rfl
      · rintro (⟨hnames | hnames, hoperand⟩ | hnames) <;> cases hnames
        · exact absurd hoperand not_isOperand_dashes
        · exact absurd hoperand not_isOperand_dashes
        · rfl
    · rw [if_neg hdashes]
      cases hoption : option? argument.toList with
      | some usage =>
        -- An option is the answer, and no operand is like it.
        have hnone : ¬ IsOperand argument := by
          rw [← option?_eq_none_iff, hoption]
          exact nofun
        refine iff_of_false nofun ?_
        rintro (⟨hnames | hnames, hoperand⟩ | hnames) <;> cases hnames
        · exact hnone hoperand
        · exact hnone hoperand
        · exact hdashes rfl
      | none =>
        have hoperand : IsOperand argument := option?_eq_none_iff.1 hoption
        show parseFrom (some argument) rest = .ok input ↔ _
        rw [parseFrom_some_eq_ok_iff]
        constructor
        · rintro ⟨rfl | rfl, rfl⟩
          · exact .inl ⟨.inl rfl, hoperand⟩
          · exact .inl ⟨.inr rfl, hoperand⟩
        · rintro (⟨hnames | hnames, -⟩ | hnames) <;> cases hnames
          · exact ⟨.inl rfl, rfl⟩
          · exact ⟨.inr rfl, rfl⟩
          · exact absurd rfl hdashes

/-! ### What Is Not -/

/-- No input is named by no arguments, by `--` alone, or by three arguments or
    more. -/
theorem exists_usage (h : arguments = [] ∨ arguments = ["--"] ∨ 3 ≤ arguments.length) :
    ∃ usage, parse arguments = .error usage := by
  cases hparse : parse arguments with
  | error usage => exact ⟨usage, rfl⟩
  | ok input =>
    exfalso
    rcases parse_eq_ok_iff.1 hparse with ⟨rfl | rfl, hoperand⟩ | rfl
    · rcases h with hnames | hnames | hnames
      · cases hnames
      · cases hnames
        exact not_isOperand_dashes hoperand
      · simp at hnames
    · simp at h
    · simp at h

end Arguments

namespace Command

open Arguments

variable {arguments : List String} {input : String} {host : Host}

/-! ### What Is Read -/

/-- A run on these arguments reads standard input: what is seen of it depends
    on what standard input is. -/
def ReadsStdin (arguments : List String) : Prop :=
  ∃ (host : Host) (stdin : Except Fault Bytes),
    run arguments { host with stdin } ≠ run arguments host

/-- A run on standard input. -/
theorem run_of_dash (h : parse arguments = .ok "-") :
    run arguments host = Command.lint .stdin host.stdin host.stdout :=
  run_of_argument h

/-- A run on a file. -/
theorem run_of_path (h : parse arguments = .ok input) (hinput : input ≠ "-") :
    run arguments host
      = Command.lint (.file (Utf8.encode input)) (host.files.read (Utf8.encode input))
          host.stdout := by
  rw [run_of_argument h, Input.ofArgument, if_neg hinput]
  rfl

theorem readsStdin_iff : ReadsStdin arguments ↔ parse arguments = .ok "-" := by
  constructor
  · rintro ⟨host, stdin, hdiffer⟩
    by_contra hdash
    apply hdiffer
    cases hparse : parse arguments with
    | error usage => rw [run_of_usage hparse, run_of_usage hparse]
    | ok input =>
      have hinput : input ≠ "-" := by
        rintro rfl
        exact hdash hparse
      rw [run_of_path hparse hinput, run_of_path hparse hinput]
  · intro hparse
    -- Nothing to read is no failure, and a failure to read is one.
    refine ⟨⟨.ok [], .empty [], {}⟩, .error .isDirectory, fun halike => ?_⟩
    rw [run_of_dash hparse, run_of_dash hparse] at halike
    exact absurd (congrArg Outcome.code halike) (by decide +kernel)

/-- **The command line has three forms.** They name an input, and no other
    arguments do. The input is standard input where it is named `-`; any other
    name is the path of a file. -/
theorem parse_three_forms :
    (∀ arguments input, parse arguments = .ok input
        ↔ (arguments = [input] ∨ arguments = [input, "--"])
            ∧ (input = "-" ∨ input.toList.head? ≠ some '-')
          ∨ arguments = ["--", input])
      ∧ (∀ arguments, ReadsStdin arguments
          ↔ arguments = ["-"] ∨ arguments = ["-", "--"] ∨ arguments = ["--", "-"])
      ∧ (∀ arguments, ReadsStdin arguments → ∀ host,
          run arguments host = Command.lint .stdin host.stdin host.stdout)
      ∧ (∀ arguments input, parse arguments = .ok input → ¬ ReadsStdin arguments → ∀ host,
          run arguments host
            = Command.lint (.file (Utf8.encode input)) (host.files.read (Utf8.encode input))
                host.stdout
            ∧ Utf8.decode (Utf8.encode input) = input)
      ∧ ∀ arguments : List String, arguments = [] ∨ arguments = ["--"] ∨ 3 ≤ arguments.length →
          ∃ usage, parse arguments = .error usage
            ∧ ∀ host, run arguments host = advise usage host.stdout := by
  refine ⟨?_, ?_, ?_, ?_, ?_⟩
  · intro arguments input
    exact parse_eq_ok_iff
  · intro arguments
    -- The input is `-`, which is an operand before and after `--`.
    rw [readsStdin_iff, parse_eq_ok_iff, and_iff_left (.inl rfl), or_assoc]
  · intro arguments hreads host
    exact run_of_dash (readsStdin_iff.1 hreads)
  · intro arguments input hparse hreads host
    have hinput : input ≠ "-" := by
      rintro rfl
      exact hreads (readsStdin_iff.2 hparse)
    exact ⟨run_of_path hparse hinput, Utf8.decode_encode input⟩
  · intro arguments hnames
    obtain ⟨usage, hparse⟩ := exists_usage hnames
    exact ⟨usage, hparse, fun host => run_of_usage hparse⟩

/-- A path that looks like an option, standard input with `--` after it, and
    an argument too many. -/
theorem parse_three_forms_dashes :
    let path := ["--", "--help"]
    let dash := ["-", "--"]
    let many := ["a", "--", "-"]
    parse path = .ok "--help" ∧ ¬ ReadsStdin path
      ∧ (∀ host, run path host
          = Command.lint (.file (Utf8.encode "--help")) (host.files.read (Utf8.encode "--help"))
              host.stdout)
      ∧ ReadsStdin dash ∧ (∀ host, run dash host = Command.lint .stdin host.stdin host.stdout)
      ∧ 3 ≤ many.length ∧ ∃ usage, parse many = .error usage := by
  intro path dash many
  obtain ⟨hforms, hstdin, hdash, hpath, husage⟩ := parse_three_forms
  have hparse : parse path = .ok "--help" := (hforms _ _).2 (.inr rfl)
  have hnot : ¬ ReadsStdin path := by
    rw [hstdin]
    decide
  have hreads : ReadsStdin dash := (hstdin _).2 (.inr (.inl rfl))
  obtain ⟨usage, hmany, -⟩ := husage many (.inr (.inr (Nat.le_refl 3)))
  exact ⟨hparse, hnot, fun host => (hpath _ _ hparse hnot host).1, hreads, hdash _ hreads,
    Nat.le_refl 3, usage, hmany⟩

end Command

end LiteralLint
