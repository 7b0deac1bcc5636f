import LiteralLint.Literal

/-! # Findings

  A literal whose mark disagrees with its content. The content suggests a
  substitution when a dollar sign is followed by something that could be
  substituted; the mark asks for one when it interpolates.

  - Content suggests it, mark does not ask: the mark may be missing.
  - Mark asks for it, content does not suggest it: the mark may be unneeded.

  Either disagreement is only possible, so a finding is worded as such.
-/

namespace LiteralLint

/-! ### What Content Suggests -/

/-- Whether a character after a dollar sign can begin what is substituted: a
    name, which starts with an ASCII letter or an underscore, or an
    expression in braces. -/
def beginsReference (c : Char) : Bool :=
  c.isAlpha || c = '_' || c = '{'

/-- Whether a content suggests a substitution: some dollar sign is directly
    followed by the beginning of a reference. -/
def looksInterpolated (content : String) : Bool :=
  (content.toList.zip content.toList.tail).any fun (c, following) =>
    c = '$' && beginsReference following

/-! ### Findings -/

/-- The two ways in which a mark disagrees with a content. -/
inductive Finding.Kind
  /-- The content suggests a substitution that the mark does not ask for. -/
  | missingMark
  /-- The mark asks for a substitution that the content does not suggest. -/
  | unneededMark
  deriving DecidableEq, Repr

/-- A disagreement between the mark and the content of a literal. -/
structure Finding where
  /-- In which way they disagree. -/
  kind : Finding.Kind
  /-- The content of the literal. -/
  content : String
  /-- The mark of the literal. -/
  mark : Mark
  /-- The number of the line on which the literal opens. -/
  line : Nat
  deriving DecidableEq, Repr

/-- What a kind of finding means. -/
def Finding.Kind.description : Finding.Kind → String
  | .missingMark => "possible missing interpolation prefix"
  | .unneededMark => "possible unneeded prefix"

/-- The report line of a finding, without its line feed. The content stands
    between single quotes whatever its delimiter, and is not escaped. -/
def Finding.render (finding : Finding) : String :=
  match finding.kind with
  | .missingMark =>
    "Possible missing s or f on string \"" ++ finding.content
      ++ "\", line " ++ toString finding.line
  | .unneededMark =>
    "Possible unneeded " ++ finding.mark.text ++ " on string " ++ finding.mark.text
      ++ "\"" ++ finding.content ++ "\", line " ++ toString finding.line

/-- A missing mark names both candidates. -/
example :
    (Finding.mk .missingMark "Hi $user" .bare 1).render
      = "Possible missing s or f on string \"Hi $user\", line 1" := by
  decide +kernel

/-- An unneeded mark is named, and shown on its literal. -/
example :
    (Finding.mk .unneededMark "Hello" .s 4).render
      = "Possible unneeded s on string s\"Hello\", line 4" := by
  decide +kernel

/-- The finding that a literal gives rise to, if any. -/
def Literal.finding? (literal : Literal) : Option Finding :=
  match looksInterpolated literal.content, literal.mark.interpolates with
  | true, false => some ⟨.missingMark, literal.content, literal.mark, literal.line⟩
  | false, true => some ⟨.unneededMark, literal.content, literal.mark, literal.line⟩
  | true, true | false, false => none

end LiteralLint
