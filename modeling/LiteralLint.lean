import LiteralLint.Main
import LiteralLint.Proofs.Accounts
import LiteralLint.Proofs.CommandLine
import LiteralLint.Proofs.Document
import LiteralLint.Proofs.Histories
import LiteralLint.Proofs.Inputs
import LiteralLint.Proofs.Insertion
import LiteralLint.Proofs.Interpolation
import LiteralLint.Proofs.Layouts
import LiteralLint.Proofs.Logging
import LiteralLint.Proofs.ReportLines
import LiteralLint.Proofs.Rescan
import LiteralLint.Proofs.Skeleton
import LiteralLint.Proofs.SoundCursors
import LiteralLint.Proofs.Stacking
import LiteralLint.Proofs.Surroundings
