import PathRouting.Main
import PathRouting.Proofs.Runs
import PathRouting.Proofs.Spans
import PathRouting.Proofs.CharSets
import PathRouting.Proofs.Cuts
import PathRouting.Proofs.Spelling
import PathRouting.Proofs.Reading
import PathRouting.Proofs.Language
import PathRouting.Proofs.Values
import PathRouting.Proofs.Answers
import PathRouting.Proofs.LocalBrackets
import PathRouting.Proofs.LocalSteps
import PathRouting.Proofs.Openings
import PathRouting.Proofs.Ungrouped
import PathRouting.Proofs.Alike
import PathRouting.Proofs.Twins
import PathRouting.Proofs.Alignment
import PathRouting.Proofs.Histories
import PathRouting.Proofs.Acceptance
import PathRouting.Proofs.Percent
import PathRouting.Proofs.Chunks
import PathRouting.Proofs.RoundTrip
import PathRouting.Proofs.Matching
import PathRouting.Proofs.Fragments
import PathRouting.Proofs.RawLanguage
import PathRouting.Proofs.Dispatch
import PathRouting.Proofs.SlashRuns
import PathRouting.Proofs.SubPaths
import PathRouting.Proofs.Collapsing
import PathRouting.Proofs.TrailingSlashes
import PathRouting.Proofs.Strictness
import PathRouting.Proofs.Precedence
import PathRouting.Proofs.CaseVariants
import PathRouting.Proofs.Caseless
import PathRouting.Proofs.Building
import PathRouting.Proofs.Commands
import PathRouting.Proofs.OwnPath
import PathRouting.Proofs.Grammar
import PathRouting.Proofs.Scanning
import PathRouting.Proofs.Printing
import PathRouting.Proofs.Validation
import PathRouting.Proofs.Capturing
import PathRouting.Proofs.Thinning
import PathRouting.Proofs.Tables
import PathRouting.Proofs.Remainders
import PathRouting.Proofs.Doubles
import PathRouting.Proofs.TrimmedBrackets
import PathRouting.Proofs.Moves
import PathRouting.Proofs.ThinnedReaders
import PathRouting.Proofs.Joining
import PathRouting.Proofs.JoinedPatterns
