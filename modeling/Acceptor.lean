import Acceptor.Automaton.Emptiness
import Acceptor.Automaton.Layout
import Acceptor.Pattern.RoundTrip
import Acceptor.Pattern.Assembly
import Acceptor.Regex
import Acceptor.Proofs.Occurrences
import Acceptor.Proofs.Builder.Built
import Acceptor.Proofs.Builder.Collected
import Acceptor.Proofs.Builder.Listed
import Acceptor.Proofs.Acceptance.Trails
import Acceptor.Proofs.Determinization.Moves
import Acceptor.Proofs.Determinization.Invariant
import Acceptor.Proofs.Determinization.Composites
import Acceptor.Proofs.Determinization.Subsets
import Acceptor.Proofs.Determinization.Correctness
import Acceptor.Proofs.Determinization.Report
import Acceptor.Proofs.Determinization.Limits
import Acceptor.Proofs.Combinators.Composition
import Acceptor.Proofs.Combinators.Pairs
import Acceptor.Proofs.Combinators.Repetition
import Acceptor.Proofs.Combinators.Simplest
import Acceptor.Proofs.Pattern.Violation
import Acceptor.Proofs.Pattern.Language
import Acceptor.Proofs.Pattern.Translation
import Acceptor.Proofs.Pattern.Assembly
import Acceptor.Proofs.Regex.Matching
import Acceptor.Proofs.Regex.Rejection
import Acceptor.Proofs.Regex.StateLimit
import Acceptor.Proofs.Builder.Additions
import Acceptor.Proofs.Builder.Offenders
import Acceptor.Proofs.Determinization.Renaming
import Acceptor.Proofs.Determinization.Rows
import Acceptor.Proofs.Determinization.Idempotence
import Acceptor.Proofs.Determinization.Discovery
import Acceptor.Proofs.Determinization.Announcements
import Acceptor.Proofs.Relabelling
import Acceptor.Proofs.Combinators.Exchange
import Acceptor.Proofs.Determinization.Relabelling
import Acceptor.Proofs.Determinization.Deterministic
import Acceptor.Proofs.Combinators.Trim
import Acceptor.Proofs.Regex.Trim
import Acceptor.Proofs.Combinators.Words
import Acceptor.Proofs.Constructions
import Acceptor.StateSet.Bits
import Acceptor.Automaton.Checked
import Acceptor.Proofs.StateSet.Refinement
import Acceptor.Pattern.Checked
import Acceptor.Proofs.Combinators.Sums
import Acceptor.Proofs.Pattern.Weight
import Acceptor.Proofs.Pattern.Sums
import Acceptor.Proofs.Regex.Capacity
import Acceptor.Automaton.Search
import Acceptor.Proofs.Search.Answers
import Acceptor.Proofs.Search.Closure
import Acceptor.Proofs.Search.Emptiness
import Acceptor.Proofs.Determinization.Turns
import Acceptor.Proofs.Builder.Regrouping
import Acceptor.Proofs.Combinators.Listings
import Acceptor.Proofs.Acceptance.Alphabet
import Acceptor.Proofs.Pattern.Letters
import Acceptor.Proofs.Regex.Alphabet
import Acceptor.Proofs.Text.Utf16
import Acceptor.Proofs.Determinization.Chain
import Acceptor.Proofs.Pattern.Literal
import Acceptor.Proofs.Regex.Literal
