import Palette.Calculator.Arithmetic
import Palette.Calculator.Report
import Palette.Calculator.Rules
import Palette.Calculator.Tokens
import Palette.Collections.Halving
import Palette.Collections.Queue
import Palette.Collections.SearchCache
import Palette.Collections.SortedList
import Palette.Collections.Trie
import Palette.CommandLine
import Palette.Decimal.Binary64
import Palette.Decimal.Shortest
import Palette.Decimal.Text
import Palette.Extractor.Basic
import Palette.Grammar.Basic
import Palette.Grammar.Body
import Palette.Grammar.Issue
import Palette.Grammar.LeftRecursion
import Palette.Grammar.Lookahead
import Palette.Grammar.Nullable
import Palette.Grammar.Parser
import Palette.Grammar.Recognizer
import Palette.Grammar.Recording
import Palette.Grammar.Script
import Palette.Highlight
import Palette.Lexer.Basic
import Palette.Lexer.LexError
import Palette.Lexer.Token
import Palette.Live.Schedule
import Palette.Live.Task
import Palette.Live.World
import Palette.Main
import Palette.Menu.Basic
import Palette.Menu.Entry
import Palette.Observable.Basic
import Palette.Observable.Registry
import Palette.Observable.Session
import Palette.Pattern.Automaton
import Palette.Pattern.Basic
import Palette.Pattern.CharSet
import Palette.Pattern.Matching
import Palette.Pattern.Notation
import Palette.Pattern.Search
import Palette.Pattern.Symbol
import Palette.Pattern.Weight
import Palette.Proofs.Grammar.Analysis
import Palette.Proofs.Grammar.Derivation
import Palette.Proofs.Grammar.Leading
import Palette.Proofs.Grammar.Nullable
import Palette.Proofs.Grammar.Outline
import Palette.Proofs.Grammar.Passage
import Palette.Proofs.Grammar.Run
import Palette.Proofs.Grammar.Soundness
import Palette.Proofs.Grammar.Termination
import Palette.Proofs.Lexer.Horizons
import Palette.Proofs.Lexer.Tiling
import Palette.Proofs.Vocabulary.Built
import Palette.Span
import Palette.Text.Bytes
import Palette.Text.Position
import Palette.Text.Quoted
import Palette.Text.Record
import Palette.Unicode.Alphabetic
import Palette.Unicode.Blank
import Palette.Unicode.Digit
import Palette.Unicode.Extending
import Palette.Unicode.Folding
import Palette.Unicode.Numeric
import Palette.Unicode.Printable
import Palette.Unicode.Ranges
import Palette.Unicode.Word
import Palette.Vocabulary
import Palette.Proofs.Grammar.Highlighting
import Palette.Proofs.Grammar.Recovery
import Palette.Proofs.Grammar.Opening
import Palette.Proofs.Grammar.PathOrder
import Palette.Proofs.Grammar.PathSets
import Palette.Proofs.Grammar.Prediction
import Palette.Proofs.Lexer.Kinds
import Palette.Proofs.Grammar.Expectation
import Palette.Proofs.Grammar.Tables
import Palette.Proofs.Grammar.Depth
import Palette.Proofs.Vocabulary.Definitions
import Palette.Proofs.Grammar.Blame
import Palette.Proofs.Grammar.Composition
import Palette.Proofs.Calculator.Analysis
import Palette.Proofs.Calculator.Reading
import Palette.Proofs.Calculator.Evaluation
import Palette.Proofs.Grammar.Interpretation
import Palette.Proofs.Calculator.Language
import Palette.Proofs.Calculator.Execution
import Palette.Proofs.Highlight.Ranges
import Palette.Proofs.Highlight.Queries
import Palette.Proofs.Extractor.Course
import Palette.Proofs.Extractor.Ledger
import Palette.Proofs.Extractor.InOrder
import Palette.Proofs.Collections.Trie
import Palette.Proofs.Collections.Pruned
import Palette.Proofs.Collections.Memo
import Palette.Proofs.Collections.Requests
import Palette.Proofs.Collections.Order
import Palette.Proofs.Collections.Indices
import Palette.Proofs.Collections.Traffic
import Palette.Proofs.Collections.Calls
import Palette.Proofs.Collections.Finding
import Palette.Proofs.Collections.Notices
import Palette.Proofs.Collections.Merging
import Palette.Proofs.Collections.Images
import Palette.Proofs.Collections.Truncation
import Palette.Proofs.Decimal.Comparison
import Palette.Proofs.Menu.Priorities
import Palette.Proofs.Menu.Calls
import Palette.Proofs.Menu.Stock
import Palette.Proofs.Menu.Sorted
import Palette.Proofs.Menu.Appending
import Palette.Proofs.Menu.Removal
import Palette.Proofs.Menu.Capping
import Palette.Proofs.Vocabulary.Consistency
import Palette.Proofs.Observable.Calls
import Palette.Proofs.Observable.Enrollment
import Palette.Proofs.Observable.Silence
import Palette.Proofs.Menu.Placing
import Palette.Proofs.Grammar.Rounds
import Palette.Proofs.Grammar.Listing
import Palette.Proofs.Grammar.Emptiness
import Palette.Proofs.Grammar.Rewriting
import Palette.Proofs.Grammar.Exactness
import Palette.Proofs.Grammar.Reordering
import Palette.Proofs.Grammar.FullMatch
import Palette.Proofs.Grammar.Selection
import Palette.Proofs.Grammar.Entering
import Palette.Proofs.Collections.Batches
import Palette.Proofs.Grammar.LeftRecursion
import Palette.Proofs.Grammar.Failure
import Palette.Proofs.Collections.Filtering
import Palette.Proofs.Lexer.Places
import Palette.Proofs.Extractor.Publication
import Palette.Proofs.Grammar.Frames
import Palette.Proofs.Grammar.Numbering
import Palette.Proofs.Grammar.Registration
import Palette.Proofs.Grammar.Expansions
