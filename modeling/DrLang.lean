import DrLang.Main
import DrLang.Cli.Folder
import DrLang.Proofs.Lookahead
import DrLang.Proofs.Reading
import DrLang.Proofs.FirstTokens
import DrLang.Proofs.Reading.Expression
import DrLang.Proofs.Reading.Statement
import DrLang.Proofs.Acceptance
import DrLang.Proofs.Lexemes
import DrLang.Proofs.Tiling
import DrLang.Proofs.Boundaries
import DrLang.Proofs.Spelling
import DrLang.Proofs.PrintedTokens
import DrLang.Proofs.Analysis
import DrLang.Proofs.Labels
import DrLang.Proofs.Ensures
import DrLang.Proofs.Analysis.Expression
import DrLang.Proofs.Analysis.Statement
import DrLang.Proofs.Analysis.Block
import DrLang.Proofs.SinglePass
import DrLang.Proofs.Printing
import DrLang.Proofs.Printing.Expression
import DrLang.Proofs.Printing.Statement
import DrLang.Proofs.PrintedTrees
import DrLang.Proofs.Calm
import DrLang.Proofs.ScopeDiscipline
import DrLang.Proofs.Forward
import DrLang.Proofs.Likeness
import DrLang.Proofs.Likeness.Expression
import DrLang.Proofs.Likeness.Statement
import DrLang.Proofs.Likeness.Surroundings
import DrLang.Proofs.Inert
import DrLang.Proofs.SourceOrder
import DrLang.Proofs.Lockstep
import DrLang.Proofs.Lockstep.Statement
import DrLang.Proofs.SyntaxAlone
import DrLang.Proofs.Seam
import DrLang.Proofs.Appended
import DrLang.Proofs.Record
import DrLang.Proofs.Record.Expression
import DrLang.Proofs.Record.Statement
import DrLang.Proofs.OnRecord
import DrLang.Proofs.TableHistory
import DrLang.Proofs.Unread
import DrLang.Proofs.Kinship
import DrLang.Proofs.Relabelling
import DrLang.Proofs.Relabelling.Parse
import DrLang.Proofs.LiveSymbols
import DrLang.Proofs.Knowing
import DrLang.Proofs.Knowing.Expression
import DrLang.Proofs.Knowing.Statement
import DrLang.Proofs.Consuming
import DrLang.Proofs.Unrolling
import DrLang.Proofs.Termination
import DrLang.Proofs.Descent
import DrLang.Proofs.ShownLines
import DrLang.Proofs.ReportedLines
import DrLang.Proofs.ExcerptLayout
import DrLang.Proofs.TreeDump
import DrLang.Proofs.ReadableTrees
import DrLang.Proofs.NotesInvariant
import DrLang.Proofs.EventTrace
