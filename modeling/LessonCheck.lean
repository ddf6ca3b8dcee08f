import LessonCheck.Files.FileTree
import LessonCheck.Main
import LessonCheck.Proofs.Access.Analysis
import LessonCheck.Proofs.Boundary.Meaning
import LessonCheck.Proofs.Bracket.Symmetry
import LessonCheck.Proofs.Caching.Requests
import LessonCheck.Proofs.Command.CheckRun
import LessonCheck.Proofs.Form.DoubledPlus
import LessonCheck.Proofs.Form.HeaderSplit
import LessonCheck.Proofs.Form.LoopInit
import LessonCheck.Proofs.Form.MissingEnds
import LessonCheck.Proofs.Lexing.CharLiteral
import LessonCheck.Proofs.Lexing.Complaints
import LessonCheck.Proofs.Lexing.LongestMatch
import LessonCheck.Proofs.Lexing.OperatorRuns
import LessonCheck.Proofs.Lexing.Reprint
import LessonCheck.Proofs.Meaning.Assignment
import LessonCheck.Proofs.Meaning.FaultyLiterals
import LessonCheck.Proofs.Meaning.FirstWins
import LessonCheck.Proofs.Meaning.Listing
import LessonCheck.Proofs.Meaning.LiteralValue
import LessonCheck.Proofs.Meaning.LiteralWords
import LessonCheck.Proofs.Meaning.StringMembers
import LessonCheck.Proofs.Meaning.Undeclared
import LessonCheck.Proofs.Program.Clean
import LessonCheck.Proofs.Renaming.Checks
import LessonCheck.Proofs.Report.LineFeeds
import LessonCheck.Proofs.Report.Lossless
import LessonCheck.Proofs.Reported.Analysis
import LessonCheck.Proofs.Settings.RoundTrip
