import PolyLambda.Indexed.Dump
import PolyLambda.Indexed.Printer
import PolyLambda.Main
import PolyLambda.Proofs.IndexArithmetic
import PolyLambda.Proofs.Scope
import PolyLambda.Proofs.Typing
import PolyLambda.Proofs.Reduction
import PolyLambda.Proofs.Candidates
import PolyLambda.Proofs.Termination
import PolyLambda.Proofs.GeneratedNames
import PolyLambda.Proofs.NameBridge
import PolyLambda.Proofs.Shadowing
import PolyLambda.Proofs.SessionRecords
import PolyLambda.Proofs.SessionReduction
import PolyLambda.Proofs.DeductionFailures
import PolyLambda.Proofs.IndexBounds
import PolyLambda.Proofs.TreeHeights
import PolyLambda.Proofs.NamingTotality
import PolyLambda.Proofs.SessionRuns
import PolyLambda.Proofs.SessionSafety
import PolyLambda.Proofs.SelfCheck
import PolyLambda.Proofs.Consistency
import PolyLambda.Proofs.Erasure
import PolyLambda.Proofs.Confluence
import PolyLambda.Proofs.Weakening
import PolyLambda.Proofs.IndexOverflow
import PolyLambda.Proofs.NameStability
import PolyLambda.Proofs.Declarations
import PolyLambda.Proofs.Reentry
import PolyLambda.Proofs.Exchange
import PolyLambda.Proofs.NameRoundTrip
import PolyLambda.Proofs.BoundRenaming
import PolyLambda.Proofs.SyntaxTrees
import PolyLambda.Proofs.ReadingTrees
import PolyLambda.Proofs.Lexing
import PolyLambda.Proofs.PrintedSyntax
import PolyLambda.Proofs.LongestMatch
import PolyLambda.Proofs.PartialTrees
import PolyLambda.Proofs.PartialPrograms
import PolyLambda.Proofs.Unambiguity
import PolyLambda.Proofs.Acceptance
import PolyLambda.Proofs.CommentMasking
import PolyLambda.Proofs.Terminals
import PolyLambda.Proofs.TokenPlaces
import PolyLambda.Proofs.SyntaxErrors
import PolyLambda.Proofs.Relocation
import PolyLambda.Proofs.ProgramPieces
import PolyLambda.Proofs.SourceSpans
import PolyLambda.Proofs.SpanErasure
import PolyLambda.Proofs.LineTokens
import PolyLambda.Proofs.ProgramCuts
import PolyLambda.Proofs.InteractiveRuns
import PolyLambda.Proofs.ReadingErasure
import PolyLambda.Proofs.SourceLayout
import PolyLambda.Proofs.ScopedContexts
import PolyLambda.Proofs.DrawnNames
import PolyLambda.Proofs.ParsedNames
import PolyLambda.Proofs.ReportedResults
import PolyLambda.Proofs.NormalForms
import PolyLambda.Proofs.NamingHygiene
import PolyLambda.Proofs.ClashTexts
import PolyLambda.Proofs.NameResolution
import PolyLambda.Proofs.ContextResolution
import PolyLambda.Proofs.DanglingIndices
import PolyLambda.Proofs.FailurePlaces
import PolyLambda.Proofs.CommentPlaces
import PolyLambda.Proofs.ShiftLaws
import PolyLambda.Proofs.SubstitutionLaws
import PolyLambda.Proofs.InstantiationLaws
import PolyLambda.Proofs.InstantiationRange
import PolyLambda.Proofs.FreshNames
import PolyLambda.Proofs.NameNumerals
