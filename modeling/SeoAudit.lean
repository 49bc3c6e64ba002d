import SeoAudit.Audit
import SeoAudit.Command.Run
import SeoAudit.Main
import SeoAudit.Report.Json
import SeoAudit.Workers
import SeoAudit.Proofs.Scores
import SeoAudit.Proofs.Improvement
import SeoAudit.Proofs.PageAnalysis
import SeoAudit.Proofs.FullMarks
import SeoAudit.Proofs.ZeroCoverage
import SeoAudit.Proofs.StaticFallback
import SeoAudit.Proofs.EngineReach
import SeoAudit.Proofs.PageConservation
import SeoAudit.Proofs.UnreadablePages
import SeoAudit.Proofs.PageOrder
import SeoAudit.Proofs.CardShape
import SeoAudit.Proofs.RunFailures
import SeoAudit.Proofs.ConfigFailures
import SeoAudit.Proofs.Percentages
import SeoAudit.Proofs.RatioScores
import SeoAudit.Proofs.WrittenCalls
import SeoAudit.Proofs.EngineCalls
import SeoAudit.Proofs.Verdicts
import SeoAudit.Proofs.ScriptArguments
import SeoAudit.Proofs.NestedJson
import SeoAudit.Proofs.SitemapEntries
import SeoAudit.Proofs.Schedules
import SeoAudit.Proofs.Aggregation
import SeoAudit.Proofs.ExitPolicy
import SeoAudit.Proofs.SchemaCounts
import SeoAudit.Proofs.WrittenReports
import SeoAudit.Proofs.CutTexts
import SeoAudit.Proofs.ExtractedDefinitions
import SeoAudit.Proofs.LaterDeclarations
import SeoAudit.Proofs.PenaltyTallies
import SeoAudit.Proofs.AltGain
import SeoAudit.Proofs.CoveringPages
import SeoAudit.Proofs.UncoveredPages
import SeoAudit.Proofs.CriticalIssues
import SeoAudit.Proofs.PageSearch
import SeoAudit.Proofs.PageRoots
import SeoAudit.Proofs.IndependentSettings
import SeoAudit.Proofs.HeadingLevels
import SeoAudit.Proofs.ImageCounts
import SeoAudit.Proofs.TemplateRegions
import SeoAudit.Proofs.IndexRuns
