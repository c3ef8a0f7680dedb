import SignalArcade.Queue.SeasonBoundary
import SignalArcade.Queue.Workers
import SignalArcade.Paper.Faults
import SignalArcade.Paper.Reservations
import SignalArcade.Providers.Governor
import SignalArcade.Seasons.StrategyRecords
import SignalArcade.Seasons.RecoveryWindow
import SignalArcade.Coach.PolicyPages
import SignalArcade.Challenger.LookAhead
import SignalArcade.Challenger.SetCoverage
import SignalArcade.Archive.TerminalProbes
import SignalArcade.Market.ReserveOrder
import SignalArcade.Challenger.CollectionRuns
import SignalArcade.Study.Contributions
import SignalArcade.Challenger.TrainingJobs
import SignalArcade.Providers.SolanaFailover
import SignalArcade.Study.SeededPolicy
import SignalArcade.Challenger.ExitTiming
import SignalArcade.Ai.Guarded
import SignalArcade.Challenger.EvidenceMirror
import SignalArcade.Seasons.UpgradeRuns
import SignalArcade.Paper.QuoteBounds
import SignalArcade.Challenger.IdentityReservations
import SignalArcade.Archive.StorageBudget
import SignalArcade.Challenger.ArtifactPruning
import SignalArcade.Ai.OutcomeRuns
import SignalArcade.Market.EventAccounts
import SignalArcade.Paper.ExitPolicy
import SignalArcade.Paper.IntegrityExits
import SignalArcade.Paper.SeasonSummary
import SignalArcade.Providers.AnchorRoundTrip
import SignalArcade.Providers.LogScopes
import SignalArcade.Challenger.DueWork
import SignalArcade.Challenger.CheckpointRuns
import SignalArcade.Challenger.PendingChoice
import SignalArcade.Challenger.TopMean
import SignalArcade.Market.WatchdogBatches
import SignalArcade.Diagnostics.PipelineRecords
import SignalArcade.Market.AccountLayouts
import SignalArcade.Market.TradeWindow
import SignalArcade.Challenger.ChampionImpact
import SignalArcade.Diagnostics.WriterAccounts
import SignalArcade.Challenger.SkillStateSaves
import SignalArcade.Diagnostics.IncidentRuns
import SignalArcade.Paper.EquityHours
import SignalArcade.Study.StudyExtracts
import SignalArcade.Arena.PlayedBack
import SignalArcade.Challenger.RidgeFit
import SignalArcade.Baseline.SizeSearch
