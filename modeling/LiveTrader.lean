import LiveTrader.Portfolio.Guarded
import LiveTrader.Portfolio.FillSigns
import LiveTrader.Portfolio.Replay
import LiveTrader.Portfolio.Accepted
import LiveTrader.Dispatch.Hold
import LiveTrader.Boundary.Released
import LiveTrader.Terminal.Attribution
import LiveTrader.ProgramLedger.Permits
import LiveTrader.ProgramLedger.Identity
import LiveTrader.ProgramLedger.EquityRuns
import LiveTrader.Governance.Authorized
import LiveTrader.Emergency.Release
import LiveTrader.ShortLive.Sent
import LiveTrader.LiveOrders.Exact
import LiveTrader.OrderTruth.Restarts
import LiveTrader.EntryBlock.Lift
import LiveTrader.ExecutionFeed.Applied
import LiveTrader.OrderAuthority.OwnedKeys
import LiveTrader.OrderDispatch.Kept
import LiveTrader.MutationEdge.Reports
import LiveTrader.FunctionalScheduler.Barrier
import LiveTrader.ShortBroker.Sent
import LiveTrader.ShortBroker.Budget
import LiveTrader.ShortCleanup.Runs
import LiveTrader.ShortSession.Incidents
import LiveTrader.SpotControl.OneOwner
import LiveTrader.Portfolio.Ready
import LiveTrader.Governance.Observed
import LiveTrader.FuturesRisk.Gate
import LiveTrader.CapitalRollout.Accepted
import LiveTrader.Eligibility.Closed
import LiveTrader.OrderEncoding.Encoders
import LiveTrader.FuturesProtection.StopMargin
import LiveTrader.OrderEncoding.KisMarkets
import LiveTrader.ShortBroker.Sized
import LiveTrader.StrategyLifecycle.Runs
import LiveTrader.CleanupTruth.Sound
import LiveTrader.ShortBroker.OrderExact
import LiveTrader.MovingAverage.Signals
import LiveTrader.Portfolio.Identified
import LiveTrader.Portfolio.AccumulatedFees
import LiveTrader.Portfolio.Chain
