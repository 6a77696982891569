import HomefrontFiber.Commission.StatementIdentity
import HomefrontFiber.Commission.OverrideFold
import HomefrontFiber.FieldQueue.TapOrder
import HomefrontFiber.Incentive.Wedge
import HomefrontFiber.Incentive.Clawback
import HomefrontFiber.Knocking.Route
import HomefrontFiber.Closeout.Isolation
import HomefrontFiber.Mileage.Frozen
import HomefrontFiber.VendorOrders.Reimport
import HomefrontFiber.CommissionFile.Converge
import HomefrontFiber.Referrals.PaysOnce
import HomefrontFiber.Earnings.Reconcile
import HomefrontFiber.GuardedActions.Undo
import HomefrontFiber.LiveMap.Stream
import HomefrontFiber.Recovery.Idempotent
import HomefrontFiber.Outreach.Stop
import HomefrontFiber.ComingLedger.Replay
import HomefrontFiber.ComingLedger.WriteOff
import HomefrontFiber.Observation.ProviderTime
import HomefrontFiber.FreshFiber.Isolation
import HomefrontFiber.FreshFiber.Retraction
import HomefrontFiber.FreshFiber.OneLead
import HomefrontFiber.Billing.Metering
import HomefrontFiber.Billing.Webhooks
import HomefrontFiber.ScanRun.Runs
import HomefrontFiber.ScanRun.Stopped
import HomefrontFiber.TwinMerge.Drain
import HomefrontFiber.OtpDelivery.Live
import HomefrontFiber.CallingAudit.Evident
import HomefrontFiber.DncImport.Imports
import HomefrontFiber.Campaigns.Caps
import HomefrontFiber.Visibility.ScopeCache
import HomefrontFiber.AreaCrew.Edits
import HomefrontFiber.ManualCalls.OptOut
import HomefrontFiber.Commission.Ranks
import HomefrontFiber.Team.Uplines
import HomefrontFiber.Commission.StatementDocument
import HomefrontFiber.Commission.Clamps
import HomefrontFiber.HourlyPay.LastWrite
import HomefrontFiber.HourlyPay.Hours
import HomefrontFiber.Commission.Assignments
import HomefrontFiber.Commission.CountingWeek
import HomefrontFiber.RepMetrics.NothingLost
import HomefrontFiber.Payouts.Transitions
import HomefrontFiber.Momentum.Caps
import HomefrontFiber.Ramp.Ceiling
import HomefrontFiber.Spreadsheet.Csv
import HomefrontFiber.LiveMap.PushedPin
import HomefrontFiber.LiveMap.OnePin
import HomefrontFiber.ProviderQueue.OwnFate
import HomefrontFiber.GuardedActions.Replay
import HomefrontFiber.FreshFiber.Spelling
import HomefrontFiber.FieldQueue.Overlay
import HomefrontFiber.TokenPool.LeaseCounts
import HomefrontFiber.DoorBonus.Awards
import HomefrontFiber.DoorBonus.MoreEvents
import HomefrontFiber.Identity.Authority
import HomefrontFiber.Knocking.Once
