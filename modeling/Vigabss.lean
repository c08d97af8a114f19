import Vigabss.Routeros.Matching
import Vigabss.Billing.NoteLedger
import Vigabss.Radius.Conservation
import Vigabss.Radius.Replay
import Vigabss.Radius.Lifecycle
import Vigabss.Attribution.Certainty
import Vigabss.Cgnat.Exclusive
import Vigabss.Cgnat.Batches
import Vigabss.Cgnat.Epochs
import Vigabss.Cash.Accounts
import Vigabss.RadiusServer.Access
import Vigabss.Billing.Waiving
import Vigabss.LateFees.Bounds
import Vigabss.Cfdi.SingleStamp
import Vigabss.Cfdi.Cancellations
import Vigabss.Cfdi.Parcialidades
import Vigabss.Cfdi.Totals
import Vigabss.Refunds.MovesOnce
import Vigabss.Refunds.Balances
import Vigabss.Retries.Charges
import Vigabss.Outbox.Messages
import Vigabss.Webhooks.Bounded
import Vigabss.Sessions.Families
import Vigabss.TwoFactor.Accounts
import Vigabss.Lockout.Attempts
import Vigabss.Audit.Verification
import Vigabss.Cwmp.ReadBack
import Vigabss.Gateway.SameBooks
import Vigabss.Gateway.Interleaving
import Vigabss.Gateway.RefundRaces
import Vigabss.Cfdi.Credited
import Vigabss.Cfdi.ReportedOnce
import Vigabss.Billing.GroupLedger
import Vigabss.Suspension.Logged
import Vigabss.Suspension.Lifted
import Vigabss.Wireguard.Rehydrated
import Vigabss.Billing.Shares
import Vigabss.Billing.OldestFirst
import Vigabss.Alerts.Breaches
import Vigabss.Portal.Requests
import Vigabss.Sso.Callbacks
import Vigabss.Routeros.Streams
import Vigabss.Billing.Proration
import Vigabss.Billing.DueDates
import Vigabss.Money.Decimals
import Vigabss.Cfdi.ExactTaxes
import Vigabss.Billing.RegionRates
import Vigabss.Invoicing.AddonPeriods
import Vigabss.Cwmp.SettledOnce
import Vigabss.Utils.CircuitBreaker
import Vigabss.Traps.SlotsKept
import Vigabss.Utils.BusinessDate
import Vigabss.SubnetPlanner.Conflicts
import Vigabss.Utils.SafeOutboundUrl
import Vigabss.Traps.VarbindBounds
import Vigabss.Utils.Resealing
import Vigabss.Cwmp.Bounds
import Vigabss.Throughput.OrderFree
import Vigabss.JobQueue.Queue
import Vigabss.Support.Conversations
import Vigabss.Legal.Signing
import Vigabss.Tenancy.Isolation
