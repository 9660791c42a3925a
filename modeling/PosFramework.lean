import PosFramework.Core.Billing.Conservation
import PosFramework.Core.Billing.Posture
import PosFramework.Core.Billing.Reductions
import PosFramework.Core.Billing.Shares
import PosFramework.Core.Package
import PosFramework.Core.Schedule
import PosFramework.Edge.Ended
import PosFramework.Edge.Intake
import PosFramework.Edge.Lockout
import PosFramework.Edge.Owing
import PosFramework.Edge.Receipts
import PosFramework.Edge.Reckoning
import PosFramework.Edge.Waiting
import PosFramework.Store.Chunks
import PosFramework.Store.Delivery
import PosFramework.Store.Receipts
import PosFramework.Store.Tamper
import PosFramework.Store.WalkRun
import PosFramework.Printing.Agent
import PosFramework.Printing.Wrap
import PosFramework.Cloud.Anchors.Border
import PosFramework.Cloud.Anchors.Race
import PosFramework.Cloud.Reports.Handovers
import PosFramework.Cloud.Reports.Projection
import PosFramework.Cloud.Reports.Voids
import PosFramework.Cloud.Scheduling.Cancel
import PosFramework.Cloud.Webhook
