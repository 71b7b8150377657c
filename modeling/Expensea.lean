import Expensea.Auth.Login
import Expensea.Connections.Disconnect
import Expensea.Domain.DecimalText
import Expensea.Jobs.Idempotency
import Expensea.Jobs.Worker
import Expensea.Ledger.ObligationInvariants
import Expensea.Ledger.Service
import Expensea.Reconciliation.Metadata
import Expensea.Reconciliation.Runs
import Expensea.Ai.ReviewCodes
import Expensea.Domain.Calendar
import Expensea.Domain.IsoText
import Expensea.Ledger.Outstanding
import Expensea.Ledger.Pagination
import Expensea.Ledger.Recurring
import Expensea.Domain.Normalization
import Expensea.Domain.Zone
import Expensea.Ledger.Periods
import Expensea.Ledger.Storable
import Expensea.Ledger.Cursors
import Expensea.Ledger.ExactMoney
import Expensea.Ledger.Schedule
import Expensea.Reconciliation.Ambiguity
import Expensea.Reconciliation.Symmetry
import Expensea.Database.CategoryScope
import Expensea.Database.Hierarchy
import Expensea.Database.Ownership
import Expensea.Connectors.Containment
import Expensea.Connectors.ImportErrors
import Expensea.Connectors.Overlap
import Expensea.Agent.Routing
import Expensea.Analytics.Calculations
import Expensea.Analytics.Insights
import Expensea.Categorization.Memory
import Expensea.Categorization.Retrieval
import Expensea.Ledger.MonthPartition
import Expensea.Web.LedgerFormatters
import Expensea.Analytics.Report
import Expensea.Connections.AccountSystem
import Expensea.Jobs.Sent
import Expensea.Web.JobStatusPanel
import Expensea.Ingestion.Replay
import Expensea.Jobs.NoteProposals
