import FinanceAccounting.Kernel.AuditLog
import FinanceAccounting.Kernel.OutcomeLifecycle
import FinanceAccounting.Kernel.ApprovalThreshold
import FinanceAccounting.Kernel.CorrectionExecution
import FinanceAccounting.Services.SubledgerPeriod
import FinanceAccounting.Config.RoleBindings
import FinanceAccounting.Services.SourceAgreement
import FinanceAccounting.Services.SubledgerRows
import FinanceAccounting.Database.FiscalPeriodTriggers
import FinanceAccounting.Database.ExchangeRateTriggers
import FinanceAccounting.Kernel.SegregationOfDuties
import FinanceAccounting.Reporting.BalanceLaws
import FinanceAccounting.Services.SnapshotLaws
import FinanceAccounting.Ingestion.PromotionAgreement
import FinanceAccounting.Engines.BillingTies
import FinanceAccounting.Modules.AssetRegister
import FinanceAccounting.Modules.Adjustments
import FinanceAccounting.Modules.PayablesBalance
import FinanceAccounting.Kernel.LinkPaths
import FinanceAccounting.Kernel.ConsumptionOrder
import FinanceAccounting.Engines.RatioAllocation
import FinanceAccounting.Engines.SequentialAllocation
import FinanceAccounting.Engines.CascadeLaws
import FinanceAccounting.Engines.MatchLaws
import FinanceAccounting.Engines.AgingLaws
import FinanceAccounting.Engines.VarianceLaws
import FinanceAccounting.Kernel.DecisionAtomicity
import FinanceAccounting.Kernel.RequestIntegrity
import FinanceAccounting.Database.StoredBalance
import FinanceAccounting.Kernel.RoundingTolerance
import FinanceAccounting.Services.LifecycleReconciliation
import FinanceAccounting.Modules.SupplierEligibility
import FinanceAccounting.Kernel.PayloadCurrencies
import FinanceAccounting.Config.RbacClosure
import FinanceAccounting.Ingestion.MappingLaws
import FinanceAccounting.Ingestion.FreshCodes
import FinanceAccounting.Kernel.LinkConsumption
import FinanceAccounting.Ingestion.PayloadLines
import FinanceAccounting.Services.PostingRetries
import FinanceAccounting.Services.WhereClauses
import FinanceAccounting.Services.ApprovalMaps
import FinanceAccounting.Services.OpenItems
import FinanceAccounting.Kernel.LedgerHash
import FinanceAccounting.Services.BankMatching
import FinanceAccounting.Services.ThreeWayMatch
import FinanceAccounting.Ingestion.EventIds
import FinanceAccounting.Reporting.IncomeStatement
import FinanceAccounting.Reporting.CashFlow
import FinanceAccounting.Reporting.EquityChanges
import FinanceAccounting.Reporting.Segments
import FinanceAccounting.Modules.Disposals
import FinanceAccounting.Modules.TransactionPrice
import FinanceAccounting.Modules.Encumbrances
import FinanceAccounting.Modules.LeaseSchedule
import FinanceAccounting.Modules.Timesheets
import FinanceAccounting.Engines.Tracer
import FinanceAccounting.Kernel.PolicyCompiler
import FinanceAccounting.Kernel.Bookkeeper
import FinanceAccounting.Database.OutcomeConstraints
