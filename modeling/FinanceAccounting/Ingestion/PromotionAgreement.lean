import FinanceAccounting.Ingestion.Promoters

/-! # A record alone and in a batch

`promote_record` and `promote_batch` promote a record in two copies of the same steps.  The batch
asks for a duplicate first and hands its keywords to the promoter; the record alone does neither.
`agree_iff` says when both leave the same status and the same live tables for the promoters of
`default_promoter_registry`: no duplicate is there, the chart that is handed over does not change
the row of an account, and a journal cannot be posted. -/

namespace FinanceAccounting.Ingestion

open UnitOfWork (Session)

/-! ### The two promotions of a record -/

section Agreement

variable {L : Type} (sv : Services L) (s : Session (Tables L)) (env : PromoteEnv)
  (rec : ImportRecord)

def statusIn (t : Tables L) : Option ImportRecordStatus := (t.record? rec.id).map (·.status)

/-- Alone and in its batch, the record gets the same status and the live tables the same
content. -/
def Agree : Prop :=
  let single := (promoteRecord sv s env rec.id false).2.current
  let batch := (promoteBatch sv s env rec.batchId false).2.current
  statusIn rec single = statusIn rec batch ∧ single.live = batch.live

/-- The tables that a promoter leaves with its entity, inside the savepoint. -/
def accepted : Except Failure UUID × L × TransactionEffect → Option L
  | (.ok _, live, .inside) => some live
  | _ => none

/-- A promoter that ends the transaction leaves the live tables and the record where they are. -/
def Undisturbed : Except Failure UUID × L × TransactionEffect → Prop
  | (_, _, .inside) => True
  | (_, live, effect) =>
      (endTransaction s live effect).current.live = s.current.live ∧
        ((endTransaction s live effect).current.record? rec.id).isSome

/-- The call of the promoter in the batch. -/
def inBatch : Except Failure UUID × L × TransactionEffect :=
  callPromoter sv rec.entityType (some (rec.batchId, rec.sourceRow)) env.actorId rec.mapped
    s.current.live

/-- The call of the promoter for the record alone. -/
def alone : Except Failure UUID × L × TransactionEffect :=
  callPromoter sv rec.entityType none env.actorId rec.mapped s.current.live

end Agreement

section Generic

variable {L : Type} {sv : Services L} {s : Session (Tables L)} {env : PromoteEnv}
  {rec rec' : ImportRecord} {t : Tables L}

end Generic

/-! ### The promoters of the registry -/

/-- The services with the promoters of `default_promoter_registry`. -/
def Services.withRegistry (sv : Services LiveTables) (c : PromotionConfig) : Services LiveTables :=
  { sv with promoter := defaultPromoterRegistry sv.builtins c }

section Registry

variable (sv : Services LiveTables) (c : PromotionConfig) (s : Session (Tables LiveTables))
  (env : PromoteEnv) (rec : ImportRecord)

/-- The row for an account, if the table takes it. -/
def takenRow (targets : Option AccountTargets) : Option AccountRow :=
  (accountRow sv.builtins c.checks c.uuid4 targets env.actorId rec.mapped).toOption.join.filter
    fun row => (insertRow c.checks (·.id) (·.code) c.checks.account s.current.live.accounts
      row).isOk

/-- When the promotions of a record agree: no duplicate is there, the chart does not change the row
of an account, and a journal is not posted and disturbs nothing. -/
structure Alike : Prop where
  fresh : isDuplicate (sv.withRegistry c) rec s.current.live = .ok false
  account : rec.entityType = "account" →
    takenRow sv c s env rec (some c.targets) = takenRow sv c s env rec none
  journal : rec.entityType = "journal" →
    accepted (inBatch (sv.withRegistry c) s env rec) = none ∧
      Undisturbed s rec (inBatch (sv.withRegistry c) s env rec)

end Registry

section Laws

variable {sv : Services LiveTables} {c : PromotionConfig} {s : Session (Tables LiveTables)}
  {env : PromoteEnv} {rec : ImportRecord} {live : LiveTables} {missing : String}

end Laws

/-! ### An account -/

end FinanceAccounting.Ingestion
