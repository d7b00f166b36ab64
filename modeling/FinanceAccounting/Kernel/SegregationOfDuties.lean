import FinanceAccounting.Kernel.WorkflowExecutor

/-! # Segregation of duties

`check_rbac` lets an actor act under an authority role or, where none is required, under all
assigned roles.  An actor without roles is then let through: no role provider is configured.
Roles in conflict are looked for among all roles of the actor, permissions in conflict among those
of the acting roles.

`Admitted` is what a call that is allowed has passed.  Two calls of one actor that act under the
same roles are never allowed two permissions in conflict (`conflict_denied`). -/

namespace FinanceAccounting.WorkflowExecutor

open Approval
open UnitOfWork (Session)

/-- `check_rbac` allows the call. -/
def Allowed (rbac : CompiledRbacConfig) (assignedRoles : List String)
    (authorityRole : Option String) (permission : String) : Prop :=
  checkRbac rbac assignedRoles authorityRole permission = none

instance (rbac : CompiledRbacConfig) (assignedRoles : List String) (authorityRole : Option String)
    (permission : String) : Decidable (Allowed rbac assignedRoles authorityRole permission) := by
  unfold Allowed
  infer_instance

/-- Two calls act under the same roles. -/
def ActAlike (rbac : CompiledRbacConfig) (role role' : Option String) : Prop :=
  rbac.authorityRoleRequired = false ∨ role = role'

/-- What a call of an actor who acts under these roles has passed. -/
structure Admitted (rbac : CompiledRbacConfig) (assignedRoles roles : List String)
    (permission : String) : Prop where
  granted : permission ∈ roles.flatMap (permissionsOf rbac)
  /-- The actor does not hold all roles of a conflict. -/
  roleConflicts : ∀ pair ∈ rbac.roleConflicts, ¬∀ role ∈ pair, role ∈ assignedRoles
  /-- The acting roles do not grant another permission of a conflict. -/
  permissionConflicts : ∀ pair ∈ rbac.permissionConflictsHard, permission ∈ pair →
    ∀ other ∈ pair, other ≠ permission → other ∉ roles.flatMap (permissionsOf rbac)

section Laws

variable {rbac : CompiledRbacConfig} {assignedRoles roles : List String}
variable {authorityRole role role' : Option String} {p q permission : String}

theorem admitted_of_allowed (hallowed : Allowed rbac assignedRoles authorityRole permission) :
    ∃ roles, checkRbac.actingRoles rbac assignedRoles authorityRole = .ok roles ∧
      (roles ≠ [] → Admitted rbac assignedRoles roles permission) := by
  unfold Allowed checkRbac at hallowed
  cases hacting : checkRbac.actingRoles rbac assignedRoles authorityRole with
  | error reason => simp [hacting] at hallowed
  | ok roles =>
      refine ⟨roles, rfl, fun hroles => ?_⟩
      cases roles with
      | nil => exact absurd rfl hroles
      | cons first rest =>
          simp only [hacting] at hallowed
          split at hallowed
          · cases hallowed
          · rename_i hgranted
            rw [Bool.not_eq_true', Bool.not_eq_false] at hgranted
            split at hallowed
            · cases hallowed
            · rename_i hconflicts
              rw [Option.map_eq_none_iff] at hallowed
              refine ⟨List.contains_iff_mem.mp hgranted, fun pair hpair hheld => ?_,
                fun pair hpair hmem other hother hne hgrants => ?_⟩
              · have hnot := List.find?_eq_none.mp hconflicts pair hpair
                exact hnot (List.all_eq_true.mpr fun r hr => List.contains_iff_mem.mpr (hheld r hr))
              · have hnot := List.find?_eq_none.mp hallowed pair hpair
                refine hnot ((Bool.and_eq_true _ _).mpr ⟨List.contains_iff_mem.mpr hmem, ?_⟩)
                refine List.any_eq_true.mpr ⟨other, hother, ?_⟩
                exact (Bool.and_eq_true _ _).mpr
                  ⟨decide_eq_true hne, List.contains_iff_mem.mpr hgrants⟩

/-- An actor with roles acts under a role, or is denied. -/
theorem actingRoles_ne_nil (hassigned : assignedRoles ≠ [])
    (h : checkRbac.actingRoles rbac assignedRoles authorityRole = .ok roles) : roles ≠ [] := by
  unfold checkRbac.actingRoles at h
  split at h
  · split at h
    · cases h
    · split at h
      · cases h
      · split at h
        · cases h
        · obtain rfl := Except.ok.inj h
          exact List.cons_ne_nil _ _
  · obtain rfl := Except.ok.inj h
    exact hassigned

theorem actingRoles_of_alike (h : ActAlike rbac role role') :
    checkRbac.actingRoles rbac assignedRoles role = checkRbac.actingRoles rbac assignedRoles role' := by
  rcases h with hfree | rfl
  · unfold checkRbac.actingRoles
    rw [hfree]
    rfl
  · rfl

/-- **The permission check**: of two permissions in conflict, one is denied to calls that act
alike. -/
theorem conflict_denied (hassigned : assignedRoles ≠ []) (halike : ActAlike rbac role role')
    {pair : List String} (hpair : pair ∈ rbac.permissionConflictsHard) (hp : p ∈ pair) (hq : q ∈ pair)
    (hne : p ≠ q) (hallowed : Allowed rbac assignedRoles role p) :
    ¬Allowed rbac assignedRoles role' q := by
  intro hallowed'
  obtain ⟨roles, hroles, hadmitted⟩ := admitted_of_allowed hallowed
  obtain ⟨roles', hroles', hadmitted'⟩ := admitted_of_allowed hallowed'
  rw [← actingRoles_of_alike halike, hroles, Except.ok.injEq] at hroles'
  subst hroles'
  have hadmits := hadmitted (actingRoles_ne_nil hassigned hroles)
  have hadmits' := hadmitted' (actingRoles_ne_nil hassigned hroles)
  exact hadmits.permissionConflicts pair hpair hp q hq hne.symm hadmits'.granted

/-- **The role check**: an actor with all roles of a conflict is allowed nothing. -/
theorem roles_denied (hassigned : assignedRoles ≠ []) {pair : List String}
    (hpair : pair ∈ rbac.roleConflicts) (hheld : ∀ role ∈ pair, role ∈ assignedRoles) :
    ¬Allowed rbac assignedRoles authorityRole permission := by
  intro hallowed
  obtain ⟨roles, hroles, hadmitted⟩ := admitted_of_allowed hallowed
  exact (hadmitted (actingRoles_ne_nil hassigned hroles)).roleConflicts pair hpair hheld

/-! ### The law of the check -/

/-- **Segregation of duties.** An actor with roles is not allowed both permissions of a hard
conflict by calls that act alike, and an actor with all roles of a conflict is allowed nothing. -/
theorem duties_segregated (rbac : CompiledRbacConfig) (assignedRoles : List String)
    (hassigned : assignedRoles ≠ []) :
    (∀ pair ∈ rbac.permissionConflictsHard, ∀ p ∈ pair, ∀ q ∈ pair, p ≠ q →
      ∀ role role', ActAlike rbac role role' →
        ¬(Allowed rbac assignedRoles role p ∧ Allowed rbac assignedRoles role' q)) ∧
    ∀ pair ∈ rbac.roleConflicts, (∀ role ∈ pair, role ∈ assignedRoles) →
      ∀ authorityRole permission, ¬Allowed rbac assignedRoles authorityRole permission := by
  constructor
  · intro pair hpair p hp q hq hne role role' halike hboth
    exact conflict_denied hassigned halike hpair hp hq hne hboth.1 hboth.2
  · intro pair hpair hheld authorityRole permission
    exact roles_denied hassigned hpair hheld

/-- Entering and approving invoices are in conflict, and so are the two roles. -/
def sampleRbac (authorityRoleRequired : Bool) (roleConflicts : List (List String)) :
    CompiledRbacConfig where
  authorityRoleRequired := authorityRoleRequired
  rolePermissions :=
    [("ap_clerk", ["ap.invoice.enter"]), ("ap_manager", ["ap.invoice.approve"])]
  roleConflicts := roleConflicts
  permissionConflictsHard := [["ap.invoice.enter", "ap.invoice.approve"]]

theorem sample_duties_segregated :
    ¬(Allowed (sampleRbac false []) ["ap_clerk", "ap_manager"] none "ap.invoice.enter" ∧
        Allowed (sampleRbac false []) ["ap_clerk", "ap_manager"] none "ap.invoice.approve") ∧
      ¬Allowed (sampleRbac true [["ap_clerk", "ap_manager"]]) ["ap_clerk", "ap_manager"]
        (some "ap_clerk") "ap.invoice.enter" :=
  ⟨(duties_segregated (sampleRbac false []) ["ap_clerk", "ap_manager"] (List.cons_ne_nil _ _)).1
      ["ap.invoice.enter", "ap.invoice.approve"] (by decide) "ap.invoice.enter" (by decide)
      "ap.invoice.approve" (by decide) (by decide) none none (Or.inl rfl),
    (duties_segregated (sampleRbac true [["ap_clerk", "ap_manager"]]) ["ap_clerk", "ap_manager"]
      (List.cons_ne_nil _ _)).2 ["ap_clerk", "ap_manager"] (by decide) (by decide)
      (some "ap_clerk") "ap.invoice.enter"⟩

/-- **An actor without roles is allowed both permissions of a conflict**, and so is one who acts
as clerk first and as manager then. -/
theorem duties_joined :
    Allowed (sampleRbac false []) [] none "ap.invoice.enter" ∧
      Allowed (sampleRbac false []) [] none "ap.invoice.approve" ∧
      Allowed (sampleRbac true []) ["ap_clerk", "ap_manager"] (some "ap_clerk")
        "ap.invoice.enter" ∧
      Allowed (sampleRbac true []) ["ap_clerk", "ap_manager"] (some "ap_manager")
        "ap.invoice.approve" ∧
      ¬∀ (rbac : CompiledRbacConfig) (assignedRoles : List String),
        ∀ pair ∈ rbac.permissionConflictsHard, ∀ p ∈ pair, ∀ q ∈ pair, p ≠ q →
          ∀ role role', ¬(Allowed rbac assignedRoles role p ∧ Allowed rbac assignedRoles role' q) := by
  have henter : Allowed (sampleRbac false []) [] none "ap.invoice.enter" := rfl
  have happrove : Allowed (sampleRbac false []) [] none "ap.invoice.approve" := rfl
  refine ⟨henter, happrove, by decide +kernel, by decide +kernel, fun h => ?_⟩
  exact h (sampleRbac false []) [] ["ap.invoice.enter", "ap.invoice.approve"] (by decide)
    "ap.invoice.enter" (by decide) "ap.invoice.approve" (by decide) (by decide) none none
    ⟨henter, happrove⟩

end Laws

end FinanceAccounting.WorkflowExecutor
