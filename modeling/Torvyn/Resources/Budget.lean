/-
# Memory budgets

The per-component budgets of `budget.rs`. A budget is a 64-bit counter of reserved bytes and
its limit. The counter is updated by machine arithmetic: `current + bytes` is computed before
it is compared with the limit, and a release subtracts without a check.
-/
import Torvyn.Resources.Handle

namespace Torvyn

/-- The budget of one component. -/
structure ComponentBudget where
  maxOwnedBytes : ℕ
  currentOwnedBytes : ℕ
  deriving DecidableEq, Repr

namespace ComponentBudget

/-- A budget of which nothing is reserved. -/
def new (maxOwnedBytes : ℕ) : ComponentBudget :=
  ⟨maxOwnedBytes, 0⟩

/-- Reserve `bytes` of the budget. -/
def tryReserve (bytes : ℕ) (component : ComponentId) (budget : ComponentBudget) :
    Except ResourceError ComponentBudget :=
  let current := budget.currentOwnedBytes
  let newTotal := (current + bytes) % 2 ^ 64
  if newTotal > budget.maxOwnedBytes then
    .error (.budgetExceeded component current bytes budget.maxOwnedBytes)
  else .ok { budget with currentOwnedBytes := newTotal }

/-- Give `bytes` back; `fetch_sub` wraps around. -/
def release (bytes : ℕ) (budget : ComponentBudget) : ComponentBudget :=
  { budget with currentOwnedBytes := (budget.currentOwnedBytes + 2 ^ 64 - bytes) % 2 ^ 64 }

@[simp] theorem release_maxOwnedBytes (bytes : ℕ) (budget : ComponentBudget) :
    (budget.release bytes).maxOwnedBytes = budget.maxOwnedBytes := by
  cases budget
  rfl

/-- The counter is exact for a reservation that stays in the range of the counter. -/
theorem tryReserve_spec {bytes : ℕ} {component : ComponentId} {budget budget' : ComponentBudget}
    (h : budget.tryReserve bytes component = .ok budget')
    (hfits : budget.currentOwnedBytes + bytes < 2 ^ 64) :
    budget' = { budget with currentOwnedBytes := budget.currentOwnedBytes + bytes } ∧
    budget.currentOwnedBytes + bytes ≤ budget.maxOwnedBytes := by
  simp only [tryReserve, Nat.mod_eq_of_lt hfits] at h
  split_ifs at h with hle
  exact ⟨(Except.ok.inj h).symm, by omega⟩

/-- The counter is exact for a release of reserved bytes. -/
theorem release_spec {bytes : ℕ} {budget : ComponentBudget}
    (hle : bytes ≤ budget.currentOwnedBytes) (hfits : budget.currentOwnedBytes < 2 ^ 64) :
    budget.release bytes =
      { budget with currentOwnedBytes := budget.currentOwnedBytes - bytes } := by
  have heq : (budget.currentOwnedBytes + 2 ^ 64 - bytes) % 2 ^ 64 =
      budget.currentOwnedBytes - bytes := by omega
  rw [release, heq]

end ComponentBudget

/-- The budgets of the registered components. The flags `wrapped` are ghosts that no operation
reads: the flag of a component is set when the arithmetic of its counter leaves its range. -/
structure BudgetRegistry where
  budgets : ComponentId → Option ComponentBudget
  defaultMax : ℕ
  wrapped : ComponentId → Bool

namespace BudgetRegistry

/-- A registry without components. -/
def new (defaultMax : ℕ) : BudgetRegistry where
  budgets _ := none
  defaultMax := defaultMax
  wrapped _ := false

/-- Register a component. -/
def register (component : ComponentId) (maxOwnedBytes : Option ℕ) (registry : BudgetRegistry) :
    BudgetRegistry :=
  let max := maxOwnedBytes.getD registry.defaultMax
  { registry with
    budgets := Function.update registry.budgets component (some (.new max)) }

/-- Forget a component. -/
def unregister (component : ComponentId) (registry : BudgetRegistry) : BudgetRegistry :=
  { registry with budgets := Function.update registry.budgets component none }

/-- Reserve bytes for a component; one that is not registered has no limit. -/
def tryReserve (component : ComponentId) (bytes : ℕ) (registry : BudgetRegistry) :
    Except ResourceError BudgetRegistry :=
  match registry.budgets component with
  | none => .ok registry
  | some budget =>
    match budget.tryReserve bytes component with
    | .error e => .error e
    | .ok budget' =>
      .ok { registry with
        budgets := Function.update registry.budgets component (some budget')
        wrapped := Function.update registry.wrapped component
          (registry.wrapped component || decide (2 ^ 64 ≤ budget.currentOwnedBytes + bytes)) }

/-- Release bytes for a component. -/
def releaseBytes (component : ComponentId) (bytes : ℕ) (registry : BudgetRegistry) :
    BudgetRegistry :=
  match registry.budgets component with
  | none => registry
  | some budget =>
    { registry with
      budgets := Function.update registry.budgets component (some (budget.release bytes))
      wrapped := Function.update registry.wrapped component
        (registry.wrapped component || decide (budget.currentOwnedBytes < bytes)) }

/-- The reservation that `allocate` and `transfer_ownership` make: only a component has a
budget. -/
def reserveFor (owner : OwnerId) (bytes : ℕ) (registry : BudgetRegistry) :
    Except ResourceError BudgetRegistry :=
  match owner with
  | .component component => registry.tryReserve component bytes
  | _ => .ok registry

/-- The release that goes with it. -/
def releaseFor (owner : OwnerId) (bytes : ℕ) (registry : BudgetRegistry) : BudgetRegistry :=
  match owner with
  | .component component => registry.releaseBytes component bytes
  | _ => registry

end BudgetRegistry

end Torvyn
