import Mathlib.Algebra.BigOperators.Group.Finset.Basic
import Mathlib.Algebra.Order.BigOperators.Group.Finset
import Mathlib.Algebra.Order.Ring.Nat

set_option autoImplicit false

namespace BoundedSpending.Holdings

variable {α : Type}

def Covered (holding : α → ℕ) (due funds : ℕ) : Prop :=
  ∀ S : Finset α, ∑ a ∈ S, holding a + due ≤ funds

variable {holding : α → ℕ} {due due' funds funds' n v : ℕ} {a b : α}

theorem covered_of_zero (hzero : ∀ a, holding a = 0) (hdue : due ≤ funds) :
    Covered holding due funds := by
  intro S
  rw [Finset.sum_eq_zero fun a _ => hzero a, Nat.zero_add]
  exact hdue

theorem Covered.due_le (h : Covered holding due funds) : due ≤ funds := by
  have hempty := h ∅
  rwa [Finset.sum_empty, Nat.zero_add] at hempty

theorem Covered.holding_le (h : Covered holding due funds) (a : α) : holding a + due ≤ funds := by
  have hone := h {a}
  rwa [Finset.sum_singleton] at hone

theorem Covered.mono (h : Covered holding due funds) (hdue : due' + funds ≤ due + funds') :
    Covered holding due' funds' := by
  intro S
  have hS := h S
  omega

theorem Covered.pay (h : Covered holding (due + n) funds) :
    Covered holding due (funds - n) := by
  have hle := h.due_le
  exact h.mono (by omega)

variable [DecidableEq α]

theorem sum_update_insert (holding : α → ℕ) (v : ℕ) (S : Finset α) (hnot : a ∉ S) :
    ∑ b ∈ insert a S, Function.update holding a v b = v + ∑ b ∈ S, holding b := by
  rw [Finset.sum_insert hnot, Function.update_self]
  refine congrArg (v + ·) (Finset.sum_congr rfl ?_)
  intro b hb
  exact Function.update_of_ne (ne_of_mem_of_not_mem hb hnot) v holding

theorem Covered.update (h : Covered holding due funds)
    (hv : v + due' + funds ≤ holding a + due + funds') :
    Covered (Function.update holding a v) due' funds' := by
  intro S
  by_cases ha : a ∈ S
  · have hsum := sum_update_insert holding v (S.erase a) (Finset.notMem_erase a S)
    rw [Finset.insert_erase ha] at hsum
    have hold := h S
    rw [← Finset.insert_erase ha, Finset.sum_insert (Finset.notMem_erase a S)] at hold
    rw [hsum]
    omega
  · have hsame : ∑ b ∈ S, Function.update holding a v b = ∑ b ∈ S, holding b := by
      refine Finset.sum_congr rfl ?_
      intro b hb
      exact Function.update_of_ne (ne_of_mem_of_not_mem hb ha) v holding
    have hold := h (insert a S)
    rw [Finset.sum_insert ha] at hold
    rw [hsame]
    omega

/-- Incoming money is credited; a wrapped-around credit is only smaller. -/
theorem Covered.credit (h : Covered holding due funds) (hv : v ≤ holding a + n) :
    Covered (Function.update holding a v) due (funds + n) :=
  h.update (by omega)

theorem Covered.reserve (h : Covered holding due funds) (hv : v + n ≤ holding a) :
    Covered (Function.update holding a v) (due + n) funds :=
  h.update (by omega)

theorem Covered.refund (h : Covered holding (due + n) funds)
    (hv : v ≤ holding a + n) : Covered (Function.update holding a v) due funds :=
  h.update (by omega)

theorem Covered.withdraw (h : Covered holding due funds) (hv : v + n ≤ holding a) :
    Covered (Function.update holding a v) due (funds - n) := by
  have hle := h.holding_le a
  exact h.update (by omega)

def amountFor (a : α) : List (α × ℕ) → ℕ
  | [] => 0
  | e :: entries => (if e.1 = a then e.2 else 0) + amountFor a entries

theorem amountFor_append (a : α) (xs ys : List (α × ℕ)) :
    amountFor a (xs ++ ys) = amountFor a xs + amountFor a ys := by
  induction xs with
  | nil => exact (Nat.zero_add _).symm
  | cons e xs ih =>
    simp only [List.cons_append, amountFor, ih]
    omega

theorem amountFor_perm {xs ys : List (α × ℕ)} (h : xs.Perm ys) (a : α) :
    amountFor a xs = amountFor a ys := by
  induction h with
  | nil => rfl
  | cons e _ ih => exact congrArg ((if e.1 = a then e.2 else 0) + ·) ih
  | swap e e' xs =>
    simp only [amountFor]
    omega
  | trans _ _ ih₁ ih₂ => exact ih₁.trans ih₂

theorem amountFor_eq_zero {xs : List (α × ℕ)} (h : ∀ e ∈ xs, e.1 ≠ a) : amountFor a xs = 0 := by
  induction xs with
  | nil => rfl
  | cons e xs ih =>
    rw [amountFor, if_neg (h e List.mem_cons_self),
      ih fun e' hmem => h e' (List.mem_cons_of_mem e hmem)]

/-- Each holding is what came in for it less what went out. -/
def Ledger (holding : α → ℕ) (outs ins : List (α × ℕ)) : Prop :=
  ∀ a, holding a + amountFor a outs = amountFor a ins

variable {outs outs' ins : List (α × ℕ)} {n' : ℕ}

theorem ledger_of_zero (hzero : ∀ a, holding a = 0) : Ledger holding [] [] := hzero

theorem Ledger.perm (h : Ledger holding outs ins) (hperm : outs.Perm outs') :
    Ledger holding outs' ins := by
  intro a
  rw [← amountFor_perm hperm a]
  exact h a

theorem Ledger.credit (h : Ledger holding outs ins) (hv : v = holding a + n) :
    Ledger (Function.update holding a v) outs ((a, n) :: ins) := by
  intro b
  have hb := h b
  by_cases hab : a = b
  · subst hab
    rw [Function.update_self, amountFor, if_pos rfl]
    omega
  · rw [Function.update_of_ne (Ne.symm hab), amountFor, if_neg hab, Nat.zero_add]
    exact hb

theorem Ledger.adjust (h : Ledger holding ((a, n) :: outs) ins) (hv : v + n' = holding a + n) :
    Ledger (Function.update holding a v) ((a, n') :: outs) ins := by
  intro b
  have hb := h b
  by_cases hab : a = b
  · subst hab
    rw [amountFor, if_pos rfl] at hb
    rw [Function.update_self, amountFor, if_pos rfl]
    dsimp only at hb ⊢
    omega
  · rw [amountFor, if_neg hab] at hb
    rw [Function.update_of_ne (Ne.symm hab), amountFor, if_neg hab]
    exact hb

theorem Ledger.debit (h : Ledger holding outs ins) (hv : v + n = holding a) :
    Ledger (Function.update holding a v) ((a, n) :: outs) ins := by
  have hnone : Ledger holding ((a, 0) :: outs) ins := by
    intro b
    rw [amountFor, ite_self, Nat.zero_add]
    exact h b
  exact hnone.adjust hv

end BoundedSpending.Holdings
