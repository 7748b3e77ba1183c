import Mathlib.Algebra.Order.Ring.Nat
import Mathlib.Algebra.BigOperators.Group.List.Basic

set_option autoImplicit false

namespace BoundedSpending.TokenLedger

variable {α : Type} [DecidableEq α]

structure Move (α : Type) where
  src : α
  dst : α
  amount : ℕ

def debit (balance : α → ℕ) (a : α) (amount : ℕ) : α → ℕ :=
  Function.update balance a (balance a - amount)

def credit (balance : α → ℕ) (a : α) (amount : ℕ) : α → ℕ :=
  Function.update balance a (balance a + amount)

def transfer (balance : α → ℕ) (move : Move α) : Option (α → ℕ) :=
  if move.amount ≤ balance move.src then
    some (credit (debit balance move.src move.amount) move.dst move.amount)
  else none

def transfers : (α → ℕ) → List (Move α) → Option (α → ℕ)
  | balance, [] => some balance
  | balance, move :: moves => (transfer balance move).bind fun balance => transfers balance moves

def receipts (a : α) (moves : List (Move α)) : ℕ :=
  (moves.map fun move => if move.dst = a then move.amount else 0).sum

def Spares (a : α) (moves : List (Move α)) : Prop := ∀ move ∈ moves, move.src ≠ a

instance (a : α) (moves : List (Move α)) : Decidable (Spares a moves) :=
  inferInstanceAs (Decidable (∀ move ∈ moves, move.src ≠ a))

variable {balance balance' : α → ℕ} {a b : α} {move : Move α} {moves : List (Move α)}

theorem debit_of_ne {amount : ℕ} (h : b ≠ a) : debit balance a amount b = balance b :=
  Function.update_of_ne h _ _

theorem credit_self {amount : ℕ} : credit balance a amount a = balance a + amount :=
  Function.update_self _ _ _

theorem credit_of_ne {amount : ℕ} (h : b ≠ a) : credit balance a amount b = balance b :=
  Function.update_of_ne h _ _

theorem transfer_eq_some : transfer balance move = some balance' ↔
    move.amount ≤ balance move.src ∧
      balance' = credit (debit balance move.src move.amount) move.dst move.amount := by
  rw [transfer, Option.ite_none_right_eq_some, Option.some.injEq]
  exact and_congr_right fun _ => eq_comm

theorem transfer_spares (h : transfer balance move = some balance') (ha : move.src ≠ a) :
    balance' a = balance a + if move.dst = a then move.amount else 0 := by
  obtain ⟨_, rfl⟩ := transfer_eq_some.mp h
  by_cases hdst : move.dst = a
  · subst hdst
    rw [if_pos rfl, credit_self, debit_of_ne ha.symm]
  · rw [if_neg hdst, credit_of_ne (Ne.symm hdst), debit_of_ne ha.symm, Nat.add_zero]

theorem transfer_source (h : transfer balance move = some balance') (hdst : move.dst ≠ move.src) :
    balance' move.src = balance move.src - move.amount := by
  obtain ⟨_, rfl⟩ := transfer_eq_some.mp h
  rw [credit_of_ne hdst.symm]
  exact Function.update_self _ _ _

theorem transfers_spares (h : transfers balance moves = some balance') (ha : Spares a moves) :
    balance' a = balance a + receipts a moves := by
  induction moves generalizing balance with
  | nil =>
    obtain rfl := Option.some.inj h
    rfl
  | cons move moves ih =>
    obtain ⟨v, hv, hrest⟩ := Option.bind_eq_some_iff.mp h
    have hstep := transfer_spares hv (ha move List.mem_cons_self)
    have htail := ih hrest fun m hm => ha m (List.mem_cons_of_mem move hm)
    rw [htail, hstep, receipts, receipts, List.map_cons, List.sum_cons, Nat.add_assoc]

end BoundedSpending.TokenLedger
