import Mathlib.Tactic.Common
import Mathlib.Algebra.Order.Ring.Nat

set_option autoImplicit false

namespace BoundedSpending.CheckedArithmetic

universe u

variable {ε α β : Type u}

def wordSize : ℕ := 2 ^ 256

def checkedAdd {ε : Type} (overflow : ε) (a b : ℕ) : Except ε ℕ :=
  if a + b < wordSize then .ok (a + b) else .error overflow

def checkedMul {ε : Type} (overflow : ε) (a b : ℕ) : Except ε ℕ :=
  if a * b < wordSize then .ok (a * b) else .error overflow

def require {ε : Type} (condition : Prop) [Decidable condition] (reason : ε) : Except ε Unit :=
  if condition then .ok () else .error reason

@[simp] theorem checkedAdd_eq_ok {ε : Type} {overflow : ε} {a b c : ℕ} :
    checkedAdd overflow a b = .ok c ↔ a + b < wordSize ∧ c = a + b := by
  unfold checkedAdd
  split_ifs with h <;> simp [h, eq_comm]

@[simp] theorem checkedMul_eq_ok {ε : Type} {overflow : ε} {a b c : ℕ} :
    checkedMul overflow a b = .ok c ↔ a * b < wordSize ∧ c = a * b := by
  unfold checkedMul
  split_ifs with h <;> simp [h, eq_comm]

@[simp] theorem require_eq_ok {ε : Type} {condition : Prop} [Decidable condition] {reason : ε}
    {u : Unit} : require condition reason = .ok u ↔ condition := by
  unfold require
  split_ifs with h <;> simp [h]

theorem bind_returns {x : Except ε α} {f : α → Except ε β} {b : β} :
    (x >>= f) = .ok b ↔ ∃ a, x = .ok a ∧ f a = .ok b := by
  constructor
  · intro h
    rcases x with e | a
    · exact nomatch h
    · exact ⟨a, rfl, h⟩
  · rintro ⟨a, rfl, h⟩
    exact h

theorem pure_returns {a b : α} : (pure a : Except ε α) = .ok b ↔ b = a := by
  simp [pure, Except.pure, eq_comm]

theorem toOption_eq_some {x : Except ε α} {a : α} : x.toOption = some a ↔ x = .ok a := by
  cases x with
  | error e => simp [Except.toOption]
  | ok v => simp [Except.toOption]

theorem toOption_map_eq_some {β : Type u} {x : Except ε α} {f : α → β} {b : β} :
    x.toOption.map f = some b ↔ ∃ a, x = .ok a ∧ f a = b := by
  cases x with
  | error e => simp [Except.toOption]
  | ok a => simp [Except.toOption]

def uncheckedAdd (a b : ℕ) : ℕ := (a + b) % wordSize

def uncheckedSub (a b : ℕ) : ℕ := (a + wordSize - b) % wordSize

def uncheckedMul (a b : ℕ) : ℕ := a * b % wordSize

theorem uncheckedAdd_of_lt {a b : ℕ} (h : a + b < wordSize) : uncheckedAdd a b = a + b :=
  Nat.mod_eq_of_lt h

theorem uncheckedMul_of_lt {a b : ℕ} (h : a * b < wordSize) : uncheckedMul a b = a * b :=
  Nat.mod_eq_of_lt h

theorem uncheckedSub_of_le {a b : ℕ} (h : b ≤ a) (ha : a < wordSize) :
    uncheckedSub a b = a - b := by
  have hshift : a + wordSize - b = a - b + wordSize := by omega
  rw [uncheckedSub, hshift, Nat.add_mod_right]
  exact Nat.mod_eq_of_lt (by omega)

end BoundedSpending.CheckedArithmetic
