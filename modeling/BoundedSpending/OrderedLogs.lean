import Mathlib.Data.List.Forall2
import Mathlib.Data.List.Range
import Mathlib.Algebra.Order.BigOperators.Group.List
import Mathlib.Tactic.Common

set_option autoImplicit false

namespace BoundedSpending.OrderedLogs

section Numbers

variable {κ : Type} [DecidableEq κ]

def numbersOf (key : κ) : List (κ × ℕ) → List ℕ
  | [] => []
  | e :: log => if e.1 = key then e.2 :: numbersOf key log else numbersOf key log

/-- Under each key the numbers rise, and the counter is above all of them. -/
def Numbered (counter : κ → ℕ) (log : List (κ × ℕ)) : Prop :=
  ∀ key, (numbersOf key log).Pairwise (· > ·) ∧ ∀ n ∈ numbersOf key log, n < counter key

def Gapless (counter : κ → ℕ) (key : κ) (log : List (κ × ℕ)) : Prop :=
  numbersOf key log = (List.range (counter key)).reverse

variable {counter : κ → ℕ} {log : List (κ × ℕ)} {key key' : κ} {n : ℕ}

theorem numbered_nil (counter : κ → ℕ) : Numbered counter [] :=
  fun _ => ⟨List.Pairwise.nil, fun _ hmem => nomatch hmem⟩

theorem numbersOf_cons_self (key : κ) (n : ℕ) (log : List (κ × ℕ)) :
    numbersOf key ((key, n) :: log) = n :: numbersOf key log := if_pos rfl

theorem numbersOf_cons_of_ne (h : key' ≠ key) (n : ℕ) (log : List (κ × ℕ)) :
    numbersOf key ((key', n) :: log) = numbersOf key log := if_neg h

theorem mem_numbersOf : n ∈ numbersOf key log ↔ (key, n) ∈ log := by
  induction log with
  | nil => simp [numbersOf]
  | cons e log ih =>
    obtain ⟨key', m⟩ := e
    by_cases hkey : key' = key
    · subst hkey
      simp [numbersOf_cons_self, ih]
    · simp [numbersOf_cons_of_ne hkey, ih, Ne.symm hkey]

theorem Numbered.issue (h : Numbered counter log) (key : κ) :
    Numbered (Function.update counter key (counter key + 1)) ((key, counter key) :: log) := by
  intro key'
  by_cases hkey : key = key'
  · subst hkey
    rw [numbersOf_cons_self, Function.update_self]
    refine ⟨List.pairwise_cons.mpr ⟨(h key).2, (h key).1⟩, ?_⟩
    intro n hmem
    rcases List.mem_cons.mp hmem with rfl | hmem
    · exact Nat.lt_succ_self _
    · exact Nat.lt_succ_of_lt ((h key).2 n hmem)
  · rw [numbersOf_cons_of_ne hkey, Function.update_of_ne (Ne.symm hkey)]
    exact h key'

theorem Numbered.skip (h : Numbered counter log) {m : ℕ} (hle : counter key ≤ m) :
    Numbered (Function.update counter key m) log := by
  intro key'
  by_cases hkey : key' = key
  · subst hkey
    rw [Function.update_self]
    exact ⟨(h key').1, fun n hmem => ((h key').2 n hmem).trans_le hle⟩
  · rw [Function.update_of_ne hkey]
    exact h key'

theorem Numbered.nodup (h : Numbered counter log) : log.Nodup := by
  induction log generalizing counter with
  | nil => exact List.nodup_nil
  | cons e log ih =>
    obtain ⟨key, n⟩ := e
    have htail : Numbered counter log := by
      intro key'
      have hkey' := h key'
      by_cases hkey : key = key'
      · subst hkey
        rw [numbersOf_cons_self] at hkey'
        exact ⟨hkey'.1.of_cons, fun m hmem => hkey'.2 m (List.mem_cons_of_mem n hmem)⟩
      · rwa [numbersOf_cons_of_ne hkey] at hkey'
    refine List.nodup_cons.mpr ⟨?_, ih htail⟩
    intro hmem
    have hrising := (h key).1
    rw [numbersOf_cons_self] at hrising
    exact lt_irrefl n (List.rel_of_pairwise_cons hrising (mem_numbersOf.mpr hmem))

theorem gapless_nil (h : counter key = 0) : Gapless counter key [] := by
  rw [Gapless, h]
  rfl

theorem Gapless.issue (h : Gapless counter key log) (key' : κ) :
    Gapless (Function.update counter key' (counter key' + 1)) key
      ((key', counter key') :: log) := by
  unfold Gapless at h ⊢
  by_cases hkey : key' = key
  · subst hkey
    rw [numbersOf_cons_self, Function.update_self, List.range_succ, List.reverse_append, h]
    rfl
  · rw [numbersOf_cons_of_ne hkey, Function.update_of_ne (Ne.symm hkey), h]

theorem Gapless.skip (h : Gapless counter key log) (hne : key ≠ key') (m : ℕ) :
    Gapless (Function.update counter key' m) key log := by
  unfold Gapless at h ⊢
  rw [Function.update_of_ne hne, h]

end Numbers

section Queues

variable {α β : Type} {R : α → β → Prop} {queue entered : List α} {gone : List β} {x : α} {y : β}

/-- What entered a queue has left it in the same order, or waits in it. -/
def InOrder (R : α → β → Prop) (queue entered : List α) (gone : List β) : Prop :=
  ∃ older, entered = queue.reverse ++ older ∧ List.Forall₂ R older gone

theorem inOrder_nil (R : α → β → Prop) : InOrder R [] [] [] := ⟨[], rfl, .nil⟩

theorem InOrder.enter (h : InOrder R queue entered gone) (x : α) :
    InOrder R (queue ++ [x]) (x :: entered) gone := by
  obtain ⟨older, rfl, hall⟩ := h
  refine ⟨older, ?_, hall⟩
  rw [List.reverse_append]
  rfl

theorem InOrder.leave (h : InOrder R (x :: queue) entered gone) (hr : R x y) :
    InOrder R queue entered (y :: gone) := by
  obtain ⟨older, rfl, hall⟩ := h
  refine ⟨x :: older, ?_, .cons hr hall⟩
  rw [List.reverse_cons, List.append_assoc]
  rfl

theorem InOrder.drained (h : InOrder R [] entered gone) : List.Forall₂ R entered gone := by
  obtain ⟨older, rfl, hall⟩ := h
  exact hall

theorem exists_entered {xs : List α} (h : List.Forall₂ R xs gone) (hmem : y ∈ gone) :
    ∃ x ∈ xs, R x y := by
  induction h with
  | nil => exact nomatch hmem
  | cons hr _ ih =>
    rcases List.mem_cons.mp hmem with rfl | hmem
    · exact ⟨_, List.mem_cons_self, hr⟩
    · obtain ⟨x, hx, hxy⟩ := ih hmem
      exact ⟨x, List.mem_cons_of_mem _ hx, hxy⟩

end Queues

end BoundedSpending.OrderedLogs
