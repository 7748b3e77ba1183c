import Mathlib.Tactic.Common
import Mathlib.Algebra.Order.Ring.Nat

set_option autoImplicit false

/-!
# Logs of time-stamped entries

The newest entry is the head. A weight picks the amount of an entry that is
being summed; an entry of weight zero does not count.
-/
namespace BoundedSpending.TimedLog

variable {α : Type}

def sumSince (weight : α → ℕ) (a : ℕ) : List (ℕ × α) → ℕ
  | [] => 0
  | e :: log => (if a ≤ e.1 then weight e.2 else 0) + sumSince weight a log

def sumIn (weight : α → ℕ) (a b : ℕ) : List (ℕ × α) → ℕ
  | [] => 0
  | e :: log => (if a ≤ e.1 ∧ e.1 ≤ b then weight e.2 else 0) + sumIn weight a b log

def stamped (now : ℕ) (entries : List α) : List (ℕ × α) := entries.map fun x => (now, x)

def StampedBefore (weight : α → ℕ) (bound : ℕ) (log : List (ℕ × α)) : Prop :=
  ∀ e ∈ log, 0 < weight e.2 → e.1 < bound

@[simp] theorem sumSince_nil (weight : α → ℕ) (a : ℕ) : sumSince weight a [] = 0 := rfl

@[simp] theorem sumIn_nil (weight : α → ℕ) (a b : ℕ) : sumIn weight a b [] = 0 := rfl

theorem forall_stamped {p : α → Prop} {now : ℕ} {entries : List α} (h : ∀ x ∈ entries, p x) :
    ∀ e ∈ stamped now entries, p e.2 := by
  intro e hmem
  obtain ⟨x, hx, rfl⟩ := List.mem_map.mp hmem
  exact h x hx

theorem sumSince_append (weight : α → ℕ) (a : ℕ) (xs ys : List (ℕ × α)) :
    sumSince weight a (xs ++ ys) = sumSince weight a xs + sumSince weight a ys := by
  induction xs with
  | nil => simp
  | cons e xs ih => simp only [List.cons_append, sumSince, ih]; omega

theorem sumSince_add (weight weight' : α → ℕ) (a : ℕ) (log : List (ℕ × α)) :
    sumSince (fun x => weight x + weight' x) a log =
      sumSince weight a log + sumSince weight' a log := by
  induction log with
  | nil => rfl
  | cons e log ih =>
    simp only [sumSince, ih]
    split_ifs <;> omega

theorem sumIn_append (weight : α → ℕ) (a b : ℕ) (xs ys : List (ℕ × α)) :
    sumIn weight a b (xs ++ ys) = sumIn weight a b xs + sumIn weight a b ys := by
  induction xs with
  | nil => simp
  | cons e xs ih => simp only [List.cons_append, sumIn, ih]; omega

theorem sumSince_stamped (weight : α → ℕ) (a now : ℕ) (entries : List α) :
    sumSince weight a (stamped now entries) = if a ≤ now then (entries.map weight).sum else 0 := by
  induction entries with
  | nil => simp [stamped]
  | cons x entries ih =>
    change (if a ≤ now then weight x else 0) + sumSince weight a (stamped now entries) = _
    rw [ih, List.map_cons, List.sum_cons]
    split_ifs <;> rfl

theorem sumIn_stamped (weight : α → ℕ) (a b now : ℕ) (entries : List α) :
    sumIn weight a b (stamped now entries) =
      if a ≤ now ∧ now ≤ b then (entries.map weight).sum else 0 := by
  induction entries with
  | nil => simp [stamped]
  | cons x entries ih =>
    change (if a ≤ now ∧ now ≤ b then weight x else 0) + sumIn weight a b (stamped now entries) = _
    rw [ih, List.map_cons, List.sum_cons]
    split_ifs <;> rfl

theorem sumIn_le_sumSince (weight : α → ℕ) (a b : ℕ) (log : List (ℕ × α)) :
    sumIn weight a b log ≤ sumSince weight a log := by
  induction log with
  | nil => exact Nat.le_refl _
  | cons e log ih =>
    simp only [sumIn, sumSince]
    split_ifs <;> omega

theorem sumSince_anti (weight : α → ℕ) {a a' : ℕ} (h : a ≤ a') (log : List (ℕ × α)) :
    sumSince weight a' log ≤ sumSince weight a log := by
  induction log with
  | nil => exact Nat.le_refl _
  | cons e log ih =>
    simp only [sumSince]
    split_ifs <;> omega

theorem sumSince_eq_zero (weight : α → ℕ) (a : ℕ) (log : List (ℕ × α))
    (h : StampedBefore weight a log) : sumSince weight a log = 0 := by
  induction log with
  | nil => rfl
  | cons e log ih =>
    have hlog := ih (fun e he => h e (List.mem_cons_of_mem _ he))
    have he := h e List.mem_cons_self
    simp only [sumSince, hlog, Nat.add_zero, ite_eq_right_iff]
    intro ha
    by_contra hw
    have := he (Nat.pos_of_ne_zero hw)
    omega

theorem sumIn_eq_sumSince (weight : α → ℕ) (a b : ℕ) (log : List (ℕ × α))
    (h : StampedBefore weight (b + 1) log) : sumIn weight a b log = sumSince weight a log := by
  induction log with
  | nil => rfl
  | cons e log ih =>
    have hlog := ih (fun e he => h e (List.mem_cons_of_mem _ he))
    have he := h e List.mem_cons_self
    simp only [sumIn, sumSince, hlog]
    by_cases hw : weight e.2 = 0
    · simp [hw]
    · have := he (Nat.pos_of_ne_zero hw)
      have hc : (a ≤ e.1 ∧ e.1 ≤ b) ↔ a ≤ e.1 := by omega
      simp only [hc]

theorem StampedBefore.mono {weight : α → ℕ} {bound bound' : ℕ} {log : List (ℕ × α)}
    (h : StampedBefore weight bound log) (hb : bound ≤ bound') :
    StampedBefore weight bound' log :=
  fun e he hw => (h e he hw).trans_le hb

theorem StampedBefore.cons {weight : α → ℕ} {bound : ℕ} {log : List (ℕ × α)} {e : ℕ × α}
    (h : StampedBefore weight bound log) (he : 0 < weight e.2 → e.1 < bound) :
    StampedBefore weight bound (e :: log) := by
  intro e' hmem
  rcases List.mem_cons.mp hmem with rfl | hmem
  · exact he
  · exact h e' hmem

theorem exists_bound (log : List (ℕ × α)) : ∃ bound, ∀ e ∈ log, e.1 < bound := by
  induction log with
  | nil => exact ⟨0, fun _ hmem => nomatch hmem⟩
  | cons e log ih =>
    obtain ⟨bound, hbound⟩ := ih
    refine ⟨max bound (e.1 + 1), ?_⟩
    intro e' hmem
    rcases List.mem_cons.mp hmem with rfl | hmem
    · omega
    · have := hbound e' hmem
      omega

/-- A comparison over every interval is one over every suffix. -/
theorem sumSince_le_of_sumIn_le {weight weight' : α → ℕ} {log : List (ℕ × α)}
    (h : ∀ a b, sumIn weight a b log ≤ sumIn weight' a b log) (a : ℕ) :
    sumSince weight a log ≤ sumSince weight' a log := by
  obtain ⟨bound, hbound⟩ := exists_bound log
  have hlast : ∀ v : α → ℕ, sumIn v a bound log = sumSince v a log := by
    intro v
    exact sumIn_eq_sumSince v a bound log fun e hmem _ => (hbound e hmem).trans (Nat.lt_succ_self _)
  rw [← hlast weight, ← hlast weight']
  exact h a bound

end BoundedSpending.TimedLog
