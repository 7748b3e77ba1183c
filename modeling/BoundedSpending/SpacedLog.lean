import BoundedSpending.TimedLog

set_option autoImplicit false

namespace BoundedSpending.SpacedLog

open TimedLog

variable {α : Type} {gap : ℕ} {weight : α → ℕ} {guarded : α → Prop} {log : List (ℕ × α)}

def Spaced (gap : ℕ) (weight : α → ℕ) (guarded : α → Prop) (log : List (ℕ × α)) : Prop :=
  log.Pairwise fun newer older => guarded newer.2 → 0 < weight older.2 → older.1 + gap ≤ newer.1

def Admissible (gap : ℕ) (weight : α → ℕ) (now : ℕ) (log : List (ℕ × α)) : Prop :=
  ∀ older ∈ log, 0 < weight older.2 → older.1 + gap ≤ now

theorem Spaced.cons {e : ℕ × α} (h : Spaced gap weight guarded log)
    (he : guarded e.2 → Admissible gap weight e.1 log) : Spaced gap weight guarded (e :: log) := by
  refine List.pairwise_cons.mpr ⟨?_, h⟩
  intro older hmem hguarded
  exact he hguarded older hmem

theorem Spaced.append_unguarded {entries : List (ℕ × α)} (h : Spaced gap weight guarded log)
    (hquiet : ∀ e ∈ entries, ¬ guarded e.2) : Spaced gap weight guarded (entries ++ log) := by
  induction entries with
  | nil => exact h
  | cons e entries ih =>
    apply Spaced.cons (ih fun e' hmem => hquiet e' (List.mem_cons_of_mem e hmem))
    intro hguarded
    exact absurd hguarded (hquiet e List.mem_cons_self)

theorem Spaced.after {newer older : List (ℕ × α)} {e : ℕ × α}
    (h : Spaced gap weight guarded (newer ++ e :: older)) (hpos : 0 < weight e.2) :
    ∀ e' ∈ newer, guarded e'.2 → e.1 + gap ≤ e'.1 := by
  intro e' hmem hguarded
  exact (List.pairwise_append.mp h).2.2 e' hmem e List.mem_cons_self hguarded hpos

theorem Admissible.sumSince_eq_zero {now a : ℕ} (h : Admissible gap weight now log)
    (hnear : now < a + gap) : sumSince weight a log = 0 := by
  apply TimedLog.sumSince_eq_zero
  intro older hmem hweight
  have hold := h older hmem hweight
  omega

theorem Admissible.sumSince_eq_sumIn {now a : ℕ} (h : Admissible gap weight now log)
    (hfar : a + gap ≤ now) : sumSince weight a log = sumIn weight a (now - gap) log := by
  apply (sumIn_eq_sumSince weight a (now - gap) log _).symm
  intro older hmem hweight
  have hold := h older hmem hweight
  omega

theorem sumIn_cons_skip {a b : ℕ} {e : ℕ × α} (h : ¬ ((a ≤ e.1 ∧ e.1 ≤ b) ∧ 0 < weight e.2)) :
    sumIn weight a b (e :: log) = sumIn weight a b log := by
  simp only [sumIn]
  split_ifs with hin
  · have hzero : ¬ 0 < weight e.2 := fun hpos => h ⟨hin, hpos⟩
    omega
  · exact Nat.zero_add _

/-- Beyond its newest weighted entry an interval reaches back over whole gaps only, each
    with one weighted entry at its end. -/
theorem Spaced.sumIn_le (h : Spaced gap weight guarded log) (hgap : 0 < gap)
    (hone : ∀ x, weight x ≤ 1) (hguarded : ∀ x, 0 < weight x → guarded x) (a b : ℕ) :
    sumIn weight a b log ≤ (b - a) / gap + 1 := by
  induction log generalizing b with
  | nil => exact Nat.zero_le _
  | cons e log ih =>
    obtain ⟨hhead, htail⟩ := List.pairwise_cons.mp h
    by_cases hcounted : (a ≤ e.1 ∧ e.1 ≤ b) ∧ 0 < weight e.2
    · obtain ⟨⟨hafter, hbefore⟩, hpos⟩ := hcounted
      have hadmissible : Admissible gap weight e.1 log := fun older hmem hweight =>
        hhead older hmem (hguarded e.2 hpos) hweight
      have hfirst : sumIn weight a b (e :: log) ≤ 1 + sumSince weight a log := by
        have hle := sumIn_le_sumSince weight a b log
        have hweight := hone e.2
        simp only [sumIn, if_pos (And.intro hafter hbefore)]
        omega
      by_cases hnear : e.1 < a + gap
      · rw [hadmissible.sumSince_eq_zero hnear] at hfirst
        exact hfirst.trans (Nat.le_add_left 1 _)
      · rw [hadmissible.sumSince_eq_sumIn (not_lt.mp hnear)] at hfirst
        have hbound := ih htail (e.1 - gap)
        have hstep : (e.1 - gap - a) / gap + 1 = (e.1 - a) / gap := by
          rw [← Nat.add_div_right _ hgap]
          congr 1
          omega
        have hmono : (e.1 - a) / gap ≤ (b - a) / gap := Nat.div_le_div_right (by omega)
        omega
    · rw [sumIn_cons_skip hcounted]
      exact ih htail b

end BoundedSpending.SpacedLog
