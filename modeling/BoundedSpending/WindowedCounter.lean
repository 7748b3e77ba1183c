import BoundedSpending.TimedLog
import Mathlib.Algebra.Order.Floor.Div
import Mathlib.Tactic.Ring

set_option autoImplicit false

namespace BoundedSpending.WindowedCounter

open TimedLog

variable {α : Type} {weight : α → ℕ}

/-- What a counter with its anchor knows about the log it was fed from.
    `since` is the part that survives a restart: one further limit for each
    window that the suffix reaches back over. -/
structure Windowed (window limit : ℕ) (weight : α → ℕ) (log : List (ℕ × α))
    (anchor counter now : ℕ) : Prop where
  anchor_le : anchor ≤ now
  past : StampedBefore weight (now + 1) log
  open_window : StampedBefore weight (anchor + window) log
  counter_le : counter ≤ limit
  since : ∀ a, sumSince weight a log ≤ counter + (anchor - a) ⌈/⌉ window * limit
  within : ∀ a b, sumIn weight a b log ≤ ((b - a) ⌈/⌉ window + 1) * limit

theorem ceilDiv_mono {window m n : ℕ} (h : m ≤ n) : m ⌈/⌉ window ≤ n ⌈/⌉ window := by
  simp only [Nat.ceilDiv_eq_add_pred_div]
  exact Nat.div_le_div_right (by omega)

theorem ceilDiv_add_window {window : ℕ} (hw : 0 < window) (n : ℕ) :
    (n + window) ⌈/⌉ window = n ⌈/⌉ window + 1 := by
  simp only [Nat.ceilDiv_eq_add_pred_div]
  rw [show n + window + window - 1 = n + window - 1 + window by omega,
    Nat.add_div_right _ hw]

theorem one_le_ceilDiv {window n : ℕ} (hw : 0 < window) (hn : 0 < n) : 1 ≤ n ⌈/⌉ window := by
  by_contra hc
  have hle : n ⌈/⌉ window ≤ 0 := by omega
  have := (ceilDiv_le_iff_le_mul hw).mp hle
  omega

variable {window limit : ℕ} {log : List (ℕ × α)} {anchor counter now : ℕ}

theorem Windowed.start (now : ℕ) : Windowed window limit weight [] now 0 now where
  anchor_le := Nat.le_refl _
  past := fun _ h => nomatch h
  open_window := fun _ h => nomatch h
  counter_le := Nat.zero_le _
  since := fun _ => Nat.zero_le _
  within := fun _ _ => Nat.zero_le _

theorem Windowed.later {now' : ℕ} (h : Windowed window limit weight log anchor counter now)
    (hn : now ≤ now') : Windowed window limit weight log anchor counter now' where
  anchor_le := h.anchor_le.trans hn
  past := h.past.mono (by omega)
  open_window := h.open_window
  counter_le := h.counter_le
  since := h.since
  within := h.within

theorem Windowed.since_anchor (h : Windowed window limit weight log anchor counter now) :
    sumSince weight anchor log ≤ counter := by
  have hs := h.since anchor
  rw [Nat.sub_self, zero_ceilDiv, Nat.zero_mul, Nat.add_zero] at hs
  exact hs

theorem Windowed.ignore (h : Windowed window limit weight log anchor counter now)
    {e : ℕ × α} (he : weight e.2 = 0) :
    Windowed window limit weight (e :: log) anchor counter now where
  anchor_le := h.anchor_le
  past := h.past.cons (by omega)
  open_window := h.open_window.cons (by omega)
  counter_le := h.counter_le
  since := fun a => by simpa [sumSince, he] using h.since a
  within := fun a b => by simpa [sumIn, he] using h.within a b

theorem Windowed.reanchor {anchor' : ℕ} (h : Windowed window limit weight log anchor counter now)
    (ha : anchor ≤ anchor') (hn : anchor' ≤ now) :
    Windowed window limit weight log anchor' counter now where
  anchor_le := hn
  past := h.past
  open_window := h.open_window.mono (by omega)
  counter_le := h.counter_le
  since := fun a => (h.since a).trans
    (Nat.add_le_add_left (Nat.mul_le_mul_right _ (ceilDiv_mono (by omega))) _)
  within := h.within

theorem within_of_since {e : ℕ × α} (he : e.1 = now) (han : anchor ≤ now)
    (past : StampedBefore weight (now + 1) (e :: log)) (hc : counter ≤ limit)
    (since : ∀ a, sumSince weight a (e :: log) ≤ counter + (anchor - a) ⌈/⌉ window * limit)
    (within : ∀ a b, sumIn weight a b log ≤ ((b - a) ⌈/⌉ window + 1) * limit) (a b : ℕ) :
    sumIn weight a b (e :: log) ≤ ((b - a) ⌈/⌉ window + 1) * limit := by
  by_cases hb : now ≤ b
  · rw [sumIn_eq_sumSince weight a b _ (past.mono (by omega))]
    have hm : (anchor - a) ⌈/⌉ window * limit ≤ (b - a) ⌈/⌉ window * limit :=
      Nat.mul_le_mul_right _ (ceilDiv_mono (by omega))
    calc
      _ ≤ counter + (anchor - a) ⌈/⌉ window * limit := since a
      _ ≤ limit + (b - a) ⌈/⌉ window * limit := Nat.add_le_add hc hm
      _ = ((b - a) ⌈/⌉ window + 1) * limit := by ring
  · have hout : ¬ (a ≤ e.1 ∧ e.1 ≤ b) := by omega
    simpa [sumIn, hout] using within a b

theorem Windowed.spend (h : Windowed window limit weight log anchor counter now) {e : ℕ × α}
    (he : e.1 = now) (hopen : now < anchor + window) (hl : counter + weight e.2 ≤ limit) :
    Windowed window limit weight (e :: log) anchor (counter + weight e.2) now := by
  have hpast : StampedBefore weight (now + 1) (e :: log) := h.past.cons (by omega)
  have hsince : ∀ a, sumSince weight a (e :: log) ≤
      counter + weight e.2 + (anchor - a) ⌈/⌉ window * limit := by
    intro a
    have hs := h.since a
    simp only [sumSince]
    split_ifs <;> omega
  exact ⟨h.anchor_le, hpast, h.open_window.cons (by omega), hl, hsince,
    within_of_since he h.anchor_le hpast hl hsince h.within⟩

theorem Windowed.expired_since (h : Windowed window limit weight log anchor counter now)
    (hw : 0 < window) (hexp : anchor + window ≤ now) (a : ℕ) :
    sumSince weight a log ≤ (now - a) ⌈/⌉ window * limit := by
  by_cases ha : anchor + window ≤ a
  · rw [sumSince_eq_zero weight a log (h.open_window.mono ha)]
    exact Nat.zero_le _
  · have hsteps : (anchor - a) ⌈/⌉ window + 1 ≤ (now - a) ⌈/⌉ window := by
      by_cases hle : a ≤ anchor
      · rw [← ceilDiv_add_window hw]
        exact ceilDiv_mono (by omega)
      · have hz : anchor - a = 0 := by omega
        rw [hz, zero_ceilDiv]
        exact one_le_ceilDiv hw (by omega)
    calc
      _ ≤ counter + (anchor - a) ⌈/⌉ window * limit := h.since a
      _ ≤ limit + (anchor - a) ⌈/⌉ window * limit := Nat.add_le_add_right h.counter_le _
      _ = ((anchor - a) ⌈/⌉ window + 1) * limit := by ring
      _ ≤ _ := Nat.mul_le_mul_right _ hsteps

theorem Windowed.restart (h : Windowed window limit weight log anchor counter now) {e : ℕ × α}
    (hw : 0 < window) (he : e.1 = now) (hexp : anchor + window ≤ now) (hl : weight e.2 ≤ limit) :
    Windowed window limit weight (e :: log) now (weight e.2) now := by
  have hpast : StampedBefore weight (now + 1) (e :: log) := h.past.cons (by omega)
  have hsince : ∀ a, sumSince weight a (e :: log) ≤
      weight e.2 + (now - a) ⌈/⌉ window * limit := by
    intro a
    have hs := h.expired_since hw hexp a
    simp only [sumSince]
    split_ifs <;> omega
  exact ⟨Nat.le_refl _, hpast, hpast.mono (by omega), hl, hsince,
    within_of_since he (Nat.le_refl _) hpast hl hsince h.within⟩

end BoundedSpending.WindowedCounter
