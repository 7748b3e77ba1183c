import Mathlib.Tactic.Common

set_option autoImplicit false

namespace BoundedSpending.TransactionTraces

variable {σ ρ ι : Type}

def after (next : σ → ι → Option σ) (s : σ) (op : ι) : σ := (next s op).getD s

/-- For each operation of a sequence its outcome, seen through `view`. -/
def trace (next : σ → ι → Option σ) (view : σ → ρ) : σ → List ι → List (Option ρ)
  | _, [] => []
  | s, op :: ops => (next s op).map view :: trace next view (after next s op) ops

/-- A condition on operations, asked of each one in the state it is applied to. -/
def Throughout (next : σ → ι → Option σ) (C : σ → ι → Prop) : σ → List ι → Prop
  | _, [] => True
  | s, op :: ops => C s op ∧ Throughout next C (after next s op) ops

def final (next : σ → ι → Option σ) : σ → List ι → σ
  | s, [] => s
  | s, op :: ops => final next (after next s op) ops

def total (next : σ → ι → Option σ) (weight : σ → ι → ℕ) : σ → List ι → ℕ
  | _, [] => 0
  | s, op :: ops => (if (next s op).isSome then weight s op else 0) +
      total next weight (after next s op) ops

theorem after_of_eq_some {next : σ → ι → Option σ} {s s' : σ} {op : ι}
    (h : next s op = some s') : after next s op = s' := by
  rw [after, h]
  rfl

theorem after_of_eq_none {next : σ → ι → Option σ} {s : σ} {op : ι} (h : next s op = none) :
    after next s op = s := by
  rw [after, h]
  rfl

theorem Throughout.imp {next : σ → ι → Option σ} {C D : σ → ι → Prop} {s : σ} {ops : List ι}
    (h : Throughout next C s ops) (himp : ∀ s op, C s op → D s op) : Throughout next D s ops := by
  induction ops generalizing s with
  | nil => trivial
  | cons op ops ih => exact ⟨himp s op h.1, ih h.2⟩

theorem Throughout.total_le {next : σ → ι → Option σ} {C : σ → ι → Prop}
    {weight : σ → ι → ℕ} {measure : σ → ℕ}
    (hstep : ∀ s op s', C s op → next s op = some s' → measure s + weight s op ≤ measure s')
    {s : σ} {ops : List ι} (h : Throughout next C s ops) :
    measure s + total next weight s ops ≤ measure (final next s ops) := by
  induction ops generalizing s with
  | nil => exact Nat.le_refl _
  | cons op ops ih =>
    obtain ⟨hC, hrest⟩ := h
    have htail := ih hrest
    cases hnext : next s op with
    | none =>
      simp only [total, final, hnext, after_of_eq_none hnext] at htail ⊢
      simpa using htail
    | some s' =>
      have hgrow := hstep s op s' hC hnext
      simp only [total, final, hnext, after_of_eq_some hnext] at htail ⊢
      simp only [Option.isSome_some, if_true]
      omega

theorem after_view {next : σ → ι → Option σ} {reference : ρ → ι → Option ρ} {view : σ → ρ}
    {s : σ} {op : ι} (h : (next s op).map view = reference (view s) op) :
    view (after next s op) = after reference (view s) op := by
  unfold after
  rw [← h]
  cases next s op with
  | none => rfl
  | some s' => rfl

/-- If a step agrees with the reference exactly under `C`, then so does a whole
    sequence: the first disagreement shows in the trace. -/
theorem trace_eq_iff {next : σ → ι → Option σ} {reference : ρ → ι → Option ρ} {view : σ → ρ}
    {I : σ → Prop} {C : σ → ι → Prop} (hkeeps : ∀ s op, I s → I (after next s op))
    (hstep : ∀ s op, I s → ((next s op).map view = reference (view s) op ↔ C s op))
    {s : σ} (hs : I s) (ops : List ι) :
    trace next view s ops = trace reference id (view s) ops ↔ Throughout next C s ops := by
  induction ops generalizing s with
  | nil => exact ⟨fun _ => trivial, fun _ => rfl⟩
  | cons op ops ih =>
    simp only [trace, Throughout, List.cons.injEq, Option.map_id_fun, id_eq]
    rw [hstep s op hs]
    apply and_congr_right
    intro hC
    rw [← after_view ((hstep s op hs).mpr hC)]
    exact ih (hkeeps s op hs)

end BoundedSpending.TransactionTraces
