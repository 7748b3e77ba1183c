import BoundedSpending.Preflight
import BoundedSpending.TransactionTraces

set_option autoImplicit false

namespace BoundedSpending.WindowRefinement

open CheckedArithmetic LimitPolicy SpendRecorders Preflight TransactionTraces

/-- A window as documented: its start and what either asset has spent in it. -/
structure Window where
  start : ℕ
  eth : ℕ
  usdc : ℕ
  deriving DecidableEq, Repr

/-- A window that has run out starts again at `now`, with both counters at zero. -/
def Window.rolledTo (length now : ℕ) (w : Window) : Window :=
  if w.start + length ≤ now then ⟨now, 0, 0⟩ else w

def Window.charge (eth usdc : ℕ) (w : Window) : Window :=
  { w with eth := w.eth + eth, usdc := w.usdc + usdc }

def Window.Fits (ethLimit usdcLimit : ℕ) (w : Window) : Prop :=
  w.eth ≤ ethLimit ∧ w.usdc ≤ usdcLimit

instance (ethLimit usdcLimit : ℕ) (w : Window) : Decidable (w.Fits ethLimit usdcLimit) := by
  unfold Window.Fits; infer_instance

structure Reference where
  daily : Window
  monthly : Window
  deriving DecidableEq, Repr

def Reference.charged (r : Reference) (now eth usdc : ℕ) : Reference where
  daily := (r.daily.rolledTo dailyWindow now).charge eth usdc
  monthly := (r.monthly.rolledTo monthlyWindow now).charge eth usdc

def Reference.Fits (cfg : Config) (r : Reference) : Prop :=
  r.daily.Fits cfg.dailyEthLimit cfg.dailyUsdcLimit ∧
    r.monthly.Fits cfg.monthlyEthLimit cfg.monthlyUsdcLimit

instance (cfg : Config) (r : Reference) : Decidable (r.Fits cfg) := by
  unfold Reference.Fits; infer_instance

inductive Spend where
  | execution (time eth usdc : ℕ)
  | gasCharge (time usdc : ℕ)
  deriving DecidableEq, Repr

def Spend.time : Spend → ℕ
  | .execution time _ _ => time
  | .gasCharge time _ => time

def Spend.eth : Spend → ℕ
  | .execution _ eth _ => eth
  | .gasCharge _ _ => 0

def Spend.usdc : Spend → ℕ
  | .execution _ _ usdc => usdc
  | .gasCharge _ usdc => usdc

def Reference.spend (cfg : Config) (r : Reference) (op : Spend) : Option Reference :=
  if (r.charged op.time op.eth op.usdc).Fits cfg then some (r.charged op.time op.eth op.usdc)
  else none

def record (cfg : Config) (s : Storage) : Spend → Option Storage
  | .execution time eth usdc => (applySpendAndUpdate cfg s time eth usdc).toOption.map Prod.fst
  | .gasCharge time usdc => (applyUsdcSpend cfg s time usdc).toOption.map Prod.fst

def policyOf (s : Storage) : Reference where
  daily := ⟨s.lastDailyResetTimestamp, s.dailyEthSpent, s.dailyUsdcSpent⟩
  monthly := ⟨s.lastMonthlyResetTimestamp, s.monthlyEthSpent, s.monthlyUsdcSpent⟩

/-- If the window has run out, then there is no USDC on it to be zeroed, and no ETH
    either unless this spend writes the ETH counter. -/
def Window.Clean (length now eth : ℕ) (w : Window) : Prop :=
  w.start + length ≤ now → w.usdc = 0 ∧ (0 < eth ∨ w.eth = 0)

def Faithful (cfg : Config) (s : Storage) (op : Spend) : Prop :=
  ¬ ((policyOf s).charged op.time op.eth op.usdc).Fits cfg ∨
    (ClockFits s op.time ∧ (policyOf s).daily.Clean dailyWindow op.time op.eth ∧
      (policyOf s).monthly.Clean monthlyWindow op.time op.eth)

variable {cfg : Config} {s s' : Storage}

theorem record_eq_some {op : Spend} (hlimits : (policyOf s).Fits cfg) :
    record cfg s op = some s' ↔
      ClockFits s op.time ∧ (0 < op.eth → EthRoom cfg s op.time op.eth) ∧
        (0 < op.usdc → UsdcRoom cfg s op.usdc) ∧ s' = recorded s op.time op.eth op.usdc := by
  cases op with
  | execution time eth usdc =>
    rw [record, toOption_map_eq_some]
    simp only [Prod.exists, applySpendAndUpdate_eq_ok, Spend.time, Spend.eth, Spend.usdc]
    constructor
    · intro h
      obtain ⟨_, _, ⟨hclock, heth, husdc, hs, _⟩, rfl⟩ := h
      exact ⟨hclock, heth, husdc, hs⟩
    · intro h
      exact ⟨_, _, ⟨h.1, h.2.1, h.2.2.1, rfl, rfl⟩, h.2.2.2.symm⟩
  | gasCharge time usdc =>
    rw [record, toOption_map_eq_some]
    simp only [Prod.exists, applyUsdcSpend_eq_ok, Spend.time, Spend.eth, Spend.usdc]
    constructor
    · intro h
      obtain ⟨_, _, ⟨hclock, hroom, hs, _⟩, rfl⟩ := h
      exact ⟨hclock, fun hpos => absurd hpos (lt_irrefl 0), fun _ => hroom, hs⟩
    · intro h
      obtain ⟨hclock, _, hroom, hs⟩ := h
      refine ⟨_, _, ⟨hclock, ?_, rfl, rfl⟩, hs.symm⟩
      by_cases hpos : 0 < usdc
      · exact hroom hpos
      · have hzero : usdc = 0 := by omega
        rw [hzero]
        exact ⟨hlimits.1.2, hlimits.2.2⟩

theorem rolledTo_eq (length now : ℕ) (w : Window) :
    w.rolledTo length now = ⟨rolled w.start length now, effective w.start length now w.eth,
      effective w.start length now w.usdc⟩ := by
  unfold Window.rolledTo rolled effective
  split_ifs <;> rfl

theorem charged_fits_iff {now eth usdc : ℕ} :
    ((policyOf s).charged now eth usdc).Fits cfg ↔
      EthRoom cfg s now eth ∧ LiveUsdcRoom cfg s now usdc := by
  simp only [Reference.Fits, Reference.charged, rolledTo_eq, Window.charge, Window.Fits, policyOf,
    EthRoom, LiveUsdcRoom]
  constructor
  · intro h
    exact ⟨⟨h.1.1, h.2.1⟩, h.1.2, h.2.2⟩
  · intro h
    exact ⟨⟨h.1.1, h.2.1⟩, h.1.2, h.2.2⟩

theorem window_eq_iff (length now eth usdc : ℕ) (w : Window) :
    (⟨rolled w.start length now,
        if 0 < eth then effective w.start length now w.eth + eth else w.eth,
        w.usdc + usdc⟩ : Window) = (w.rolledTo length now).charge eth usdc ↔
      w.Clean length now eth := by
  simp only [rolledTo_eq, Window.charge, Window.mk.injEq, true_and, Window.Clean, effective]
  by_cases hexp : w.start + length ≤ now
  · simp only [hexp, if_true, true_implies]
    by_cases hpos : 0 < eth
    · simp only [hpos, if_true, true_or, and_true, true_and]
      omega
    · simp only [hpos, if_false, false_or]
      omega
  · simp only [hexp, if_false, false_implies, iff_true, and_true]
    split_ifs <;> omega

theorem policyOf_recorded_iff {now eth usdc : ℕ} :
    policyOf (recorded s now eth usdc) = (policyOf s).charged now eth usdc ↔
      (policyOf s).daily.Clean dailyWindow now eth ∧
        (policyOf s).monthly.Clean monthlyWindow now eth := by
  have hdaily := window_eq_iff dailyWindow now eth usdc (policyOf s).daily
  have hmonthly := window_eq_iff monthlyWindow now eth usdc (policyOf s).monthly
  rw [← hdaily, ← hmonthly]
  simp only [policyOf, recorded, Reference.charged, Reference.mk.injEq]

theorem usdcRoom_iff_of_clean {now eth usdc : ℕ}
    (hdaily : (policyOf s).daily.Clean dailyWindow now eth)
    (hmonthly : (policyOf s).monthly.Clean monthlyWindow now eth) :
    LiveUsdcRoom cfg s now usdc ↔ UsdcRoom cfg s usdc := by
  have hlive : ∀ {length} {w : Window}, w.Clean length now eth →
      effective w.start length now w.usdc = w.usdc := by
    intro length w hclean
    unfold effective
    split_ifs with hexp
    · exact (hclean hexp).1.symm
    · rfl
  have hd := hlive hdaily
  have hm := hlive hmonthly
  simp only [policyOf] at hd hm
  rw [LiveUsdcRoom, UsdcRoom, hd, hm]

theorem room_of_record {op : Spend} (hlimits : (policyOf s).Fits cfg)
    (h : record cfg s op = some s') : ((policyOf s).charged op.time op.eth op.usdc).Fits cfg := by
  obtain ⟨_, heth, husdc, _⟩ := (record_eq_some hlimits).mp h
  rw [charged_fits_iff]
  have hlive : ∀ anchor window spent, effective anchor window op.time spent ≤ spent :=
    fun _ _ _ => effective_le
  have hde := hlive s.lastDailyResetTimestamp dailyWindow s.dailyEthSpent
  have hme := hlive s.lastMonthlyResetTimestamp monthlyWindow s.monthlyEthSpent
  have hdu := hlive s.lastDailyResetTimestamp dailyWindow s.dailyUsdcSpent
  have hmu := hlive s.lastMonthlyResetTimestamp monthlyWindow s.monthlyUsdcSpent
  obtain ⟨⟨hde_le, hdu_le⟩, hme_le, hmu_le⟩ := hlimits
  simp only [policyOf] at hde_le hdu_le hme_le hmu_le
  refine ⟨?_, ?_⟩
  · by_cases hpos : 0 < op.eth
    · exact heth hpos
    · exact ⟨by omega, by omega⟩
  · by_cases hpos : 0 < op.usdc
    · have hroom := husdc hpos
      exact ⟨(Nat.add_le_add_right hdu _).trans hroom.1, (Nat.add_le_add_right hmu _).trans hroom.2⟩
    · exact ⟨by omega, by omega⟩

theorem fits_after {op : Spend} (hlimits : (policyOf s).Fits cfg) :
    (policyOf (after (record cfg) s op)).Fits cfg := by
  unfold after
  cases hnext : record cfg s op with
  | none => exact hlimits
  | some s' =>
    obtain ⟨_, heth, husdc, rfl⟩ := (record_eq_some hlimits).mp hnext
    obtain ⟨⟨hde, hdu⟩, hme, hmu⟩ := hlimits
    simp only [policyOf] at hde hdu hme hmu
    refine ⟨⟨?_, ?_⟩, ?_, ?_⟩
    · simp only [Option.getD_some, policyOf, recorded]
      split_ifs with hpos
      · exact (heth hpos).1
      · exact hde
    · simp only [Option.getD_some, policyOf, recorded]
      by_cases hpos : 0 < op.usdc
      · exact (husdc hpos).1
      · omega
    · simp only [Option.getD_some, policyOf, recorded]
      split_ifs with hpos
      · exact (heth hpos).2
      · exact hme
    · simp only [Option.getD_some, policyOf, recorded]
      by_cases hpos : 0 < op.usdc
      · exact (husdc hpos).2
      · omega

theorem record_eq_spend_iff {op : Spend} (hlimits : (policyOf s).Fits cfg) :
    (record cfg s op).map policyOf = (policyOf s).spend cfg op ↔ Faithful cfg s op := by
  by_cases hfits : ((policyOf s).charged op.time op.eth op.usdc).Fits cfg
  · have hspend : (policyOf s).spend cfg op =
        some ((policyOf s).charged op.time op.eth op.usdc) := if_pos hfits
    have hroom := charged_fits_iff.mp hfits
    rw [hspend, Option.map_eq_some_iff]
    constructor
    · intro h
      obtain ⟨s', hs', hpolicy⟩ := h
      obtain ⟨hclock, _, _, rfl⟩ := (record_eq_some hlimits).mp hs'
      exact .inr ⟨hclock, policyOf_recorded_iff.mp hpolicy⟩
    · intro h
      obtain ⟨hclock, hdaily, hmonthly⟩ := h.resolve_left (not_not_intro hfits)
      refine ⟨_, (record_eq_some hlimits).mpr ⟨hclock, fun _ => hroom.1, fun _ => ?_, rfl⟩,
        policyOf_recorded_iff.mpr ⟨hdaily, hmonthly⟩⟩
      exact (usdcRoom_iff_of_clean hdaily hmonthly).mp hroom.2
  · have hspend : (policyOf s).spend cfg op = none := if_neg hfits
    have hrecord : record cfg s op = none := by
      cases hnext : record cfg s op with
      | none => rfl
      | some s' => exact absurd (room_of_record hlimits hnext) hfits
    rw [hspend, hrecord]
    exact ⟨fun _ => .inl hfits, fun _ => rfl⟩

/-- Along any sequence of recorded spends from deployment on, the account answers as
    documented, counters and anchors included, exactly when it is faithful throughout. -/
theorem record_trace_eq_iff (cfg : Config) (deployment : ℕ) (ops : List Spend) :
    trace (record cfg) policyOf (deployed deployment) ops =
        trace (Reference.spend cfg) id ⟨⟨deployment, 0, 0⟩, ⟨deployment, 0, 0⟩⟩ ops ↔
      Throughout (record cfg) (Faithful cfg) (deployed deployment) ops := by
  have hstart : (policyOf (deployed deployment)).Fits cfg :=
    ⟨⟨Nat.zero_le _, Nat.zero_le _⟩, Nat.zero_le _, Nat.zero_le _⟩
  have hkeeps : ∀ s op, (policyOf s).Fits cfg → (policyOf (after (record cfg) s op)).Fits cfg :=
    fun _ _ h => fits_after h
  have hstep : ∀ s op, (policyOf s).Fits cfg →
      ((record cfg s op).map policyOf = (policyOf s).spend cfg op ↔ Faithful cfg s op) :=
    fun _ _ h => record_eq_spend_iff h
  exact trace_eq_iff hkeeps hstep hstart ops

/-- Two gas charges of 600 USDC a day apart: the second is refused against a daily limit
    of 1000, though the window of the first has run out. -/
theorem record_trace_differs :
    trace (record testConfig) policyOf (deployed 1000)
        [.gasCharge 1000 (600 * 10 ^ 6), .gasCharge 87400 (600 * 10 ^ 6)] ≠
      trace (Reference.spend testConfig) id ⟨⟨1000, 0, 0⟩, ⟨1000, 0, 0⟩⟩
        [.gasCharge 1000 (600 * 10 ^ 6), .gasCharge 87400 (600 * 10 ^ 6)] := by
  decide +kernel

end BoundedSpending.WindowRefinement
