import BoundedSpending.AccountState

set_option autoImplicit false

namespace BoundedSpending.LimitPolicy

open CheckedArithmetic

def dailyWindow : ℕ := 24 * 3600
def monthlyWindow : ℕ := 30 * 24 * 3600

structure Windows where
  newDailyReset : ℕ
  newMonthlyReset : ℕ
  dailySpent : ℕ
  monthlySpent : ℕ
  deriving DecidableEq, Repr

def maybeResetWindows (lastDailyReset lastMonthlyReset currentDailySpent currentMonthlySpent
    nowTs : ℕ) : Except Revert Windows := do
  let dailyEnd ← add lastDailyReset dailyWindow
  let monthlyEnd ← add lastMonthlyReset monthlyWindow
  return {
    newDailyReset := if dailyEnd ≤ nowTs then nowTs else lastDailyReset
    newMonthlyReset := if monthlyEnd ≤ nowTs then nowTs else lastMonthlyReset
    dailySpent := if dailyEnd ≤ nowTs then 0 else currentDailySpent
    monthlySpent := if monthlyEnd ≤ nowTs then 0 else currentMonthlySpent }

/-- The body that `validateEthSpend` and `validateUsdcSpend` share. -/
def validateSpend (dailySpent monthlySpent dailyLimit monthlyLimit amount : ℕ) :
    Except Revert Unit := do
  let daily ← add dailySpent amount
  require (daily ≤ dailyLimit) (.dailyLimitExceeded daily dailyLimit)
  let monthly ← add monthlySpent amount
  require (monthly ≤ monthlyLimit) (.monthlyLimitExceeded monthly monthlyLimit)

def validateEthSpend (dailySpent monthlySpent dailyLimit monthlyLimit amount : ℕ) :
    Except Revert Unit :=
  validateSpend dailySpent monthlySpent dailyLimit monthlyLimit amount

def validateUsdcSpend (dailySpent monthlySpent dailyLimit monthlyLimit amount : ℕ) :
    Except Revert Unit :=
  validateSpend dailySpent monthlySpent dailyLimit monthlyLimit amount

def rolled (anchor window now : ℕ) : ℕ := if anchor + window ≤ now then now else anchor

def effective (anchor window now spent : ℕ) : ℕ := if anchor + window ≤ now then 0 else spent

theorem dailyWindow_pos : 0 < dailyWindow := by decide

theorem monthlyWindow_pos : 0 < monthlyWindow := by decide

theorem maybeResetWindows_eq_ok {lastDaily lastMonthly daily monthly now : ℕ} {w : Windows} :
    maybeResetWindows lastDaily lastMonthly daily monthly now = .ok w ↔
      lastDaily + dailyWindow < wordSize ∧ lastMonthly + monthlyWindow < wordSize ∧
      w = ⟨rolled lastDaily dailyWindow now, rolled lastMonthly monthlyWindow now,
        effective lastDaily dailyWindow now daily,
        effective lastMonthly monthlyWindow now monthly⟩ := by
  simp only [maybeResetWindows, bind_returns, add_eq_ok, pure_returns]
  constructor
  · rintro ⟨_, ⟨hd, rfl⟩, _, ⟨hm, rfl⟩, rfl⟩
    exact ⟨hd, hm, rfl⟩
  · rintro ⟨hd, hm, rfl⟩
    exact ⟨_, ⟨hd, rfl⟩, _, ⟨hm, rfl⟩, rfl⟩

theorem validateSpend_eq_ok {daily monthly dailyLimit monthlyLimit amount : ℕ} {u : Unit}
    (hd : dailyLimit < wordSize) (hm : monthlyLimit < wordSize) :
    validateSpend daily monthly dailyLimit monthlyLimit amount = .ok u ↔
      daily + amount ≤ dailyLimit ∧ monthly + amount ≤ monthlyLimit := by
  simp only [validateSpend, bind_returns, add_eq_ok, require_eq_ok]
  constructor
  · rintro ⟨_, ⟨_, rfl⟩, _, hdaily, _, ⟨_, rfl⟩, hmonthly⟩
    exact ⟨hdaily, hmonthly⟩
  · rintro ⟨hdaily, hmonthly⟩
    exact ⟨_, ⟨by omega, rfl⟩, (), hdaily, _, ⟨by omega, rfl⟩, hmonthly⟩

theorem le_rolled {anchor window now : ℕ} : anchor ≤ rolled anchor window now := by
  unfold rolled
  split_ifs <;> omega

theorem rolled_le {anchor window now : ℕ} (h : anchor ≤ now) : rolled anchor window now ≤ now := by
  unfold rolled
  split_ifs <;> omega

theorem effective_le {anchor window now spent : ℕ} :
    effective anchor window now spent ≤ spent := by
  unfold effective
  split_ifs <;> omega

/-- An anchor that has just been moved is never expired: asked about it again at
    the same time, the policy hands the counter back unchanged. -/
theorem effective_rolled {anchor window now spent : ℕ} (hw : 0 < window) :
    effective (rolled anchor window now) window now spent = spent := by
  unfold effective rolled
  split_ifs <;> omega

theorem rolled_rolled {anchor window now : ℕ} :
    rolled (rolled anchor window now) window now = rolled anchor window now := by
  unfold rolled
  split_ifs <;> omega

end BoundedSpending.LimitPolicy
