import BoundedSpending.LimitPolicy

set_option autoImplicit false

namespace BoundedSpending.SpendRecorders

open CheckedArithmetic LimitPolicy

/-- The ETH branch of `_applySpendAndUpdate`, on the counters it was handed. -/
def recordEth (cfg : Config) (s : Storage) (w : Windows) (amount : ℕ) :
    Except Revert (Storage × List Event) := do
  validateEthSpend w.dailySpent w.monthlySpent cfg.dailyEthLimit cfg.monthlyEthLimit amount
  let daily ← add w.dailySpent amount
  let monthly ← add w.monthlySpent amount
  return ({ s with dailyEthSpent := daily, monthlyEthSpent := monthly }, [.ethSpent amount])

/-- The USDC branch, the same text in both recorders. -/
def recordUsdc (cfg : Config) (s : Storage) (w : Windows) (amount : ℕ) :
    Except Revert (Storage × List Event) := do
  validateUsdcSpend w.dailySpent w.monthlySpent cfg.dailyUsdcLimit cfg.monthlyUsdcLimit amount
  let daily ← add w.dailySpent amount
  let monthly ← add w.monthlySpent amount
  return ({ s with dailyUsdcSpent := daily, monthlyUsdcSpent := monthly }, [.usdcSpent amount])

def recordEthIfAny (cfg : Config) (s : Storage) (w : Windows) (amount : ℕ) :
    Except Revert (Storage × List Event) :=
  if 0 < amount then recordEth cfg s w amount else .ok (s, [])

def recordUsdcIfAny (cfg : Config) (s : Storage) (w : Windows) (amount : ℕ) :
    Except Revert (Storage × List Event) :=
  if 0 < amount then recordUsdc cfg s w amount else .ok (s, [])

/-- Events come newest first. -/
def applySpendAndUpdate (cfg : Config) (s : Storage) (nowTs ethAmount usdcAmount : ℕ) :
    Except Revert (Storage × List Event) := do
  let eth ← maybeResetWindows s.lastDailyResetTimestamp s.lastMonthlyResetTimestamp
    s.dailyEthSpent s.monthlyEthSpent nowTs
  -- the second call reads the anchors that the first one has already moved
  let usdc ← maybeResetWindows eth.newDailyReset eth.newMonthlyReset
    s.dailyUsdcSpent s.monthlyUsdcSpent nowTs
  let (s, ethEvents) ← recordEthIfAny cfg s eth ethAmount
  let (s, usdcEvents) ← recordUsdcIfAny cfg s usdc usdcAmount
  return ({ s with
    lastDailyResetTimestamp := eth.newDailyReset
    lastMonthlyResetTimestamp := eth.newMonthlyReset }, usdcEvents ++ ethEvents)

def applyUsdcSpend (cfg : Config) (s : Storage) (nowTs amount : ℕ) :
    Except Revert (Storage × List Event) := do
  -- the counters of this first call are dropped; the source passes one of each asset
  let resets ← maybeResetWindows s.lastDailyResetTimestamp s.lastMonthlyResetTimestamp
    s.dailyEthSpent s.monthlyUsdcSpent nowTs
  let usdc ← maybeResetWindows resets.newDailyReset resets.newMonthlyReset
    s.dailyUsdcSpent s.monthlyUsdcSpent nowTs
  let (s, events) ← recordUsdc cfg s usdc amount
  return ({ s with
    lastDailyResetTimestamp := resets.newDailyReset
    lastMonthlyResetTimestamp := resets.newMonthlyReset }, events)

/-- None of the four window ends computed at `now` leaves the 256-bit range. -/
def ClockFits (s : Storage) (now : ℕ) : Prop :=
  s.lastDailyResetTimestamp + dailyWindow < wordSize ∧
  s.lastMonthlyResetTimestamp + monthlyWindow < wordSize ∧
  rolled s.lastDailyResetTimestamp dailyWindow now + dailyWindow < wordSize ∧
  rolled s.lastMonthlyResetTimestamp monthlyWindow now + monthlyWindow < wordSize

def EthRoom (cfg : Config) (s : Storage) (now amount : ℕ) : Prop :=
  effective s.lastDailyResetTimestamp dailyWindow now s.dailyEthSpent + amount ≤
    cfg.dailyEthLimit ∧
  effective s.lastMonthlyResetTimestamp monthlyWindow now s.monthlyEthSpent + amount ≤
    cfg.monthlyEthLimit

/-- A USDC amount fits on top of the stored counters: time plays no part. -/
def UsdcRoom (cfg : Config) (s : Storage) (amount : ℕ) : Prop :=
  s.dailyUsdcSpent + amount ≤ cfg.dailyUsdcLimit ∧
  s.monthlyUsdcSpent + amount ≤ cfg.monthlyUsdcLimit

instance (s : Storage) (now : ℕ) : Decidable (ClockFits s now) := by
  unfold ClockFits; infer_instance

instance (cfg : Config) (s : Storage) (now amount : ℕ) : Decidable (EthRoom cfg s now amount) := by
  unfold EthRoom; infer_instance

instance (cfg : Config) (s : Storage) (amount : ℕ) : Decidable (UsdcRoom cfg s amount) := by
  unfold UsdcRoom; infer_instance

def recorded (s : Storage) (now eth usdc : ℕ) : Storage :=
  { s with
    dailyEthSpent := if 0 < eth then
      effective s.lastDailyResetTimestamp dailyWindow now s.dailyEthSpent + eth
      else s.dailyEthSpent
    monthlyEthSpent := if 0 < eth then
      effective s.lastMonthlyResetTimestamp monthlyWindow now s.monthlyEthSpent + eth
      else s.monthlyEthSpent
    dailyUsdcSpent := s.dailyUsdcSpent + usdc
    monthlyUsdcSpent := s.monthlyUsdcSpent + usdc
    lastDailyResetTimestamp := rolled s.lastDailyResetTimestamp dailyWindow now
    lastMonthlyResetTimestamp := rolled s.lastMonthlyResetTimestamp monthlyWindow now }

def spendEvents (eth usdc : ℕ) : List Event :=
  (if 0 < usdc then [.usdcSpent usdc] else []) ++ (if 0 < eth then [.ethSpent eth] else [])

theorem recordEth_eq_ok {cfg : Config} {s s' : Storage} {w : Windows} {amount : ℕ}
    {events : List Event} : recordEth cfg s w amount = .ok (s', events) ↔
      (w.dailySpent + amount ≤ cfg.dailyEthLimit ∧
        w.monthlySpent + amount ≤ cfg.monthlyEthLimit) ∧
      s' = { s with
        dailyEthSpent := w.dailySpent + amount, monthlyEthSpent := w.monthlySpent + amount } ∧
      events = [.ethSpent amount] := by
  have hd := cfg.dailyEthLimit_lt
  have hm := cfg.monthlyEthLimit_lt
  simp only [recordEth, validateEthSpend, bind_returns, validateSpend_eq_ok hd hm, add_eq_ok,
    pure_returns, Prod.mk.injEq]
  constructor
  · rintro ⟨_, hroom, _, ⟨_, rfl⟩, _, ⟨_, rfl⟩, hs, he⟩
    exact ⟨hroom, hs, he⟩
  · rintro ⟨hroom, hs, he⟩
    exact ⟨(), hroom, _, ⟨by omega, rfl⟩, _, ⟨by omega, rfl⟩, hs, he⟩

theorem recordUsdc_eq_ok {cfg : Config} {s s' : Storage} {w : Windows} {amount : ℕ}
    {events : List Event} : recordUsdc cfg s w amount = .ok (s', events) ↔
      (w.dailySpent + amount ≤ cfg.dailyUsdcLimit ∧
        w.monthlySpent + amount ≤ cfg.monthlyUsdcLimit) ∧
      s' = { s with
        dailyUsdcSpent := w.dailySpent + amount, monthlyUsdcSpent := w.monthlySpent + amount } ∧
      events = [.usdcSpent amount] := by
  have hd := cfg.dailyUsdcLimit_lt
  have hm := cfg.monthlyUsdcLimit_lt
  simp only [recordUsdc, validateUsdcSpend, bind_returns, validateSpend_eq_ok hd hm, add_eq_ok,
    pure_returns, Prod.mk.injEq]
  constructor
  · rintro ⟨_, hroom, _, ⟨_, rfl⟩, _, ⟨_, rfl⟩, hs, he⟩
    exact ⟨hroom, hs, he⟩
  · rintro ⟨hroom, hs, he⟩
    exact ⟨(), hroom, _, ⟨by omega, rfl⟩, _, ⟨by omega, rfl⟩, hs, he⟩

theorem recordEthIfAny_eq_ok {cfg : Config} {s s' : Storage} {w : Windows} {amount : ℕ}
    {events : List Event} : recordEthIfAny cfg s w amount = .ok (s', events) ↔
      (0 < amount → w.dailySpent + amount ≤ cfg.dailyEthLimit ∧
        w.monthlySpent + amount ≤ cfg.monthlyEthLimit) ∧
      s' = { s with
        dailyEthSpent := if 0 < amount then w.dailySpent + amount else s.dailyEthSpent
        monthlyEthSpent := if 0 < amount then w.monthlySpent + amount else s.monthlyEthSpent } ∧
      events = if 0 < amount then [.ethSpent amount] else [] := by
  by_cases h : 0 < amount
  · simp only [recordEthIfAny, h, if_true, recordEth_eq_ok, true_implies]
  · simp only [recordEthIfAny, h, if_false, Except.ok.injEq, Prod.mk.injEq, false_implies,
      true_and]
    exact and_congr eq_comm eq_comm

theorem recordUsdcIfAny_eq_ok {cfg : Config} {s s' : Storage} {w : Windows} {amount : ℕ}
    {events : List Event} (hd : w.dailySpent = s.dailyUsdcSpent)
    (hm : w.monthlySpent = s.monthlyUsdcSpent) :
    recordUsdcIfAny cfg s w amount = .ok (s', events) ↔
      (0 < amount → UsdcRoom cfg s amount) ∧
      s' = { s with
        dailyUsdcSpent := s.dailyUsdcSpent + amount
        monthlyUsdcSpent := s.monthlyUsdcSpent + amount } ∧
      events = if 0 < amount then [.usdcSpent amount] else [] := by
  by_cases h : 0 < amount
  · simp only [recordUsdcIfAny, h, if_true, recordUsdc_eq_ok, true_implies, UsdcRoom, hd, hm]
  · have hz : amount = 0 := by omega
    subst hz
    simp only [recordUsdcIfAny, h, if_false, Except.ok.injEq, Prod.mk.injEq, false_implies,
      true_and, Nat.add_zero]
    exact and_congr eq_comm eq_comm

/-- The recorder in one statement. The USDC counters of its result are the
    stored ones plus the amount whether or not their windows have run out. -/
theorem applySpendAndUpdate_eq_ok {cfg : Config} {s s' : Storage} {now eth usdc : ℕ}
    {events : List Event} : applySpendAndUpdate cfg s now eth usdc = .ok (s', events) ↔
      ClockFits s now ∧ (0 < eth → EthRoom cfg s now eth) ∧ (0 < usdc → UsdcRoom cfg s usdc) ∧
      s' = recorded s now eth usdc ∧ events = spendEvents eth usdc := by
  simp only [applySpendAndUpdate, bind_returns, maybeResetWindows_eq_ok, pure_returns,
    Prod.mk.injEq, Prod.exists, recordEthIfAny_eq_ok]
  constructor
  · rintro ⟨_, ⟨hd, hm, rfl⟩, _, ⟨hd', hm', rfl⟩, s₁, e₁, ⟨heth, rfl, rfl⟩, s₂, e₂, h₂, rfl, rfl⟩
    rw [recordUsdcIfAny_eq_ok (effective_rolled dailyWindow_pos)
      (effective_rolled monthlyWindow_pos)] at h₂
    obtain ⟨husdc, rfl, rfl⟩ := h₂
    exact ⟨⟨hd, hm, hd', hm'⟩, heth, husdc, rfl, rfl⟩
  · rintro ⟨⟨hd, hm, hd', hm'⟩, heth, husdc, rfl, rfl⟩
    refine ⟨_, ⟨hd, hm, rfl⟩, _, ⟨hd', hm', rfl⟩, _, _, ⟨heth, rfl, rfl⟩, _, _,
      (recordUsdcIfAny_eq_ok (effective_rolled dailyWindow_pos)
        (effective_rolled monthlyWindow_pos)).mpr ⟨husdc, rfl, rfl⟩, rfl, rfl⟩

theorem applyUsdcSpend_eq_ok {cfg : Config} {s s' : Storage} {now amount : ℕ}
    {events : List Event} : applyUsdcSpend cfg s now amount = .ok (s', events) ↔
      ClockFits s now ∧ UsdcRoom cfg s amount ∧
      s' = recorded s now 0 amount ∧ events = [.usdcSpent amount] := by
  simp only [applyUsdcSpend, bind_returns, maybeResetWindows_eq_ok, pure_returns,
    Prod.mk.injEq, Prod.exists, recordUsdc_eq_ok]
  constructor
  · rintro ⟨_, ⟨hd, hm, rfl⟩, _, ⟨hd', hm', rfl⟩, s₁, e₁, ⟨hroom, rfl, rfl⟩, rfl, rfl⟩
    simp only [effective_rolled dailyWindow_pos, effective_rolled monthlyWindow_pos] at hroom
    refine ⟨⟨hd, hm, hd', hm'⟩, hroom, ?_, rfl⟩
    simp only [effective_rolled dailyWindow_pos, effective_rolled monthlyWindow_pos, recorded,
      lt_irrefl, if_false]
  · rintro ⟨⟨hd, hm, hd', hm'⟩, hroom, rfl, rfl⟩
    refine ⟨_, ⟨hd, hm, rfl⟩, _, ⟨hd', hm', rfl⟩, _, _, ⟨?_, rfl, rfl⟩, ?_⟩
    · simp only [effective_rolled dailyWindow_pos, effective_rolled monthlyWindow_pos]
      exact hroom
    · simp only [effective_rolled dailyWindow_pos, effective_rolled monthlyWindow_pos, recorded,
        lt_irrefl, if_false, and_self]

theorem clockFits_recorded (s : Storage) (now eth usdc : ℕ) :
    ClockFits (recorded s now eth usdc) now ↔ ClockFits s now := by
  have hdaily : s.lastDailyResetTimestamp ≤ rolled s.lastDailyResetTimestamp dailyWindow now :=
    le_rolled
  have hmonthly : s.lastMonthlyResetTimestamp ≤
      rolled s.lastMonthlyResetTimestamp monthlyWindow now := le_rolled
  simp only [ClockFits, recorded, rolled_rolled]
  omega

theorem usdcRoom_recorded {cfg : Config} {s : Storage} {now eth usdc amount : ℕ} :
    UsdcRoom cfg (recorded s now eth usdc) amount ↔ UsdcRoom cfg s (usdc + amount) := by
  simp only [UsdcRoom, recorded, Nat.add_assoc]

theorem UsdcRoom.mono {cfg : Config} {s : Storage} {amount amount' : ℕ}
    (h : UsdcRoom cfg s amount) (hle : amount' ≤ amount) :
    UsdcRoom cfg s amount' :=
  ⟨(Nat.add_le_add_left hle _).trans h.1, (Nat.add_le_add_left hle _).trans h.2⟩

end BoundedSpending.SpendRecorders
