import BoundedSpending.AccountLedger

set_option autoImplicit false

namespace BoundedSpending.PreflightReserve

open CheckedArithmetic LimitPolicy SpendRecorders Preflight NestedCalls AccountMachine AccountLedger

/-- If the window has run out, then it ends in range when started anew, and the amount
    fits on top of its old counter all the same. -/
def Reserved (anchor window now spent limit amount : ℕ) : Prop :=
  anchor + window ≤ now → now + window < wordSize ∧ spent + amount ≤ limit

variable {cfg : Config} {s : Storage} {now eth usdc gas : ℕ}

theorem Reserved.ends {anchor window now spent limit amount : ℕ}
    (h : Reserved anchor window now spent limit amount) (hfits : anchor + window < wordSize) :
    rolled anchor window now + window < wordSize := by
  unfold rolled
  split_ifs with hexp
  · exact (h hexp).1
  · exact hfits

theorem Reserved.room {anchor window now spent limit amount checked : ℕ}
    (h : Reserved anchor window now spent limit amount) (hle : amount ≤ checked)
    (hspent : spent ≤ limit)
    (hchecked : 0 < checked → effective anchor window now spent + checked ≤ limit) :
    spent + amount ≤ limit := by
  by_cases hexp : anchor + window ≤ now
  · exact (h hexp).2
  · by_cases hpos : 0 < checked
    · have hroom := hchecked hpos
      rw [effective, if_neg hexp] at hroom
      omega
    · omega

theorem reserved_of_room {anchor window now spent limit amount : ℕ}
    (hend : rolled anchor window now + window < wordSize) (hroom : spent + amount ≤ limit) :
    Reserved anchor window now spent limit amount := by
  intro hexp
  rw [rolled, if_pos hexp] at hend
  exact ⟨hend, hroom⟩

def BothRecorded (cfg : Config) (s : Storage) (now eth usdc gas : ℕ) : Prop :=
  ∃ s₁ events₁ s₂ events₂, applySpendAndUpdate cfg s now eth usdc = .ok (s₁, events₁) ∧
    applyUsdcSpend cfg s₁ now gas = .ok (s₂, events₂)

theorem bothRecorded_iff : BothRecorded cfg s now eth usdc gas ↔
    ClockFits s now ∧ (0 < eth → EthRoom cfg s now eth) ∧ UsdcRoom cfg s (usdc + gas) := by
  simp only [BothRecorded, applySpendAndUpdate_eq_ok, applyUsdcSpend_eq_ok]
  constructor
  · rintro ⟨s₁, _, _, _, ⟨hclock, heth, _, rfl, _⟩, _, hroom, _, _⟩
    exact ⟨hclock, heth, usdcRoom_recorded.mp hroom⟩
  · intro h
    obtain ⟨hclock, heth, hroom⟩ := h
    have hspend : UsdcRoom cfg s usdc := hroom.mono (Nat.le_add_right usdc gas)
    exact ⟨_, _, _, _, ⟨hclock, heth, fun _ => hspend, rfl, rfl⟩,
      (clockFits_recorded s now eth usdc).mpr hclock, usdcRoom_recorded.mpr hroom, rfl, rfl⟩

/-- After a passed check at any time, spend and charge are both recorded exactly when every
    window that has run out has room for them on its old counter. -/
theorem reserve_sufficient_iff (env : Env) (cfg : Config) (block : Block)
    (labels : List (Label Block Input)) (m : Machine Block World Pending)
    (hrun : Run env cfg block labels m) (now eth usdc gas gas' : ℕ) (hle : gas' ≤ gas)
    (hcheck : checkPreflightLimits cfg m.world.storage now eth (usdc + gas) = .ok ()) :
    BothRecorded cfg m.world.storage now eth usdc gas' ↔
      Reserved m.world.storage.lastDailyResetTimestamp dailyWindow now
          m.world.storage.dailyUsdcSpent cfg.dailyUsdcLimit (usdc + gas') ∧
        Reserved m.world.storage.lastMonthlyResetTimestamp monthlyWindow now
          m.world.storage.monthlyUsdcSpent cfg.monthlyUsdcLimit (usdc + gas') := by
  have hledger := run_balanced hrun
  obtain ⟨hdaily, hmonthly, heth, husdc⟩ := checkPreflightLimits_eq_ok.mp hcheck
  have hle' : usdc + gas' ≤ usdc + gas := Nat.add_le_add_left hle usdc
  rw [bothRecorded_iff]
  constructor
  · intro h
    obtain ⟨⟨_, _, hdailyEnd, hmonthlyEnd⟩, _, hroom⟩ := h
    exact ⟨reserved_of_room hdailyEnd hroom.1, reserved_of_room hmonthlyEnd hroom.2⟩
  · intro h
    have hclock : ClockFits m.world.storage now :=
      ⟨hdaily, hmonthly, h.1.ends hdaily, h.2.ends hmonthly⟩
    have hroomDaily := h.1.room hle' hledger.dailyUsdc_le fun hpos => (husdc hpos).1
    have hroomMonthly := h.2.room hle' hledger.monthlyUsdc_le fun hpos => (husdc hpos).2
    exact ⟨hclock, heth, hroomDaily, hroomMonthly⟩

def chargedStorage : Storage :=
  { deployed 1000 with dailyUsdcSpent := 600 * 10 ^ 6, monthlyUsdcSpent := 600 * 10 ^ 6 }

theorem run_charged : ∃ m, Run ownerEnv testConfig (blockAt 1000 (by decide))
    [.call (.payForGasInUsdc 0x303 60000 (600 * 10 ^ 6)), .answer true,
      .advance (blockAt 87400 (by decide))] m ∧
      m.clock.timestamp = 87400 ∧ m.world.storage = chargedStorage := by
  have hcharged : (run (account ownerEnv testConfig)
      (launched (blockAt 1000 (by decide)) 0 (1000 * 10 ^ 6))
      [.call (.payForGasInUsdc 0x303 60000 (600 * 10 ^ 6)), .answer true,
        .advance (blockAt 87400 (by decide))]).map
        (fun m => (m.clock.timestamp, m.world.storage)) = some (87400, chargedStorage) := by
    decide +kernel
  obtain ⟨m, hrun, hstate⟩ := Run.of_map hcharged
  obtain ⟨htime, hstorage⟩ := Prod.mk.inj hstate
  exact ⟨m, hrun, htime, hstorage⟩

theorem reserve_sufficient_same_day :
    ∃ m labels, Run ownerEnv testConfig (blockAt 1000 (by decide)) labels m ∧
      m.world.storage = chargedStorage ∧
      checkPreflightLimits testConfig m.world.storage 2000 1 (0 + 300 * 10 ^ 6) = .ok () ∧
      BothRecorded testConfig m.world.storage 2000 1 0 (300 * 10 ^ 6) := by
  obtain ⟨m, hrun, _, hstorage⟩ := run_charged
  have hcheck : checkPreflightLimits testConfig m.world.storage 2000 1 (0 + 300 * 10 ^ 6) =
      .ok () := by
    rw [hstorage]
    decide +kernel
  refine ⟨m, _, hrun, hstorage, hcheck, ?_⟩
  apply (reserve_sufficient_iff ownerEnv testConfig _ _ m hrun 2000 1 0 _ _ le_rfl hcheck).mpr
  rw [hstorage]
  refine ⟨?_, ?_⟩
  · intro hexp
    exact absurd hexp (by decide)
  · intro hexp
    exact absurd hexp (by decide)

/-- A day later 600 USDC pass the check as the gas cost of an operation; its execution is
    recorded, and the charge is then refused. -/
theorem reserve_insufficient :
    ∃ m labels, Run ownerEnv testConfig (blockAt 1000 (by decide)) labels m ∧
      m.clock.timestamp = 87400 ∧
      checkPreflightLimits testConfig m.world.storage 87400 1 (0 + 600 * 10 ^ 6) = .ok () ∧
      (∃ s₁ events₁, applySpendAndUpdate testConfig m.world.storage 87400 1 0 =
          .ok (s₁, events₁) ∧
        applyUsdcSpend testConfig s₁ 87400 (600 * 10 ^ 6) =
          .error (.dailyLimitExceeded (1200 * 10 ^ 6) (1000 * 10 ^ 6))) ∧
      ¬ BothRecorded testConfig m.world.storage 87400 1 0 (600 * 10 ^ 6) := by
  obtain ⟨m, hrun, htime, hstorage⟩ := run_charged
  refine ⟨m, _, hrun, htime, ?_, ?_, ?_⟩
  · rw [hstorage]
    decide +kernel
  · rw [hstorage]
    refine ⟨recorded chargedStorage 87400 1 0, spendEvents 1 0, ?_, ?_⟩
    · decide +kernel
    · decide +kernel
  · rw [hstorage, bothRecorded_iff]
    rintro ⟨_, _, hroom⟩
    exact absurd hroom (by decide)

end BoundedSpending.PreflightReserve
