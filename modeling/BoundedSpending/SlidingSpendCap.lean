import BoundedSpending.AccountLedger

set_option autoImplicit false

namespace BoundedSpending.SlidingSpendCap

open TimedLog WindowedCounter LimitPolicy Preflight NestedCalls AccountMachine AccountLedger

def cap (window limit length : ℕ) : ℕ := (length ⌈/⌉ window + 1) * limit

theorem le_cap (window limit length : ℕ) : limit ≤ cap window limit length :=
  Nat.le_mul_of_pos_left limit (Nat.succ_pos _)

theorem recorded_le_cap {window limit anchor counter now : ℕ} {log : Journal}
    (h : Windowed window limit ethRecorded log anchor counter now) (start length : ℕ) :
    sumIn ethRecorded start (start + length) log ≤ cap window limit length := by
  have hw := h.within start (start + length)
  rwa [Nat.add_sub_cancel_left] at hw

theorem sent_le_recorded {cfg : Config} {now ethDue usdcDue : ℕ} {w : World}
    (h : Ledger cfg now w ethDue usdcDue) (a b : ℕ) :
    sumIn ethSent a b w.journal ≤ sumIn ethRecorded a b w.journal :=
  (Nat.le_add_right _ _).trans (h.ethCovered a b)

/-- USDC counters are never restarted, so one limit bounds all of history. -/
theorem usdcRecorded_le {cfg : Config} {now ethDue usdcDue : ℕ} {w : World}
    (h : Ledger cfg now w ethDue usdcDue) (a b : ℕ) :
    sumIn usdcRecorded a b w.journal ≤ cfg.dailyUsdcLimit ∧
      sumIn usdcRecorded a b w.journal ≤ cfg.monthlyUsdcLimit := by
  have hall : sumIn usdcRecorded a b w.journal ≤ sumSince usdcRecorded 0 w.journal :=
    (sumIn_le_sumSince usdcRecorded a b w.journal).trans (sumSince_anti usdcRecorded a.zero_le _)
  exact ⟨hall.trans (h.dailyUsdc.trans h.dailyUsdc_le),
    hall.trans (h.monthlyUsdc.trans h.monthlyUsdc_le)⟩

/-- In every run and every interval of `length` seconds, both assets stay within
    their daily and their monthly caps. -/
theorem spend_in_interval_le_cap (env : Env) (cfg : Config) (block : Block)
    (labels : List (Label Block Input)) (m : Machine Block World Pending)
    (hrun : Run env cfg block labels m) (start length : ℕ) :
    sumIn ethSent start (start + length) m.world.journal ≤
        (length ⌈/⌉ dailyWindow + 1) * cfg.dailyEthLimit ∧
      sumIn ethSent start (start + length) m.world.journal ≤
        (length ⌈/⌉ monthlyWindow + 1) * cfg.monthlyEthLimit ∧
      sumIn usdcRecorded start (start + length) m.world.journal ≤
        (length ⌈/⌉ dailyWindow + 1) * cfg.dailyUsdcLimit ∧
      sumIn usdcRecorded start (start + length) m.world.journal ≤
        (length ⌈/⌉ monthlyWindow + 1) * cfg.monthlyUsdcLimit := by
  have hledger := run_balanced hrun
  have hsent := sent_le_recorded hledger start (start + length)
  have husdc := usdcRecorded_le hledger start (start + length)
  refine ⟨?_, ?_, ?_, ?_⟩
  · exact hsent.trans (recorded_le_cap hledger.dailyEth start length)
  · exact hsent.trans (recorded_le_cap hledger.monthlyEth start length)
  · exact husdc.1.trans (le_cap dailyWindow cfg.dailyUsdcLimit length)
  · exact husdc.2.trans (le_cap monthlyWindow cfg.monthlyUsdcLimit length)

theorem spend_in_interval_le_cap_reached :
    ∃ m, Run ownerEnv testConfig (blockAt 1000 (by decide))
        [.call (.execute 0x101 ⟨0x909, ether, []⟩), .answer true,
          .advance (blockAt 87400 (by decide)),
          .call (.execute 0x101 ⟨0x909, ether, []⟩), .answer true] m ∧
      sumIn ethSent 1000 (1000 + 86400) m.world.journal = 2 * ether ∧
      sumIn ethSent 1000 (1000 + 86400) m.world.journal ≤
        (86400 ⌈/⌉ dailyWindow + 1) * testConfig.dailyEthLimit := by
  have hsent : (run (account ownerEnv testConfig)
      (launched (blockAt 1000 (by decide)) (3 * ether) 0)
      [.call (.execute 0x101 ⟨0x909, ether, []⟩), .answer true,
        .advance (blockAt 87400 (by decide)),
        .call (.execute 0x101 ⟨0x909, ether, []⟩), .answer true]).map
        (fun m => sumIn ethSent 1000 (1000 + 86400) m.world.journal) = some (2 * ether) := by
    decide +kernel
  obtain ⟨m, hm, hsum⟩ := Run.of_map hsent
  exact ⟨m, hm, hsum, (spend_in_interval_le_cap _ _ _ _ m hm 1000 86400).1⟩

end BoundedSpending.SlidingSpendCap
