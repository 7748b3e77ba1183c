import BoundedSpending.AccountRules
import BoundedSpending.WindowedCounter

set_option autoImplicit false

namespace BoundedSpending.AccountLedger

open TimedLog WindowedCounter LimitPolicy SpendRecorders CallDataDecoder Preflight
open NestedCalls AccountMachine AccountRules CheckedArithmetic UserOperations

def ethRecorded : Event → ℕ
  | .ethSpent amount => amount
  | _ => 0

def usdcRecorded : Event → ℕ
  | .usdcSpent amount => amount
  | _ => 0

def ethSent : Event → ℕ
  | .ethTransferred amount => amount
  | _ => 0

def prefundSent : Event → ℕ
  | .prefundPaid amount => amount
  | _ => 0

def usdcSent : Event → ℕ
  | .usdcTransferred amount => amount
  | _ => 0

structure Ledger (cfg : Config) (now : ℕ) (w : World) (ethDue usdcDue : ℕ) : Prop where
  dailyEth : Windowed dailyWindow cfg.dailyEthLimit ethRecorded w.journal
    w.storage.lastDailyResetTimestamp w.storage.dailyEthSpent now
  monthlyEth : Windowed monthlyWindow cfg.monthlyEthLimit ethRecorded w.journal
    w.storage.lastMonthlyResetTimestamp w.storage.monthlyEthSpent now
  dailyUsdc : sumSince usdcRecorded 0 w.journal ≤ w.storage.dailyUsdcSpent
  monthlyUsdc : sumSince usdcRecorded 0 w.journal ≤ w.storage.monthlyUsdcSpent
  dailyUsdc_le : w.storage.dailyUsdcSpent ≤ cfg.dailyUsdcLimit
  monthlyUsdc_le : w.storage.monthlyUsdcSpent ≤ cfg.monthlyUsdcLimit
  ethCovered : ∀ a b, sumIn ethSent a b w.journal + (if a ≤ now ∧ now ≤ b then ethDue else 0) ≤
    sumIn ethRecorded a b w.journal
  usdcCovered : sumSince usdcSent 0 w.journal + usdcDue ≤ sumSince usdcRecorded 0 w.journal

structure SameCounters (s s' : Storage) : Prop where
  dailyEth : s'.dailyEthSpent = s.dailyEthSpent
  monthlyEth : s'.monthlyEthSpent = s.monthlyEthSpent
  dailyUsdc : s'.dailyUsdcSpent = s.dailyUsdcSpent
  monthlyUsdc : s'.monthlyUsdcSpent = s.monthlyUsdcSpent
  dailyReset : s'.lastDailyResetTimestamp = s.lastDailyResetTimestamp
  monthlyReset : s'.lastMonthlyResetTimestamp = s.lastMonthlyResetTimestamp

theorem SameCounters.refl (s : Storage) : SameCounters s s := ⟨rfl, rfl, rfl, rfl, rfl, rfl⟩

theorem noted_sameCounters (cfg : Config) (s : Storage) (now eth usdc : ℕ) :
    SameCounters s (noted cfg s now eth usdc) := by
  unfold noted
  split_ifs
  · exact ⟨rfl, rfl, rfl, rfl, rfl, rfl⟩
  · exact SameCounters.refl s

theorem sum_map_eq_zero {weight : Event → ℕ} {events : List Event}
    (h : ∀ event ∈ events, weight event = 0) : (events.map weight).sum = 0 := by
  induction events with
  | nil => rfl
  | cons event events ih =>
    rw [List.map_cons, List.sum_cons, h event List.mem_cons_self, Nat.zero_add]
    exact ih fun e he => h e (List.mem_cons_of_mem _ he)

variable {cfg : Config} {now : ℕ} {w w' : World} {ethDue usdcDue : ℕ}

theorem Ledger.congr (h : Ledger cfg now w ethDue usdcDue) (hjournal : w'.journal = w.journal)
    (hsame : SameCounters w.storage w'.storage) : Ledger cfg now w' ethDue usdcDue := by
  obtain ⟨hde, hme, hdu, hmu, hdr, hmr⟩ := hsame
  refine ⟨?_, ?_, ?_, ?_, ?_, ?_, ?_, ?_⟩
  · rw [hjournal, hdr, hde]; exact h.dailyEth
  · rw [hjournal, hmr, hme]; exact h.monthlyEth
  · rw [hjournal, hdu]; exact h.dailyUsdc
  · rw [hjournal, hmu]; exact h.monthlyUsdc
  · rw [hdu]; exact h.dailyUsdc_le
  · rw [hmu]; exact h.monthlyUsdc_le
  · rw [hjournal]; exact h.ethCovered
  · rw [hjournal]; exact h.usdcCovered

theorem Ledger.event (h : Ledger cfg now w ethDue usdcDue) {event : Event} {ethDue' usdcDue' : ℕ}
    (heth : ethRecorded event = 0) (husdc : usdcRecorded event = 0)
    (hethDue : ethSent event + ethDue' ≤ ethDue) (husdcDue : usdcSent event + usdcDue' ≤ usdcDue) :
    Ledger cfg now (logged w now [event]) ethDue' usdcDue' := by
  have hrec : ∀ a, sumSince usdcRecorded a ((now, event) :: w.journal) =
      sumSince usdcRecorded a w.journal := by
    intro a
    simp only [sumSince, husdc, ite_self, Nat.zero_add]
  refine ⟨h.dailyEth.ignore heth, h.monthlyEth.ignore heth, ?_, ?_, h.dailyUsdc_le,
    h.monthlyUsdc_le, ?_, ?_⟩
  · exact (hrec 0).trans_le h.dailyUsdc
  · exact (hrec 0).trans_le h.monthlyUsdc
  · intro a b
    have hcovered := h.ethCovered a b
    change (if a ≤ now ∧ now ≤ b then ethSent event else 0) + sumIn ethSent a b w.journal + _ ≤
      (if a ≤ now ∧ now ≤ b then ethRecorded event else 0) + sumIn ethRecorded a b w.journal
    rw [heth]
    split_ifs at hcovered ⊢ <;> omega
  · have hcovered := h.usdcCovered
    change (if 0 ≤ now then usdcSent event else 0) + sumSince usdcSent 0 w.journal + usdcDue' ≤
      sumSince usdcRecorded 0 ((now, event) :: w.journal)
    rw [hrec, if_pos (Nat.zero_le now)]
    omega

theorem recorded_windowed {window limit anchor counter : ℕ} {log : Journal}
    (h : Windowed window limit ethRecorded log anchor counter now) (hw : 0 < window) (amount : ℕ)
    (hroom : 0 < amount → effective anchor window now counter + amount ≤ limit) :
    Windowed window limit ethRecorded (stamped now (spendEvents amount 0) ++ log)
      (rolled anchor window now)
      (if 0 < amount then effective anchor window now counter + amount else counter) now := by
  have hle : anchor ≤ rolled anchor window now := le_rolled
  have hreanchor := h.reanchor hle (rolled_le h.anchor_le)
  by_cases hpos : 0 < amount
  · have hroom := hroom hpos
    simp only [spendEvents, hpos, lt_irrefl, if_true, if_false, List.nil_append]
    unfold effective at hroom ⊢
    unfold rolled
    split_ifs at hroom ⊢ with hexp
    · rw [Nat.zero_add] at hroom ⊢
      exact h.restart (e := (now, .ethSpent amount)) hw rfl hexp hroom
    · exact h.spend (e := (now, .ethSpent amount)) rfl (by omega) hroom
  · simp only [spendEvents, hpos, lt_irrefl, if_false]
    exact hreanchor

theorem Ledger.recordEth (h : Ledger cfg now w ethDue usdcDue) {eth : ℕ}
    (hroom : 0 < eth → EthRoom cfg w.storage now eth) :
    Ledger cfg now (logged { w with storage := recorded w.storage now eth 0 } now
      (spendEvents eth 0)) (eth + ethDue) usdcDue := by
  have hdaily := recorded_windowed h.dailyEth dailyWindow_pos eth fun hpos => (hroom hpos).1
  have hmonthly := recorded_windowed h.monthlyEth monthlyWindow_pos eth fun hpos => (hroom hpos).2
  have heth : ((spendEvents eth 0).map ethRecorded).sum = eth := by
    by_cases hpos : 0 < eth
    · simp [spendEvents, hpos, ethRecorded]
    · simp [spendEvents, show eth = 0 by omega]
  have hother : ∀ weight : Event → ℕ, weight (.ethSpent eth) = 0 →
      ((spendEvents eth 0).map weight).sum = 0 := by
    intro weight hz
    apply sum_map_eq_zero
    intro event hmem
    simp only [spendEvents, lt_irrefl, if_false, List.nil_append, List.mem_ite_nil_right,
      List.mem_singleton] at hmem
    rw [hmem.2, hz]
  refine ⟨hdaily, hmonthly, ?_, ?_, h.dailyUsdc_le, h.monthlyUsdc_le, ?_, ?_⟩
  · change sumSince usdcRecorded 0 (stamped now _ ++ w.journal) ≤ _
    rw [sumSince_append, sumSince_stamped, hother usdcRecorded rfl, ite_self, Nat.zero_add]
    exact h.dailyUsdc
  · change sumSince usdcRecorded 0 (stamped now _ ++ w.journal) ≤ _
    rw [sumSince_append, sumSince_stamped, hother usdcRecorded rfl, ite_self, Nat.zero_add]
    exact h.monthlyUsdc
  · intro a b
    have hcovered := h.ethCovered a b
    change sumIn ethSent a b (stamped now _ ++ w.journal) + _ ≤
      sumIn ethRecorded a b (stamped now _ ++ w.journal)
    rw [sumIn_append, sumIn_append, sumIn_stamped, sumIn_stamped, heth, hother ethSent rfl,
      ite_self, Nat.zero_add]
    split_ifs at hcovered ⊢ <;> omega
  · change sumSince usdcSent 0 (stamped now _ ++ w.journal) + _ ≤
      sumSince usdcRecorded 0 (stamped now _ ++ w.journal)
    rw [sumSince_append, sumSince_append, sumSince_stamped, sumSince_stamped,
      hother usdcSent rfl, hother usdcRecorded rfl]
    simpa only [ite_self, Nat.zero_add] using h.usdcCovered

theorem Ledger.recordUsdc (h : Ledger cfg now w ethDue usdcDue) {amount : ℕ}
    (hroom : UsdcRoom cfg w.storage amount) :
    Ledger cfg now (logged { w with storage := recorded w.storage now 0 amount } now
      [.usdcSpent amount]) ethDue (amount + usdcDue) := by
  have hdaily := recorded_windowed h.dailyEth dailyWindow_pos 0 (by simp)
  have hmonthly := recorded_windowed h.monthlyEth monthlyWindow_pos 0 (by simp)
  refine ⟨hdaily.ignore (e := (now, .usdcSpent amount)) rfl,
    hmonthly.ignore (e := (now, .usdcSpent amount)) rfl, ?_, ?_, hroom.1, hroom.2, ?_, ?_⟩
  · have hsum := h.dailyUsdc
    change amount + sumSince usdcRecorded 0 w.journal ≤ w.storage.dailyUsdcSpent + amount
    omega
  · have hsum := h.monthlyUsdc
    change amount + sumSince usdcRecorded 0 w.journal ≤ w.storage.monthlyUsdcSpent + amount
    omega
  · intro a b
    have hcovered := h.ethCovered a b
    change (if a ≤ now ∧ now ≤ b then 0 else 0) + sumIn ethSent a b w.journal + _ ≤
      (if a ≤ now ∧ now ≤ b then 0 else 0) + sumIn ethRecorded a b w.journal
    simpa only [ite_self, Nat.zero_add] using hcovered
  · have hcovered := h.usdcCovered
    change 0 + sumSince usdcSent 0 w.journal + _ ≤ amount + sumSince usdcRecorded 0 w.journal
    omega

theorem Ledger.account (h : Ledger cfg now w ethDue usdcDue) {call : SpendCall} {s : Storage}
    {events : List Event} (hok : validateAndRecordSpend cfg w.storage now call = .ok (s, events)) :
    Ledger cfg now (logged { w with storage := s } now events)
      (ethSum call.calls + ethDue) usdcDue := by
  obtain ⟨eth, hspend, _, _, _, hroom, rfl, rfl⟩ := validateAndRecordSpend_eq_ok.mp hok
  have heth : eth = ethSum call.calls := (SpendCall.spend_eq_ok hspend).2.1
  have hstored : Ledger cfg now { w with storage := noted cfg w.storage now eth 0 } ethDue
      usdcDue :=
    h.congr rfl (noted_sameCounters cfg w.storage now eth 0)
  have hnoted : Ledger cfg now (logged { w with storage := noted cfg w.storage now eth 0 } now
      [.accounted eth 0]) ethDue usdcDue :=
    hstored.event rfl rfl (by simp [ethSent]) (by simp [usdcSent])
  have hroom' : 0 < eth → EthRoom cfg (noted cfg w.storage now eth 0) now eth :=
    fun hpos => (ethRoom_noted cfg w.storage now eth 0 now eth).mpr (hroom hpos)
  rw [← heth]
  rw [logged_append]
  exact hnoted.recordEth hroom'

def ethDueOf : List Pending → ℕ
  | [] => 0
  | .calls _ rest :: below => ethSum rest + ethDueOf below
  | _ :: below => ethDueOf below

def usdcDueOf : List Pending → ℕ
  | [] => 0
  | .gasPayment amount :: below => amount + usdcDueOf below
  | _ :: below => usdcDueOf below

/-- Every call still to be made is one that the parser accepted. -/
def AllPayments (open_ : List Pending) : Prop :=
  ∀ call rest, .calls call rest ∈ open_ → Payments (call :: rest)

def Balanced (cfg : Config) (block : Block) (w : World) (open_ : List Pending) : Prop :=
  Ledger cfg block.timestamp w (ethDueOf open_) (usdcDueOf open_) ∧ AllPayments open_

theorem Ledger.mono {ethDue' usdcDue' : ℕ} (h : Ledger cfg now w ethDue usdcDue)
    (he : ethDue' ≤ ethDue) (hu : usdcDue' ≤ usdcDue) : Ledger cfg now w ethDue' usdcDue' := by
  refine ⟨h.dailyEth, h.monthlyEth, h.dailyUsdc, h.monthlyUsdc, h.dailyUsdc_le, h.monthlyUsdc_le,
    ?_, ?_⟩
  · intro a b
    have hcovered := h.ethCovered a b
    split_ifs at hcovered ⊢ <;> omega
  · have hcovered := h.usdcCovered
    omega

theorem Ledger.later {now' : ℕ} (h : Ledger cfg now w 0 usdcDue) (hn : now ≤ now') :
    Ledger cfg now' w 0 usdcDue := by
  refine ⟨h.dailyEth.later hn, h.monthlyEth.later hn, h.dailyUsdc, h.monthlyUsdc, h.dailyUsdc_le,
    h.monthlyUsdc_le, ?_, h.usdcCovered⟩
  intro a b
  have hcovered := h.ethCovered a b
  simpa only [ite_self] using hcovered

theorem Ledger.transfer {env : Env} {amount : ℕ} (h : Ledger cfg now w ethDue (amount + usdcDue))
    (ht : transferUsdc env now w amount = some w') : Ledger cfg now w' ethDue usdcDue := by
  unfold transferUsdc at ht
  split_ifs at ht with hcode hfunds
  · obtain rfl := Option.some.inj ht
    have hfunds : Ledger cfg now { w with usdcBalance := w.usdcBalance - amount } ethDue
        (amount + usdcDue) := h.congr rfl (SameCounters.refl _)
    exact hfunds.event rfl rfl (by simp [ethSent]) (by simp [usdcSent])
  · obtain rfl := Option.some.inj ht
    exact h.mono (Nat.le_refl _) (by omega)

variable {env : Env} {block : Block} {ks : List Pending}

theorem Balanced.congr (h : Balanced cfg block w ks) (hjournal : w'.journal = w.journal)
    (hsame : SameCounters w.storage w'.storage) : Balanced cfg block w' ks :=
  ⟨h.1.congr hjournal hsame, h.2⟩

theorem Balanced.event (h : Balanced cfg block w ks) {event : Event}
    (heth : ethRecorded event = 0) (husdc : usdcRecorded event = 0) (hsent : ethSent event = 0)
    (hmoved : usdcSent event = 0) :
    Balanced cfg block (logged w block.timestamp [event]) ks :=
  ⟨h.1.event heth husdc (by omega) (by omega), h.2⟩

theorem AllPayments.push {k : Pending} (h : AllPayments ks)
    (hk : ∀ call rest, k = .calls call rest → Payments (call :: rest)) :
    AllPayments (k :: ks) := by
  intro call rest hmem
  rcases List.mem_cons.mp hmem with hmem | hmem
  · exact hk call rest hmem.symm
  · exact h call rest hmem

theorem Balanced.push (h : Balanced cfg block w ks) {k : Pending}
    (heth : ethDueOf (k :: ks) = ethDueOf ks) (husdc : usdcDueOf (k :: ks) = usdcDueOf ks)
    (hcalls : ∀ call rest, k ≠ .calls call rest) : Balanced cfg block w (k :: ks) := by
  refine ⟨?_, h.2.push fun call rest hk => absurd hk (hcalls call rest)⟩
  rw [heth, husdc]
  exact h.1

theorem doCalls_balanced {calls : List Call} (hpay : Payments calls) (hks : AllPayments ks)
    (h : Ledger cfg block.timestamp w (ethSum calls + ethDueOf ks) (usdcDueOf ks)) :
    (doCalls block.timestamp w calls).Keeps (Balanced cfg block) ks := by
  apply keeps_doCalls
  · intro _
    exact ⟨h.mono (by omega) (Nat.le_refl _), hks⟩
  · intro call rest hcalls _
    subst hcalls
    have hspent : Ledger cfg block.timestamp { w with balance := w.balance - call.value }
        (ethSum (call :: rest) + ethDueOf ks) (usdcDueOf ks) :=
      h.congr rfl (SameCounters.refl _)
    refine ⟨hspent.event rfl rfl ?_ ?_, ?_⟩
    · simp only [ethSum, ethDueOf, ethSent, List.map_cons, List.sum_cons]
      omega
    · simp [usdcSent, usdcDueOf]
    · apply hks.push
      intro call' rest' hk
      cases hk
      exact hpay

theorem spendAndCall_balanced {sender : Address} {call : SpendCall}
    (h : Balanced cfg block w ks) :
    (spendAndCall cfg block.timestamp w sender call).Keeps (Balanced cfg block) ks := by
  apply keeps_spendAndCall
  intro s events _ hok
  obtain ⟨eth, hspend, _⟩ := validateAndRecordSpend_eq_ok.mp hok
  exact doCalls_balanced (SpendCall.spend_eq_ok hspend).1 h.2 (h.1.account hok)

theorem payPrefund_balanced {missingAccountFunds : ℕ} (h : Balanced cfg block w ks) :
    Balanced cfg block (payPrefund block.timestamp w missingAccountFunds) ks := by
  unfold payPrefund
  split_ifs with hfunds
  · have hpaid : Balanced cfg block { w with balance := w.balance - missingAccountFunds } ks :=
      h.congr rfl (SameCounters.refl _)
    exact hpaid.event rfl rfl rfl rfl
  · exact h

theorem preflight_sameCounters {op : PackedUserOperation} {s s' : Storage}
    {userOpHash validationData : ℕ}
    (h : preflight env cfg block s op userOpHash = .ok (validationData, s')) :
    SameCounters s s' := by
  obtain ⟨eth, usdc, gasCost, _, _, _, _, _, _, _, rfl⟩ := preflight_eq_ok.mp h
  exact noted_sameCounters cfg s block.timestamp eth (usdc + gasCost)

theorem withdrawUsdcPart_balanced {recipient ethAmount : ℕ} (h : Balanced cfg block w ks) :
    (withdrawUsdcPart env block.timestamp w recipient ethAmount).Keeps (Balanced cfg block) ks := by
  apply keeps_withdrawUsdcPart
  · exact h.push rfl rfl (fun _ _ hk => nomatch hk)
  · exact h.event rfl rfl rfl rfl

theorem enter_balanced (h : Balanced cfg block w ks) (input : Input) :
    ((account env cfg).enter block w input).Keeps (Balanced cfg block) ks := by
  cases input with
  | receive amount => exact h.congr rfl (SameCounters.refl _)
  | validateUserOp sender op userOpHash missingAccountFunds =>
    apply keeps_validateUserOp
    intro validationData s _ hpre
    have hstored : Balanced cfg block { w with storage := s } ks :=
      h.congr rfl (preflight_sameCounters hpre)
    apply payPrefund_balanced
    exact hstored.event rfl rfl rfl rfl
  | execute sender call => exact spendAndCall_balanced h
  | executeBatch sender calls => exact spendAndCall_balanced h
  | payForGasInUsdc sender gasLeft amount =>
    apply keeps_payForGasInUsdc
    intro s events _ hok
    obtain ⟨_, hroom, rfl, rfl⟩ := applyUsdcSpend_eq_ok.mp hok
    exact ⟨h.1.recordUsdc hroom, h.2.push fun _ _ hk => nomatch hk⟩
  | addDeposit amount => exact h
  | requestEmergencyWithdraw sender =>
    apply keeps_requestEmergencyWithdraw
    intro _
    have hstored : Balanced cfg block
        { w with storage.emergencyWithdrawRequestTime := block.timestamp } ks :=
      h.congr rfl ⟨rfl, rfl, rfl, rfl, rfl, rfl⟩
    exact hstored.event rfl rfl rfl rfl
  | emergencyWithdraw sender recipient =>
    have hcleared : Balanced cfg block { w with storage.emergencyWithdrawRequestTime := 0 } ks :=
      h.congr rfl ⟨rfl, rfl, rfl, rfl, rfl, rfl⟩
    have hpassed : Balanced cfg block (logged
        { w with storage.emergencyWithdrawRequestTime := 0 } block.timestamp
        [.withdrawGuardsPassed]) ks := hcleared.event rfl rfl rfl rfl
    apply keeps_emergencyWithdraw
    · intro _ _
      have hsent : Balanced cfg block { logged
          { w with storage.emergencyWithdrawRequestTime := 0 } block.timestamp
          [.withdrawGuardsPassed] with balance := 0 } ks :=
        hpassed.congr rfl (SameCounters.refl _)
      exact hsent.push rfl rfl (fun _ _ hk => nomatch hk)
    · intro _
      exact withdrawUsdcPart_balanced hpassed
  | receiveUsdc amount => exact h.congr rfl (SameCounters.refl _)
  | «foreign» =>
    apply h.push rfl rfl
    intro _ _ hk
    cases hk

theorem resume_balanced {k : Pending} (h : Balanced cfg block w (k :: ks)) (ok : Bool) :
    ((account env cfg).resume block w k ok).Keeps (Balanced cfg block) ks := by
  apply keeps_resume
  have hbelow : AllPayments ks := fun call rest hmem =>
    h.2 call rest (List.mem_cons_of_mem _ hmem)
  cases k with
  | calls call rest =>
    have hpay := h.2 call rest List.mem_cons_self
    have htarget : call.target ≠ usdc := (hpay call List.mem_cons_self).1
    simp only [account, AccountMachine.resume]
    rw [if_neg htarget]
    exact doCalls_balanced (fun c hc => hpay c (List.mem_cons_of_mem _ hc)) hbelow h.1
  | gasPayment amount =>
    apply keeps_gasPayment
    intro w' ht
    exact ⟨h.1.transfer ht, hbelow⟩
  | withdrawEth recipient ethAmount =>
    exact withdrawUsdcPart_balanced ⟨h.1, hbelow⟩
  | withdrawUsdc recipient ethAmount usdcAmount =>
    have hks : Balanced cfg block w ks := ⟨h.1, hbelow⟩
    have hpaid : Balanced cfg block { w with usdcBalance := w.usdcBalance - usdcAmount } ks :=
      hks.congr rfl (SameCounters.refl _)
    apply keeps_withdrawUsdc
    intro _
    exact hpaid.event rfl rfl rfl rfl
  | «foreign» => exact ⟨h.1, hbelow⟩

/-- The ledger is kept by every function, under any callers and any nesting. -/
theorem account_balanced (env : Env) (cfg : Config) :
    Invariant (account env cfg) (fun _ _ _ => True) (Balanced cfg) where
  advance := by
    intro block block' w hlater h
    exact ⟨h.1.later (of_decide_eq_true hlater), h.2⟩
  enter := by
    intro block w ks input _ h
    exact enter_balanced h input
  resume := by
    intro block w k ks ok h
    exact resume_balanced h ok

theorem launched_balanced (cfg : Config) (block : Block) (balance usdcBalance : ℕ) :
    Holds (Balanced cfg) (launched block balance usdcBalance) := by
  refine ⟨⟨⟨?_, ?_, ?_, ?_, ?_, ?_, ?_, ?_⟩, ?_⟩, trivial⟩
  · exact Windowed.start block.timestamp
  · exact Windowed.start block.timestamp
  · exact Nat.le_refl 0
  · exact Nat.le_refl 0
  · exact Nat.zero_le _
  · exact Nat.zero_le _
  · intro a b
    simp [launched, ethDueOf]
  · exact Nat.le_refl 0
  · intro call rest hmem
    exact nomatch hmem

theorem run_balanced {env : Env} {cfg : Config} {block : Block} {labels : List (Label Block Input)}
    {m : Machine Block World Pending} (h : Run env cfg block labels m) :
    Ledger cfg m.clock.timestamp m.world (ethDueOf (m.stack.map Frame.pending))
      (usdcDueOf (m.stack.map Frame.pending)) := by
  obtain ⟨balance, usdcBalance, hrun⟩ := h
  exact ((account_balanced env cfg).run (launched_balanced cfg block balance usdcBalance)
    (admits_true _ _ _) hrun).1.1

end BoundedSpending.AccountLedger
