import BoundedSpending.AccountJournal
import BoundedSpending.SpacedLog

set_option autoImplicit false

namespace BoundedSpending.LargeSpendCooldown

open CheckedArithmetic TimedLog SpacedLog UserOperations SpendRecorders CallDataDecoder Preflight
open NestedCalls AccountMachine AccountRules AccountJournal

def LargeTotal (cfg : Config) (eth usdc : ℕ) : Prop :=
  cfg.dailyUsdcLimit / 2 < eth * cfg.usdcPerEth / ether + usdc

instance (cfg : Config) (eth usdc : ℕ) : Decidable (LargeTotal cfg eth usdc) := by
  unfold LargeTotal; infer_instance

def largeSpends (cfg : Config) : Event → ℕ
  | .accounted eth usdc => if LargeTotal cfg eth usdc then 1 else 0
  | _ => 0

/-- A validation, or the accounting of an execution. -/
def Guarded : Event → Prop
  | .validated | .accounted _ _ => True
  | _ => False

def GuardedCall : Input → Prop
  | .validateUserOp _ _ _ _ | .execute _ _ | .executeBatch _ _ => True
  | _ => False

/-- What a guarded call that gets through leaves on the journal. -/
def OnRecord (now : ℕ) (journal : Journal) : Input → Prop
  | .validateUserOp _ _ _ _ => (now, .validated) ∈ journal
  | .execute _ call => ∃ eth usdc, (SpendCall.execute call).spend = .ok (eth, usdc) ∧
    (now, .accounted eth usdc) ∈ journal
  | .executeBatch _ calls => ∃ eth usdc, (SpendCall.executeBatch calls).spend = .ok (eth, usdc) ∧
    (now, .accounted eth usdc) ∈ journal
  | _ => True

/-- The word covers every large spend on the journal, and these are spaced. -/
structure Cooling (cfg : Config) (block : Block) (w : World) : Prop where
  clock_pos : 0 < block.timestamp
  covered : ∀ entry ∈ w.journal, 0 < largeSpends cfg entry.2 →
    entry.1 ≤ w.storage.lastLargeSpendTime ∧ w.storage.lastLargeSpendTime ≠ 0
  spaced : Spaced cooldownPeriod (largeSpends cfg) Guarded w.journal

theorem largeTotal_iff {cfg : Config} {eth usdc : ℕ} :
    LargeTotal cfg eth usdc ↔ LargeSpend cfg eth usdc := by
  have hhalf : cfg.dailyUsdcLimit * panicThresholdBps / 10000 = cfg.dailyUsdcLimit / 2 := by
    unfold panicThresholdBps
    omega
  rw [LargeTotal, LargeSpend, hhalf]

theorem largeSpends_accounted (cfg : Config) (eth usdc : ℕ) :
    largeSpends cfg (.accounted eth usdc) = if LargeTotal cfg eth usdc then 1 else 0 := rfl

theorem largeSpends_le_one (cfg : Config) (event : Event) : largeSpends cfg event ≤ 1 := by
  cases event with
  | accounted eth usdc =>
    rw [largeSpends_accounted]
    split_ifs
    · exact Nat.le_refl 1
    · exact Nat.zero_le 1
  | _ => exact Nat.zero_le 1

theorem guarded_of_large {cfg : Config} {event : Event} (h : 0 < largeSpends cfg event) :
    Guarded event := by
  cases event with
  | accounted eth usdc => trivial
  | _ => exact absurd h (lt_irrefl 0)

variable {env : Env} {cfg : Config} {block : Block} {w w' : World} {ks : List Pending}

theorem Cooling.quiet {emits : Event → Prop} (h : Cooling cfg block w)
    (hlast : w'.storage.lastLargeSpendTime = w.storage.lastLargeSpendTime)
    (hg : Grows block.timestamp emits w w') (hemits : ∀ event, emits event → ¬ Guarded event) :
    Cooling cfg block w' := by
  obtain ⟨events, hjournal, hall⟩ := hg
  have hquiet : ∀ entry ∈ stamped block.timestamp events, ¬ Guarded entry.2 :=
    forall_stamped fun event hmem => hemits event (hall event hmem)
  refine ⟨h.clock_pos, ?_, ?_⟩
  · intro entry hmem hlarge
    rw [hlast]
    rw [hjournal] at hmem
    rcases List.mem_append.mp hmem with hmem | hmem
    · exact absurd (guarded_of_large hlarge) (hquiet entry hmem)
    · exact h.covered entry hmem hlarge
  · rw [hjournal]
    exact h.spaced.append_unguarded hquiet

theorem Cooling.logs {emits : Event → Prop} (h : Cooling cfg block w)
    (hl : OnlyLogs block.timestamp emits w w') (hemits : ∀ event, emits event → ¬ Guarded event) :
    Cooling cfg block w' :=
  h.quiet (congrArg _ hl.storage) hl.grows hemits

theorem Cooling.event {event : Event} (h : Cooling cfg block w)
    (hlast : w'.storage.lastLargeSpendTime = w.storage.lastLargeSpendTime)
    (hjournal : w'.journal = (block.timestamp, event) :: w.journal) (hevent : ¬ Guarded event) :
    Cooling cfg block w' := by
  have hg : Grows block.timestamp (fun e => e = event) w w' := Grows.event hjournal rfl
  apply h.quiet hlast hg
  intro e he
  rw [he]
  exact hevent

theorem Cooling.admissible (h : Cooling cfg block w)
    (hover : CooldownOver w.storage block.timestamp) :
    Admissible cooldownPeriod (largeSpends cfg) block.timestamp w.journal := by
  intro older hmem hlarge
  obtain ⟨hle, hne⟩ := h.covered older hmem hlarge
  have hafter := (hover.resolve_left hne).2
  omega

/-- The word may stay where it is, or be moved to the present; it must move for a large spend. -/
theorem Cooling.guarded {s : Storage} {event : Event} (h : Cooling cfg block w)
    (hover : CooldownOver w.storage block.timestamp)
    (hs : s.lastLargeSpendTime = block.timestamp ∨
      (s.lastLargeSpendTime = w.storage.lastLargeSpendTime ∧ largeSpends cfg event = 0)) :
    Cooling cfg block (logged { w with storage := s } block.timestamp [event]) := by
  have hadmissible := h.admissible hover
  have hpos := h.clock_pos
  refine ⟨h.clock_pos, ?_, h.spaced.cons fun _ => hadmissible⟩
  intro entry hmem hlarge
  change entry.1 ≤ s.lastLargeSpendTime ∧ s.lastLargeSpendTime ≠ 0
  rcases List.mem_cons.mp hmem with rfl | hmem
  · rcases hs with hs | hs
    · rw [hs]
      exact ⟨Nat.le_refl _, by omega⟩
    · exact absurd hs.2 (Nat.ne_of_gt hlarge)
  · rcases hs with hs | hs
    · have hold := hadmissible entry hmem hlarge
      rw [hs]
      exact ⟨by omega, by omega⟩
    · rw [hs.1]
      exact h.covered entry hmem hlarge

theorem noted_last (cfg : Config) (s : Storage) (now eth usdc : ℕ) :
    (noted cfg s now eth usdc).lastLargeSpendTime = now ∨
      ((noted cfg s now eth usdc).lastLargeSpendTime = s.lastLargeSpendTime ∧
        largeSpends cfg (.accounted eth usdc) = 0) := by
  rw [largeSpends_accounted, noted]
  by_cases hlarge : LargeSpend cfg eth usdc
  · rw [if_pos hlarge]
    exact .inl rfl
  · rw [if_neg hlarge, if_neg (fun htotal => hlarge (largeTotal_iff.mp htotal))]
    exact .inr ⟨rfl, rfl⟩

theorem Cooling.validated {op : PackedUserOperation} {s : Storage}
    {userOpHash validationData : ℕ} (h : Cooling cfg block w)
    (hpre : preflight env cfg block w.storage op userOpHash = .ok (validationData, s)) :
    Cooling cfg block (logged { w with storage := s } block.timestamp [.validated]) := by
  obtain ⟨eth, usdc, gasCost, _, _, _, _, _, hover, _, rfl⟩ := preflight_eq_ok.mp hpre
  apply h.guarded hover
  rcases noted_last cfg w.storage block.timestamp eth (usdc + gasCost) with hlast | hlast
  · exact .inl hlast
  · exact .inr ⟨hlast.1, rfl⟩

theorem Cooling.accounted {call : SpendCall} {s : Storage} {events : List Event}
    (h : Cooling cfg block w)
    (hok : validateAndRecordSpend cfg w.storage block.timestamp call = .ok (s, events)) :
    Cooling cfg block (logged { w with storage := s } block.timestamp events) := by
  obtain ⟨eth, _, hover, _, _, _, hs, rfl⟩ := validateAndRecordSpend_eq_ok.mp hok
  have hlast : s.lastLargeSpendTime = block.timestamp ∨
      (s.lastLargeSpendTime = w.storage.lastLargeSpendTime ∧
        largeSpends cfg (.accounted eth 0) = 0) := by
    rw [hs]
    exact noted_last cfg w.storage block.timestamp eth 0
  have hmarked := h.guarded hover hlast
  rw [logged_append]
  refine hmarked.quiet rfl ⟨spendEvents eth 0, rfl, fun _ hmem => hmem⟩ ?_
  intro event hmem hguarded
  simp only [spendEvents, lt_irrefl, if_false, List.nil_append, List.mem_ite_nil_right,
    List.mem_singleton] at hmem
  rw [hmem.2] at hguarded
  exact hguarded

theorem Transfer.unguarded {event : Event} (h : Transfer event) : ¬ Guarded event := by
  cases event with
  | ethTransferred amount => exact id
  | usdcTransferred amount => exact id
  | _ => exact h.elim

theorem AnswerEmits.unguarded {k : Pending} {event : Event} (h : AnswerEmits k event) :
    ¬ Guarded event := by
  cases k with
  | calls call rest => exact Transfer.unguarded h
  | gasPayment amount => exact Transfer.unguarded h
  | withdrawEth recipient ethAmount =>
    obtain ⟨usdcAmount, rfl⟩ := (h : ∃ usdcAmount, event =
      .emergencyWithdrawExecuted recipient ethAmount usdcAmount)
    exact id
  | withdrawUsdc recipient ethAmount usdcAmount =>
    obtain rfl := (h : event = .emergencyWithdrawExecuted recipient ethAmount usdcAmount)
    exact id
  | «foreign» => exact (h : False).elim

theorem spendAndCall_cooling (h : Cooling cfg block w) (sender : Address) (call : SpendCall) :
    (spendAndCall cfg block.timestamp w sender call).Keeps (fun w' _ => Cooling cfg block w')
      ks := by
  refine Keeps.imp (spendAndCall_effect block.timestamp sender call) fun w' _ heffect => ?_
  obtain ⟨s, events, hok, hsent⟩ := heffect
  exact (h.accounted hok).logs hsent fun _ => Transfer.unguarded

theorem payPrefund_cooling (h : Cooling cfg block w) (missingAccountFunds : ℕ) :
    Cooling cfg block (payPrefund block.timestamp w missingAccountFunds) := by
  unfold payPrefund
  split_ifs with hfunds
  · exact h.event rfl rfl id
  · exact h

theorem withdrawUsdcPart_cooling (h : Cooling cfg block w) (recipient ethAmount : ℕ) :
    (withdrawUsdcPart env block.timestamp w recipient ethAmount).Keeps
      (fun w' _ => Cooling cfg block w') ks := by
  apply keeps_withdrawUsdcPart
  · exact h
  · exact h.event rfl rfl id

/-- Only the two guards move the word; the other functions log what is not guarded. -/
theorem enter_cooling (h : Cooling cfg block w) (input : Input) :
    ((account env cfg).enter block w input).Keeps (fun w' _ => Cooling cfg block w') ks := by
  cases input with
  | validateUserOp sender op userOpHash missingAccountFunds =>
    apply keeps_validateUserOp
    intro validationData s _ hpre
    exact payPrefund_cooling (h.validated hpre) missingAccountFunds
  | execute sender call => exact spendAndCall_cooling h sender (.execute call)
  | executeBatch sender calls => exact spendAndCall_cooling h sender (.executeBatch calls)
  | payForGasInUsdc sender gasLeft amount =>
    apply keeps_payForGasInUsdc
    intro s events _ hok
    obtain ⟨_, _, rfl, rfl⟩ := applyUsdcSpend_eq_ok.mp hok
    exact h.event rfl rfl id
  | requestEmergencyWithdraw sender =>
    apply keeps_requestEmergencyWithdraw
    intro _
    exact h.event rfl rfl id
  | emergencyWithdraw sender recipient =>
    apply keeps_emergencyWithdraw
    · intro _ _
      exact h.event rfl rfl id
    · intro _
      apply withdrawUsdcPart_cooling
      exact h.event rfl rfl id
  | receive amount => exact h.quiet rfl (Grows.same rfl) fun _ => False.elim
  | addDeposit amount => exact h
  | receiveUsdc amount => exact h.quiet rfl (Grows.same rfl) fun _ => False.elim
  | «foreign» => exact h

theorem account_cooling (env : Env) (cfg : Config) :
    Invariant (account env cfg) (fun _ _ _ => True) (fun block w _ => Cooling cfg block w) where
  advance := by
    intro block block' w hlater h
    exact ⟨h.clock_pos.trans_le (of_decide_eq_true hlater), h.covered, h.spaced⟩
  enter := by
    intro block w ks input _ h
    exact enter_cooling h input
  resume := by
    intro block w k ks ok h
    exact Keeps.imp (resume_logs k ok) fun _ _ hlogs =>
      h.logs hlogs fun _ => AnswerEmits.unguarded

theorem run_cooling {labels : List (Label Block Input)} {m : Machine Block World Pending}
    (hpos : 0 < block.timestamp) (hrun : Run env cfg block labels m) :
    Cooling cfg m.clock m.world := by
  obtain ⟨balance, usdcBalance, hrun⟩ := hrun
  have hstart : Holds (fun block w _ => Cooling cfg block w)
      (launched block balance usdcBalance) := by
    refine ⟨⟨hpos, ?_, List.Pairwise.nil⟩, trivial⟩
    intro entry hmem
    cases hmem
  exact ((account_cooling env cfg).run hstart (admits_true _ _ _) hrun).1

theorem spendAndCall_onRecord (now : ℕ) (sender : Address) (call : SpendCall) :
    (spendAndCall cfg now w sender call).Keeps (fun w' _ => ∃ eth usdc,
      call.spend = .ok (eth, usdc) ∧ (now, .accounted eth usdc) ∈ w'.journal) ks := by
  refine Keeps.imp (spendAndCall_effect now sender call) fun w' _ heffect => ?_
  obtain ⟨s, events, hok, _, sent, hjournal, _⟩ := heffect
  obtain ⟨eth, hspend, _, _, _, _, _, rfl⟩ := validateAndRecordSpend_eq_ok.mp hok
  refine ⟨eth, 0, hspend, ?_⟩
  rw [hjournal, logged_append]
  simp [logged, stamped]

theorem enter_onRecord (input : Input) :
    ((account env cfg).enter block w input).Keeps
      (fun w' _ => OnRecord block.timestamp w'.journal input) ks := by
  cases input with
  | validateUserOp sender op userOpHash missingAccountFunds =>
    apply keeps_validateUserOp
    intro _ s _ _
    obtain ⟨paid, hjournal, _⟩ := payPrefund_grows block.timestamp
      (logged { w with storage := s } block.timestamp [.validated]) missingAccountFunds
    change (block.timestamp, Event.validated) ∈ (payPrefund _ _ _).journal
    rw [hjournal]
    exact List.mem_append_right _ List.mem_cons_self
  | execute sender call => exact spendAndCall_onRecord block.timestamp sender (.execute call)
  | executeBatch sender calls =>
    exact spendAndCall_onRecord block.timestamp sender (.executeBatch calls)
  | _ => exact Keeps.imp (enter_stores _) fun _ _ _ => trivial

theorem stores_cooldownOver {s s' : Storage} {input : Input} (hguarded : GuardedCall input)
    (h : Stores env cfg block s input s') : CooldownOver s block.timestamp := by
  cases input with
  | validateUserOp sender op userOpHash missingAccountFunds =>
    obtain ⟨validationData, hpre⟩ := h
    obtain ⟨_, _, _, _, _, _, _, _, hover, _, _⟩ := preflight_eq_ok.mp hpre
    exact hover
  | execute sender call =>
    obtain ⟨events, hok⟩ := h
    obtain ⟨_, _, hover, _⟩ := validateAndRecordSpend_eq_ok.mp hok
    exact hover
  | executeBatch sender calls =>
    obtain ⟨events, hok⟩ := h
    obtain ⟨_, _, hover, _⟩ := validateAndRecordSpend_eq_ok.mp hok
    exact hover
  | _ => exact hguarded.elim

theorem guarded_call_refused {entry : ℕ × Event} (h : Cooling cfg block w)
    (hmem : entry ∈ w.journal) (hlarge : 0 < largeSpends cfg entry.2)
    (hsoon : block.timestamp < entry.1 + cooldownPeriod) {input : Input}
    (hguarded : GuardedCall input) :
    ∃ reason, (account env cfg).enter block w input = .revert reason := by
  have hnone : ((account env cfg).enter block w input).Keeps (fun _ _ => False) [] := by
    refine Keeps.imp (enter_stores input) fun w' _ hstores => ?_
    have hdue := h.admissible (stores_cooldownOver hguarded hstores) entry hmem hlarge
    omega
  exact Keeps.exists_revert hnone

/-- A large spend on the journal keeps validations and executions out for an hour: those that
    got through are on the journal, and none is there or will be accepted before the hour is
    over. So an interval of `length` seconds sees at most `length / 3600 + 1` large spends. -/
theorem large_spends_spaced (env : Env) (cfg : Config) (block : Block)
    (hpos : 0 < block.timestamp) (labels : List (Label Block Input))
    (m : Machine Block World Pending) (hrun : Run env cfg block labels m) :
    (∀ newer older spentAt eth usdc,
      m.world.journal = newer ++ (spentAt, .accounted eth usdc) :: older →
      LargeTotal cfg eth usdc →
      (∀ entry ∈ newer, Guarded entry.2 → spentAt + cooldownPeriod ≤ entry.1) ∧
      (m.clock.timestamp < spentAt + cooldownPeriod → ∀ input, GuardedCall input →
        ∃ reason, (account env cfg).enter m.clock m.world input = .revert reason)) ∧
    (∀ input ks, ((account env cfg).enter m.clock m.world input).Keeps
      (fun w' _ => OnRecord m.clock.timestamp w'.journal input) ks) ∧
    ∀ start length, sumIn (largeSpends cfg) start (start + length) m.world.journal ≤
      length / cooldownPeriod + 1 := by
  have hcooling := run_cooling hpos hrun
  have hspaced := hcooling.spaced
  refine ⟨?_, ?_, ?_⟩
  · intro newer older spentAt eth usdc hjournal hlarge
    have hweight : 0 < largeSpends cfg (.accounted eth usdc) := by
      rw [largeSpends_accounted, if_pos hlarge]
      exact Nat.one_pos
    refine ⟨?_, ?_⟩
    · rw [hjournal] at hspaced
      exact hspaced.after hweight
    · intro hsoon input hguarded
      have hmem : (spentAt, Event.accounted eth usdc) ∈ m.world.journal := by
        rw [hjournal]
        exact List.mem_append_right newer List.mem_cons_self
      exact guarded_call_refused hcooling hmem hweight hsoon hguarded
  · intro input ks
    exact enter_onRecord input
  · intro start length
    have hbound := hspaced.sumIn_le (by decide) (largeSpends_le_one cfg)
      (fun _ => guarded_of_large) start (start + length)
    rwa [Nat.add_sub_cancel_left] at hbound

theorem large_spends_spaced_reached :
    0 < (blockAt 1000 (by decide)).timestamp ∧
    ∃ m, Run ownerEnv testConfig (blockAt 1000 (by decide))
        [.call (.execute 0x101 ⟨0x909, 6 * ether / 10, []⟩), .answer true,
          .advance (blockAt 4599 (by decide))] m ∧
      sumIn (largeSpends testConfig) 0 (0 + 4599) m.world.journal = 1 ∧
      sumIn (largeSpends testConfig) 0 (0 + 4599) m.world.journal ≤ 4599 / cooldownPeriod + 1 ∧
      ∀ input, GuardedCall input →
        ∃ reason, (account ownerEnv testConfig).enter m.clock m.world input = .revert reason := by
  refine ⟨by decide, ?_⟩
  have hspent : (run (account ownerEnv testConfig) (launched (blockAt 1000 (by decide)) ether 0)
      [.call (.execute 0x101 ⟨0x909, 6 * ether / 10, []⟩), .answer true,
        .advance (blockAt 4599 (by decide))]).map (fun m => (m.clock.timestamp, m.world.journal)) =
      some (4599, [(1000, .ethTransferred (6 * ether / 10)), (1000, .ethSpent (6 * ether / 10)),
        (1000, .accounted (6 * ether / 10) 0)]) := by
    decide +kernel
  obtain ⟨m, hrun, hstate⟩ := Run.of_map hspent
  obtain ⟨htime, hjournal⟩ := Prod.mk.inj hstate
  have hspaced := large_spends_spaced ownerEnv testConfig (blockAt 1000 (by decide)) (by decide) _ m
    hrun
  refine ⟨m, hrun, ?_, hspaced.2.2 0 4599, ?_⟩
  · rw [hjournal]
    decide
  · have hsoon : m.clock.timestamp < 1000 + cooldownPeriod := by
      rw [htime]
      decide
    exact (hspaced.1 [_, _] [] 1000 _ 0 hjournal (by decide)).2 hsoon

end BoundedSpending.LargeSpendCooldown
