import BoundedSpending.AccountJournal

set_option autoImplicit false

namespace BoundedSpending.EmergencyTimelock

open CheckedArithmetic TimedLog UserOperations SpendRecorders CallDataDecoder Preflight
open NestedCalls AccountMachine AccountRules AccountJournal

def Timelock (event : Event) : Prop :=
  event = .emergencyWithdrawRequested ∨ event = .withdrawGuardsPassed

/-- The history grants a withdrawal at `now`: its last timelock event is a
    request that is at least 48 hours old. -/
def Authorised (journal : Journal) (now : ℕ) : Prop :=
  ∃ newer requested older, journal = newer ++ (requested, .emergencyWithdrawRequested) :: older ∧
    (∀ entry ∈ newer, ¬ Timelock entry.2) ∧ requested + withdrawTimelock ≤ now

/-- The time of the request that is still open, 0 for none. -/
def openRequest : Journal → ℕ
  | [] => 0
  | (requested, .emergencyWithdrawRequested) :: _ => requested
  | (_, .withdrawGuardsPassed) :: _ => 0
  | _ :: older => openRequest older

def PositiveRequests (journal : Journal) : Prop :=
  ∀ requested, (requested, Event.emergencyWithdrawRequested) ∈ journal → 0 < requested

def PassagesAuthorised (journal : Journal) : Prop :=
  ∀ newer passed older, journal = newer ++ (passed, .withdrawGuardsPassed) :: older →
    Authorised older passed

theorem openRequest_quiet (entry : ℕ × Event) (h : ¬ Timelock entry.2) (older : Journal) :
    openRequest (entry :: older) = openRequest older := by
  obtain ⟨time, event⟩ := entry
  cases event <;> first | rfl | exact absurd (.inl rfl) h | exact absurd (.inr rfl) h

theorem openRequest_append {newer : Journal} (h : ∀ entry ∈ newer, ¬ Timelock entry.2)
    (older : Journal) : openRequest (newer ++ older) = openRequest older := by
  induction newer with
  | nil => rfl
  | cons entry newer ih =>
    rw [List.cons_append, openRequest_quiet entry (h entry List.mem_cons_self)]
    exact ih fun e he => h e (List.mem_cons_of_mem _ he)

theorem openRequest_split {journal : Journal} (h : openRequest journal ≠ 0) :
    ∃ newer older, journal =
        newer ++ (openRequest journal, .emergencyWithdrawRequested) :: older ∧
      ∀ entry ∈ newer, ¬ Timelock entry.2 := by
  induction journal with
  | nil => exact absurd rfl h
  | cons entry journal ih =>
    obtain ⟨time, event⟩ := entry
    by_cases hlock : Timelock event
    · rcases hlock with rfl | rfl
      · exact ⟨[], journal, rfl, fun _ hmem => nomatch hmem⟩
      · exact absurd rfl h
    · rw [openRequest_quiet (time, event) hlock] at h ⊢
      obtain ⟨newer, older, hjournal, hquiet⟩ := ih h
      refine ⟨(time, event) :: newer, older, congrArg _ hjournal, ?_⟩
      intro e hmem
      rcases List.mem_cons.mp hmem with rfl | hmem
      · exact hlock
      · exact hquiet e hmem

/-- Asking the storage word is asking the history. -/
theorem authorised_iff {journal : Journal} (hpos : PositiveRequests journal) {now : ℕ} :
    Authorised journal now ↔
      openRequest journal ≠ 0 ∧ openRequest journal + withdrawTimelock ≤ now := by
  constructor
  · intro h
    obtain ⟨newer, requested, older, hjournal, hquiet, hdue⟩ := h
    have hopen : openRequest journal = requested := by
      rw [hjournal, openRequest_append hquiet]
      rfl
    have hmem : 0 < requested := hpos requested (by rw [hjournal]; simp)
    rw [hopen]
    exact ⟨by omega, hdue⟩
  · intro h
    obtain ⟨newer, older, hjournal, hquiet⟩ := openRequest_split h.1
    exact ⟨newer, openRequest journal, older, hjournal, hquiet, h.2⟩

theorem emergencyWithdrawGuards_eq_ok {cfg : Config} {s : Storage} {block : Block}
    {sender : Address} {u : Unit} :
    emergencyWithdrawGuards cfg s block.timestamp sender = .ok u ↔
      sender = cfg.vaultOwner ∧ s.emergencyWithdrawRequestTime ≠ 0 ∧
        s.emergencyWithdrawRequestTime + withdrawTimelock ≤ block.timestamp := by
  have hlt := block.timestamp_lt
  simp only [emergencyWithdrawGuards, bind_returns, require_eq_ok, add_eq_ok]
  constructor
  · intro h
    obtain ⟨_, howner, _, hrequested, due, ⟨_, hdue⟩, hle⟩ := h
    exact ⟨howner, hrequested, hdue ▸ hle⟩
  · intro h
    exact ⟨(), h.1, (), h.2.1, _, ⟨by omega, rfl⟩, h.2.2⟩

structure Tracked (block : Block) (w : World) : Prop where
  clock_pos : 0 < block.timestamp
  word : w.storage.emergencyWithdrawRequestTime = openRequest w.journal
  requests : PositiveRequests w.journal
  passages : PassagesAuthorised w.journal

def Quiet (now : ℕ) (w w' : World) : Prop :=
  w'.storage.emergencyWithdrawRequestTime = w.storage.emergencyWithdrawRequestTime ∧
    Grows now (fun event => ¬ Timelock event) w w'

theorem append_split_of_not_mem {α : Type} {xs ys newer older : List α} {x : α}
    (hx : x ∉ xs) (h : xs ++ ys = newer ++ x :: older) : ∃ rest, ys = rest ++ x :: older := by
  rcases List.append_eq_append_iff.mp h with ⟨rest, _, hys⟩ | ⟨rest, hxs, hys⟩
  · exact ⟨rest, hys⟩
  · cases rest with
    | nil => exact ⟨[], hys.symm⟩
    | cons y rest =>
      have hy : x = y := (List.cons.inj hys).1
      exact absurd (by rw [hxs, hy]; simp) hx

theorem Tracked.quiet {block : Block} {w w' : World} (h : Tracked block w)
    (hq : Quiet block.timestamp w w') : Tracked block w' := by
  obtain ⟨hword, events, hjournal, hall⟩ := hq
  have hquiet : ∀ entry ∈ stamped block.timestamp events, ¬ Timelock entry.2 :=
    forall_stamped hall
  refine ⟨h.clock_pos, ?_, ?_, ?_⟩
  · rw [hword, hjournal, openRequest_append hquiet]
    exact h.word
  · intro requested hmem
    rw [hjournal] at hmem
    rcases List.mem_append.mp hmem with hmem | hmem
    · exact absurd (.inl rfl) (hquiet _ hmem)
    · exact h.requests requested hmem
  · intro newer passed older hsplit
    rw [hjournal] at hsplit
    have hnot : (passed, Event.withdrawGuardsPassed) ∉ stamped block.timestamp events :=
      fun hmem => hquiet _ hmem (.inr rfl)
    obtain ⟨rest, hrest⟩ := append_split_of_not_mem hnot hsplit
    exact h.passages rest passed older hrest

theorem Tracked.request {block : Block} {w : World} (h : Tracked block w) :
    Tracked block (logged { w with storage.emergencyWithdrawRequestTime := block.timestamp }
      block.timestamp [.emergencyWithdrawRequested]) := by
  refine ⟨h.clock_pos, rfl, ?_, ?_⟩
  · intro requested hmem
    rcases List.mem_cons.mp hmem with heq | hmem
    · rw [(Prod.mk.inj heq).1]
      exact h.clock_pos
    · exact h.requests requested hmem
  · intro newer passed older hsplit
    cases newer with
    | nil => exact nomatch (Prod.mk.inj (List.cons.inj hsplit).1).2
    | cons entry newer => exact h.passages newer passed older (List.cons.inj hsplit).2

theorem Tracked.pass {block : Block} {w : World} (h : Tracked block w)
    (hgranted : Authorised w.journal block.timestamp) :
    Tracked block (logged { w with storage.emergencyWithdrawRequestTime := 0 }
      block.timestamp [.withdrawGuardsPassed]) := by
  refine ⟨h.clock_pos, rfl, ?_, ?_⟩
  · intro requested hmem
    rcases List.mem_cons.mp hmem with heq | hmem
    · exact nomatch (Prod.mk.inj heq).2
    · exact h.requests requested hmem
  · intro newer passed older hsplit
    cases newer with
    | nil =>
      obtain ⟨hentry, hjournal⟩ := List.cons.inj hsplit
      rw [← (Prod.mk.inj hentry).1, ← hjournal]
      exact hgranted
    | cons entry newer => exact h.passages newer passed older (List.cons.inj hsplit).2

def OwnerTimelockCall (cfg : Config) : Input → Prop
  | .requestEmergencyWithdraw sender => sender = cfg.vaultOwner
  | .emergencyWithdraw sender _ => sender = cfg.vaultOwner
  | _ => False

def SameWord (w w' : World) : Prop :=
  w'.storage.emergencyWithdrawRequestTime = w.storage.emergencyWithdrawRequestTime

variable {env : Env} {cfg : Config} {block : Block} {w w' : World} {ks : List Pending}

theorem noted_word (s : Storage) (now eth usdc : ℕ) :
    (noted cfg s now eth usdc).emergencyWithdrawRequestTime = s.emergencyWithdrawRequestTime := by
  unfold noted
  split_ifs <;> rfl

theorem accounting_word {s s' : Storage} {now : ℕ} {call : SpendCall} {events : List Event}
    (h : validateAndRecordSpend cfg s now call = .ok (s', events)) :
    s'.emergencyWithdrawRequestTime = s.emergencyWithdrawRequestTime := by
  obtain ⟨eth, _, _, _, _, _, rfl, _⟩ := validateAndRecordSpend_eq_ok.mp h
  exact noted_word s now eth 0

theorem stores_word {s s' : Storage} {input : Input} (hnot : ¬ OwnerTimelockCall cfg input)
    (h : Stores env cfg block s input s') :
    s'.emergencyWithdrawRequestTime = s.emergencyWithdrawRequestTime := by
  cases input with
  | validateUserOp sender op userOpHash missingAccountFunds =>
    obtain ⟨validationData, hpre⟩ := h
    obtain ⟨eth, usdc, gasCost, _, _, _, _, _, _, _, rfl⟩ := preflight_eq_ok.mp hpre
    exact noted_word s block.timestamp eth (usdc + gasCost)
  | execute sender call =>
    obtain ⟨events, hok⟩ := h
    exact accounting_word hok
  | executeBatch sender calls =>
    obtain ⟨events, hok⟩ := h
    exact accounting_word hok
  | payForGasInUsdc sender gasLeft amount =>
    obtain ⟨events, hok⟩ := h
    obtain ⟨_, _, rfl, _⟩ := applyUsdcSpend_eq_ok.mp hok
    rfl
  | requestEmergencyWithdraw sender => exact absurd h.1 hnot
  | emergencyWithdraw sender recipient =>
    exact absurd (emergencyWithdrawGuards_eq_ok.mp h.1).1 hnot
  | receive amount => exact congrArg _ h
  | addDeposit amount => exact congrArg _ h
  | receiveUsdc amount => exact congrArg _ h
  | «foreign» => exact congrArg _ h

theorem enter_word (input : Input) (hnot : ¬ OwnerTimelockCall cfg input) :
    ((account env cfg).enter block w input).Keeps (fun w' _ => SameWord w w') ks :=
  Keeps.imp (enter_stores input) fun _ _ h => stores_word hnot h

theorem spendEvent_quiet {event : Event} (h : SpendEvent event) : ¬ Timelock event := by
  intro hlock
  rcases hlock with rfl | rfl
  · exact h
  · exact h

theorem enterEmits_quiet {input : Input} (hreq : ∀ sender, input ≠ .requestEmergencyWithdraw sender)
    (hew : ∀ sender recipient, input ≠ .emergencyWithdraw sender recipient) {event : Event}
    (h : EnterEmits env cfg block w input event) : ¬ Timelock event := by
  cases input with
  | validateUserOp sender op userOpHash missingAccountFunds =>
    rcases h with rfl | ⟨rfl, _⟩
    · simp [Timelock]
    · simp [Timelock]
  | execute sender call => exact spendEvent_quiet h
  | executeBatch sender calls => exact spendEvent_quiet h
  | payForGasInUsdc sender gasLeft amount => exact spendEvent_quiet h
  | requestEmergencyWithdraw sender => exact absurd rfl (hreq sender)
  | emergencyWithdraw sender recipient => exact absurd rfl (hew sender recipient)
  | receive amount => exact h.elim
  | addDeposit amount => exact h.elim
  | receiveUsdc amount => exact h.elim
  | «foreign» => exact h.elim

theorem resumeEmits_quiet {k : Pending} {event : Event} (h : ResumeEmits k event) :
    ¬ Timelock event := by
  cases k with
  | calls call rest => exact spendEvent_quiet h
  | gasPayment amount => exact spendEvent_quiet h
  | withdrawEth recipient ethAmount =>
    obtain ⟨_, rfl⟩ := h
    simp [Timelock]
  | withdrawUsdc recipient ethAmount usdcAmount =>
    obtain rfl := (h : event = .emergencyWithdrawExecuted recipient ethAmount usdcAmount)
    simp [Timelock]
  | «foreign» => exact h.elim

theorem enter_quiet (input : Input) (hnot : ¬ OwnerTimelockCall cfg input) :
    ((account env cfg).enter block w input).Keeps (fun w' _ => Quiet block.timestamp w w') ks := by
  refine Keeps.and (enter_word input hnot) ?_
  cases input with
  | requestEmergencyWithdraw sender =>
    apply keeps_requestEmergencyWithdraw
    intro howner
    exact absurd howner hnot
  | emergencyWithdraw sender recipient =>
    apply keeps_emergencyWithdraw
    · intro hok _
      exact absurd (emergencyWithdrawGuards_eq_ok.mp hok).1 hnot
    · intro hok
      exact absurd (emergencyWithdrawGuards_eq_ok.mp hok).1 hnot
  | _ =>
    refine Keeps.imp (enter_grows _) fun _ _ hg => hg.mono fun _ he => enterEmits_quiet ?_ ?_ he
    · intro sender heq
      cases heq
    · intro sender recipient heq
      cases heq

theorem OnlyLogs.quiet {now : ℕ} {emits : Event → Prop} (h : OnlyLogs now emits w w')
    (hemits : ∀ event, emits event → ¬ Timelock event) : Quiet now w w' :=
  ⟨congrArg _ h.storage, h.grows.mono hemits⟩

theorem resume_quiet (k : Pending) (ok : Bool) :
    ((account env cfg).resume block w k ok).Keeps
      (fun w' _ => Quiet block.timestamp w w') ks :=
  Keeps.imp (resume_logs k ok) fun _ _ h =>
    OnlyLogs.quiet h fun _ he => resumeEmits_quiet he.resumeEmits

theorem emergencyWithdraw_tracked {sender recipient : Address} (h : Tracked block w) :
    ((account env cfg).enter block w (.emergencyWithdraw sender recipient)).Keeps
      (fun w' _ => Tracked block w') ks := by
  have hpassed : emergencyWithdrawGuards cfg w.storage block.timestamp sender = .ok () →
      Tracked block (logged { w with storage.emergencyWithdrawRequestTime := 0 } block.timestamp
        [.withdrawGuardsPassed]) := by
    intro hok
    have hguards := (emergencyWithdrawGuards_eq_ok.mp hok).2
    rw [h.word] at hguards
    exact h.pass ((authorised_iff h.requests).mpr hguards)
  apply keeps_emergencyWithdraw
  · intro hok _
    exact (hpassed hok).quiet ⟨rfl, Grows.same rfl⟩
  · intro hok
    refine Keeps.imp (withdrawUsdcPart_logs _ recipient 0) fun _ _ hlogs => ?_
    apply (hpassed hok).quiet
    apply OnlyLogs.quiet hlogs
    intro event hevent
    obtain ⟨usdcAmount, rfl⟩ := hevent
    simp [Timelock]

theorem account_tracked (env : Env) (cfg : Config) :
    Invariant (account env cfg) (fun _ _ _ => True) (fun block w _ => Tracked block w) where
  advance := by
    intro block block' w hlater h
    have hle : block.timestamp ≤ block'.timestamp := of_decide_eq_true hlater
    exact ⟨h.clock_pos.trans_le hle, h.word, h.requests, h.passages⟩
  enter := by
    intro block w ks input _ h
    by_cases howner : OwnerTimelockCall cfg input
    · cases input with
      | requestEmergencyWithdraw sender =>
        apply keeps_requestEmergencyWithdraw
        intro _
        exact h.request
      | emergencyWithdraw sender recipient => exact emergencyWithdraw_tracked h
      | _ => exact howner.elim
    · exact Keeps.imp (enter_quiet input howner) fun _ _ hq => h.quiet hq
  resume := by
    intro block w k ks ok h
    exact Keeps.imp (resume_quiet k ok) fun _ _ hq => h.quiet hq

theorem run_tracked {block : Block} {labels : List (Label Block Input)}
    {m : Machine Block World Pending} (hpos : 0 < block.timestamp)
    (hrun : Run env cfg block labels m) : Tracked m.clock m.world := by
  obtain ⟨balance, usdcBalance, hrun⟩ := hrun
  have hstart : Holds (fun block w _ => Tracked block w) (launched block balance usdcBalance) := by
    refine ⟨⟨hpos, rfl, ?_, ?_⟩, trivial⟩
    · intro requested hmem
      exact nomatch hmem
    · intro newer passed older hsplit
      exact absurd hsplit (by simp [launched])
  exact ((account_tracked env cfg).run hstart (admits_true _ _ _) hrun).1

/-- Reverted unless `allowed`; otherwise the world has `J` when control leaves the
    account, before any call that the function makes is answered. -/
def RevertsUnless (allowed : Prop) (J : World → Prop) : Result → Prop
  | .revert _ => ¬ allowed
  | .done w' => allowed ∧ J w'
  | .suspend w' _ => allowed ∧ J w'

theorem RevertsUnless.revert {allowed : Prop} {J : World → Prop} {outcome : Result}
    (h : RevertsUnless allowed J outcome) (hnot : ¬ allowed) :
    ∃ reason, outcome = .revert reason := by
  cases outcome with
  | revert reason => exact ⟨reason, rfl⟩
  | done w' => exact absurd h.1 hnot
  | suspend w' k => exact absurd h.1 hnot

def Passed (now : ℕ) (w w' : World) : Prop :=
  w'.storage.emergencyWithdrawRequestTime = 0 ∧
    ∃ events, w'.journal = stamped now events ++ (now, .withdrawGuardsPassed) :: w.journal ∧
      ∀ event ∈ events, ¬ Timelock event

def Requested (now : ℕ) (w w' : World) : Prop :=
  w'.storage.emergencyWithdrawRequestTime = now ∧
    w'.journal = (now, .emergencyWithdrawRequested) :: w.journal

theorem emergencyWithdraw_passes {sender recipient : Address} {allowed : Prop}
    (hallowed : emergencyWithdrawGuards cfg w.storage block.timestamp sender = .ok () ↔ allowed) :
    RevertsUnless allowed (Passed block.timestamp w)
      ((account env cfg).enter block w (.emergencyWithdraw sender recipient)) := by
  simp only [account, AccountMachine.enter, emergencyWithdraw]
  cases hok : emergencyWithdrawGuards cfg w.storage block.timestamp sender with
  | error reason =>
    intro hgranted
    rw [hallowed.mpr hgranted] at hok
    cases hok
  | ok u =>
    have hgranted : allowed := hallowed.mp hok
    dsimp only
    split_ifs with hfunds
    · exact ⟨hgranted, rfl, [], rfl, List.forall_mem_nil _⟩
    · unfold withdrawUsdcPart
      split_ifs
      · exact ⟨hgranted, rfl, [], rfl, List.forall_mem_nil _⟩
      · refine ⟨hgranted, rfl, [.emergencyWithdrawExecuted recipient 0 0], rfl, ?_⟩
        intro event hmem
        rw [List.mem_singleton.mp hmem]
        simp [Timelock]

theorem requestEmergencyWithdraw_sets (sender : Address) :
    RevertsUnless (sender = cfg.vaultOwner) (Requested block.timestamp w)
      ((account env cfg).enter block w (.requestEmergencyWithdraw sender)) := by
  simp only [account, AccountMachine.enter, requestEmergencyWithdraw]
  split_ifs with howner
  · exact howner
  · exact ⟨not_not.mp howner, rfl, rfl⟩

/-- The guards let a call through exactly when the owner makes it and the history
    grants it, and clear the request before the first payment; no request is used
    twice, and no other call touches the timelock. -/
theorem emergencyWithdraw_timelock (env : Env) (cfg : Config) (block : Block)
    (hpos : 0 < block.timestamp) (labels : List (Label Block Input))
    (m : Machine Block World Pending) (hrun : Run env cfg block labels m) :
    (∀ sender, emergencyWithdrawGuards cfg m.world.storage m.clock.timestamp sender = .ok () ↔
      sender = cfg.vaultOwner ∧ Authorised m.world.journal m.clock.timestamp) ∧
    (∀ newer passed older, m.world.journal = newer ++ (passed, .withdrawGuardsPassed) :: older →
      Authorised older passed) ∧
    (∀ sender recipient, RevertsUnless
      (sender = cfg.vaultOwner ∧ Authorised m.world.journal m.clock.timestamp)
      (Passed m.clock.timestamp m.world)
      ((account env cfg).enter m.clock m.world (.emergencyWithdraw sender recipient))) ∧
    (∀ sender, RevertsUnless (sender = cfg.vaultOwner) (Requested m.clock.timestamp m.world)
      ((account env cfg).enter m.clock m.world (.requestEmergencyWithdraw sender))) ∧
    (∀ input ks, ¬ OwnerTimelockCall cfg input →
      ((account env cfg).enter m.clock m.world input).Keeps
        (fun w' _ => Quiet m.clock.timestamp m.world w') ks) ∧
    (∀ k ok ks, ((account env cfg).resume m.clock m.world k ok).Keeps
      (fun w' _ => Quiet m.clock.timestamp m.world w') ks) := by
  have htracked := run_tracked hpos hrun
  have hguards : ∀ sender,
      emergencyWithdrawGuards cfg m.world.storage m.clock.timestamp sender = .ok () ↔
        sender = cfg.vaultOwner ∧ Authorised m.world.journal m.clock.timestamp := by
    intro sender
    rw [emergencyWithdrawGuards_eq_ok, htracked.word, authorised_iff htracked.requests]
  refine ⟨hguards, htracked.passages, ?_, requestEmergencyWithdraw_sets, ?_, ?_⟩
  · intro sender recipient
    exact emergencyWithdraw_passes (hguards sender)
  · intro input ks hnot
    exact enter_quiet input hnot
  · intro k ok ks
    exact resume_quiet k ok

theorem tooEarly_lt : 346599 < wordSize := by decide

theorem dueAgain_lt : 346600 < wordSize := by decide

/-- The owner is a contract that is paid its 5 wei. Before it answers it tries to
    withdraw again, and then it asks anew. -/
def reentered : List (Label Block Input) :=
  [.call (.requestEmergencyWithdraw 0x202), .advance (blockAt 173800 dueTime_lt),
    .call (.emergencyWithdraw 0x202 0x202), .call (.emergencyWithdraw 0x202 0x202),
    .call (.requestEmergencyWithdraw 0x202), .answer true]

def reenteredJournal : Journal :=
  [(173800, .emergencyWithdrawExecuted 0x202 5 0), (173800, .emergencyWithdrawRequested),
    (173800, .withdrawGuardsPassed), (1000, .emergencyWithdrawRequested)]

def Reentered (later : Block) (m : Machine Block World Pending) : Prop :=
  Run ownerEnv testConfig (blockAt 1000 testTime_lt) (reentered ++ [.advance later]) m ∧
    m.clock.timestamp = later.timestamp ∧ m.world.storage.emergencyWithdrawRequestTime = 173800 ∧
    m.world.journal = reenteredJournal

theorem reentered_of_map {later : Block}
    (h : (run (account ownerEnv testConfig) (launched (blockAt 1000 testTime_lt) 5 0)
      (reentered ++ [.advance later])).map (fun m => (m.clock.timestamp,
        m.world.storage.emergencyWithdrawRequestTime, m.world.journal)) =
      some (later.timestamp, 173800, reenteredJournal)) : ∃ m, Reentered later m := by
  obtain ⟨m, hrun, hstate⟩ := Run.of_map h
  obtain ⟨htime, hstate⟩ := Prod.mk.inj hstate
  obtain ⟨hword, hjournal⟩ := Prod.mk.inj hstate
  exact ⟨m, hrun, htime, hword, hjournal⟩

/-- The second withdrawal waits for 48 hours after the second request. -/
theorem emergencyWithdraw_timelock_reentered :
    0 < (blockAt 1000 testTime_lt).timestamp ∧
    (∃ m, Reentered (blockAt 346599 tooEarly_lt) m ∧
      Authorised [(1000, .emergencyWithdrawRequested)] 173800 ∧
      ¬ Authorised m.world.journal m.clock.timestamp ∧
      ∃ reason, (account ownerEnv testConfig).enter m.clock m.world
        (.emergencyWithdraw 0x202 0x202) = .revert reason) ∧
    ∃ m, Reentered (blockAt 346600 dueAgain_lt) m ∧
      Authorised m.world.journal m.clock.timestamp ∧
      RevertsUnless True (Passed m.clock.timestamp m.world)
        ((account ownerEnv testConfig).enter m.clock m.world (.emergencyWithdraw 0x202 0x202)) := by
  refine ⟨by decide, ?_, ?_⟩
  · obtain ⟨m, hrun, htime, hword, hjournal⟩ : ∃ m, Reentered (blockAt 346599 tooEarly_lt) m :=
      reentered_of_map (by decide +kernel)
    obtain ⟨hguards, hpassages, hwithdraws, _⟩ := emergencyWithdraw_timelock ownerEnv testConfig
      (blockAt 1000 testTime_lt) (by decide) _ m hrun
    have hrefused : ¬ (0x202 = testConfig.vaultOwner ∧
        Authorised m.world.journal m.clock.timestamp) := by
      rw [← hguards, emergencyWithdrawGuards_eq_ok, htime, hword]
      decide
    have hearly : ¬ Authorised m.world.journal m.clock.timestamp := fun h => hrefused ⟨rfl, h⟩
    refine ⟨m, ⟨hrun, htime, hword, hjournal⟩, ?_, hearly, ?_⟩
    · exact hpassages (reenteredJournal.take 2) _ _ hjournal
    · exact (hwithdraws 0x202 0x202).revert hrefused
  · obtain ⟨m, hrun, htime, hword, hjournal⟩ : ∃ m, Reentered (blockAt 346600 dueAgain_lt) m :=
      reentered_of_map (by decide +kernel)
    obtain ⟨hguards, _, hwithdraws, _⟩ := emergencyWithdraw_timelock ownerEnv testConfig
      (blockAt 1000 testTime_lt) (by decide) _ m hrun
    have hdue : 0x202 = testConfig.vaultOwner ∧
        Authorised m.world.journal m.clock.timestamp := by
      rw [← hguards, emergencyWithdrawGuards_eq_ok, htime, hword]
      decide
    have hpasses := hwithdraws 0x202 0x202
    rw [eq_true hdue] at hpasses
    exact ⟨m, ⟨hrun, htime, hword, hjournal⟩, hdue.2, hpasses⟩

end BoundedSpending.EmergencyTimelock
