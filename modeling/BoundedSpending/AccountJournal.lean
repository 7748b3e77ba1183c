import BoundedSpending.AccountRules

set_option autoImplicit false

namespace BoundedSpending.AccountJournal

open CheckedArithmetic TimedLog CallDataDecoder UserOperations SpendRecorders Preflight
open NestedCalls AccountMachine AccountRules

def Grows (now : ℕ) (emits : Event → Prop) (w w' : World) : Prop :=
  ∃ events, w'.journal = stamped now events ++ w.journal ∧ ∀ event ∈ events, emits event

theorem Grows.same {now : ℕ} {emits : Event → Prop} {w w' : World}
    (h : w'.journal = w.journal) : Grows now emits w w' :=
  ⟨[], h, fun _ hmem => nomatch hmem⟩

theorem Grows.event {now : ℕ} {emits : Event → Prop} {w w' : World} {event : Event}
    (h : w'.journal = (now, event) :: w.journal) (he : emits event) : Grows now emits w w' := by
  refine ⟨[event], h, ?_⟩
  intro e hmem
  rw [List.mem_singleton.mp hmem]
  exact he

theorem Grows.trans {now : ℕ} {emits : Event → Prop} {w v u : World}
    (h : Grows now emits w v) (h' : Grows now emits v u) : Grows now emits w u := by
  obtain ⟨xs, hj, hx⟩ := h
  obtain ⟨ys, hj', hy⟩ := h'
  refine ⟨ys ++ xs, ?_, ?_⟩
  · rw [hj', hj]
    simp only [stamped, List.map_append, List.append_assoc]
  · intro e hmem
    rcases List.mem_append.mp hmem with hmem | hmem
    · exact hy e hmem
    · exact hx e hmem

theorem Grows.mono {now : ℕ} {emits emits' : Event → Prop} {w w' : World}
    (h : Grows now emits w w') (he : ∀ event, emits event → emits' event) :
    Grows now emits' w w' := by
  obtain ⟨events, hj, hall⟩ := h
  exact ⟨events, hj, fun e hmem => he e (hall e hmem)⟩

structure OnlyLogs (now : ℕ) (emits : Event → Prop) (w w' : World) : Prop where
  storage : w'.storage = w.storage
  grows : Grows now emits w w'

theorem OnlyLogs.same {now : ℕ} {emits : Event → Prop} {w w' : World}
    (hs : w'.storage = w.storage) (hj : w'.journal = w.journal) : OnlyLogs now emits w w' :=
  ⟨hs, Grows.same hj⟩

theorem OnlyLogs.event {now : ℕ} {emits : Event → Prop} {w w' : World} {event : Event}
    (hs : w'.storage = w.storage) (hj : w'.journal = (now, event) :: w.journal)
    (he : emits event) : OnlyLogs now emits w w' :=
  ⟨hs, Grows.event hj he⟩

theorem OnlyLogs.trans {now : ℕ} {emits : Event → Prop} {w v u : World}
    (h : OnlyLogs now emits w v) (h' : OnlyLogs now emits v u) : OnlyLogs now emits w u :=
  ⟨h'.storage.trans h.storage, h.grows.trans h'.grows⟩

/-- A call of `validateUserOp` that is accepted and sends a prefund. -/
def PaysPrefund (env : Env) (cfg : Config) (block : Block) (w : World) : Input → Prop
  | .validateUserOp sender op userOpHash missingAccountFunds =>
    sender = cfg.entryPointContract ∧
      (∃ result, preflight env cfg block w.storage op userOpHash = .ok result) ∧
      missingAccountFunds ≠ 0 ∧ missingAccountFunds ≤ w.balance
  | _ => False

def SpendEvent : Event → Prop
  | .ethSpent _ | .usdcSpent _ | .ethTransferred _ | .usdcTransferred _ | .accounted _ _ => True
  | _ => False

def Transfer : Event → Prop
  | .ethTransferred _ | .usdcTransferred _ => True
  | _ => False

def EnterEmits (env : Env) (cfg : Config) (block : Block) (w : World) : Input → Event → Prop
  | .validateUserOp sender op userOpHash missingAccountFunds, event =>
    event = .validated ∨ (event = .prefundPaid missingAccountFunds ∧
      PaysPrefund env cfg block w (.validateUserOp sender op userOpHash missingAccountFunds))
  | .execute _ _, event => SpendEvent event
  | .executeBatch _ _, event => SpendEvent event
  | .payForGasInUsdc _ _ _, event => SpendEvent event
  | .requestEmergencyWithdraw _, event => event = .emergencyWithdrawRequested
  | .emergencyWithdraw _ recipient, event => event = .withdrawGuardsPassed ∨
    ∃ ethAmount usdcAmount, event = .emergencyWithdrawExecuted recipient ethAmount usdcAmount
  | _, _ => False

def ResumeEmits : Pending → Event → Prop
  | .calls _ _, event => SpendEvent event
  | .gasPayment _, event => SpendEvent event
  | .withdrawEth recipient ethAmount, event =>
    ∃ usdcAmount, event = .emergencyWithdrawExecuted recipient ethAmount usdcAmount
  | .withdrawUsdc recipient ethAmount usdcAmount, event =>
    event = .emergencyWithdrawExecuted recipient ethAmount usdcAmount
  | .foreign, _ => False

variable {env : Env} {cfg : Config} {block : Block} {w w' : World} {ks : List Pending}

theorem spendEvents_spend {eth usdc : ℕ} {event : Event} (h : event ∈ spendEvents eth usdc) :
    SpendEvent event := by
  simp only [spendEvents, List.mem_append, List.mem_ite_nil_right, List.mem_singleton] at h
  rcases h with ⟨_, rfl⟩ | ⟨_, rfl⟩
  · trivial
  · trivial

theorem Transfer.spend {event : Event} (h : Transfer event) : SpendEvent event := by
  cases event with
  | ethTransferred amount => trivial
  | usdcTransferred amount => trivial
  | _ => exact h.elim

theorem doCalls_logs (now : ℕ) (w : World) (calls : List Call) :
    (doCalls now w calls).Keeps (fun w' _ => OnlyLogs now Transfer w w') ks := by
  apply keeps_doCalls
  · intro _
    exact OnlyLogs.same rfl rfl
  · intro call rest _ _
    exact OnlyLogs.event rfl rfl trivial

/-- What `execute` and `executeBatch` do before anybody else runs. -/
theorem spendAndCall_effect (now : ℕ) (sender : Address) (call : SpendCall) :
    (spendAndCall cfg now w sender call).Keeps (fun w' _ => ∃ s events,
      validateAndRecordSpend cfg w.storage now call = .ok (s, events) ∧
        OnlyLogs now Transfer (logged { w with storage := s } now events) w') ks := by
  apply keeps_spendAndCall
  intro s events _ hok
  exact Keeps.imp (doCalls_logs now _ call.calls) fun _ _ h => ⟨s, events, hok, h⟩

theorem accounting_spend {now : ℕ} {call : SpendCall} {s s' : Storage} {events : List Event}
    (h : validateAndRecordSpend cfg s now call = .ok (s', events)) :
    ∀ event ∈ events, SpendEvent event := by
  obtain ⟨eth, _, _, _, _, _, _, rfl⟩ := validateAndRecordSpend_eq_ok.mp h
  intro event hmem
  rcases List.mem_append.mp hmem with hmem | hmem
  · exact spendEvents_spend hmem
  · rw [List.mem_singleton.mp hmem]
    trivial

theorem spendAndCall_grows (sender : Address) (call : SpendCall) :
    (spendAndCall cfg block.timestamp w sender call).Keeps
      (fun w' _ => Grows block.timestamp SpendEvent w w') ks := by
  refine Keeps.imp (spendAndCall_effect block.timestamp sender call) fun w' _ h => ?_
  obtain ⟨s, events, hok, hsent⟩ := h
  have hrecorded : Grows block.timestamp SpendEvent w
      (logged { w with storage := s } block.timestamp events) :=
    ⟨events, rfl, accounting_spend hok⟩
  exact hrecorded.trans (hsent.grows.mono fun _ => Transfer.spend)

theorem withdrawUsdcPart_logs (w : World) (recipient ethAmount : ℕ) :
    (withdrawUsdcPart env block.timestamp w recipient ethAmount).Keeps
      (fun w' _ => OnlyLogs block.timestamp (fun event => ∃ usdcAmount,
        event = .emergencyWithdrawExecuted recipient ethAmount usdcAmount) w w') ks := by
  apply keeps_withdrawUsdcPart
  · exact OnlyLogs.same rfl rfl
  · exact OnlyLogs.event rfl rfl ⟨0, rfl⟩

theorem payPrefund_grows (now : ℕ) (w : World) (missingAccountFunds : ℕ) :
    Grows now (fun event => event = .prefundPaid missingAccountFunds ∧
      missingAccountFunds ≠ 0 ∧ missingAccountFunds ≤ w.balance) w
      (payPrefund now w missingAccountFunds) := by
  unfold payPrefund
  split_ifs with hfunds
  · exact Grows.event rfl ⟨rfl, hfunds⟩
  · exact Grows.same rfl

def Stores (env : Env) (cfg : Config) (block : Block) (s : Storage) : Input → Storage → Prop
  | .validateUserOp _ op userOpHash _, s' =>
    ∃ validationData, preflight env cfg block s op userOpHash = .ok (validationData, s')
  | .execute _ call, s' =>
    ∃ events, validateAndRecordSpend cfg s block.timestamp (.execute call) = .ok (s', events)
  | .executeBatch _ calls, s' =>
    ∃ events, validateAndRecordSpend cfg s block.timestamp (.executeBatch calls) = .ok (s', events)
  | .payForGasInUsdc _ _ amount, s' =>
    ∃ events, applyUsdcSpend cfg s block.timestamp amount = .ok (s', events)
  | .requestEmergencyWithdraw sender, s' => sender = cfg.vaultOwner ∧
    s' = { s with emergencyWithdrawRequestTime := block.timestamp }
  | .emergencyWithdraw sender _, s' =>
    emergencyWithdrawGuards cfg s block.timestamp sender = .ok () ∧
      s' = { s with emergencyWithdrawRequestTime := 0 }
  | _, s' => s' = s

theorem payPrefund_storage (now : ℕ) (w : World) (missingAccountFunds : ℕ) :
    (payPrefund now w missingAccountFunds).storage = w.storage := by
  unfold payPrefund
  split_ifs <;> rfl

theorem spendAndCall_stores (sender : Address) (call : SpendCall) :
    (spendAndCall cfg block.timestamp w sender call).Keeps (fun w' _ => ∃ events,
      validateAndRecordSpend cfg w.storage block.timestamp call = .ok (w'.storage, events)) ks := by
  refine Keeps.imp (spendAndCall_effect block.timestamp sender call) fun w' _ h => ?_
  obtain ⟨s, events, hok, hsent⟩ := h
  exact ⟨events, hsent.storage ▸ hok⟩

theorem enter_stores (input : Input) :
    ((account env cfg).enter block w input).Keeps
      (fun w' _ => Stores env cfg block w.storage input w'.storage) ks := by
  cases input with
  | validateUserOp sender op userOpHash missingAccountFunds =>
    apply keeps_validateUserOp
    intro validationData s _ hpre
    rw [payPrefund_storage]
    exact ⟨validationData, hpre⟩
  | execute sender call => exact spendAndCall_stores sender (.execute call)
  | executeBatch sender calls => exact spendAndCall_stores sender (.executeBatch calls)
  | payForGasInUsdc sender gasLeft amount =>
    apply keeps_payForGasInUsdc
    intro s events _ hok
    exact ⟨events, hok⟩
  | requestEmergencyWithdraw sender =>
    apply keeps_requestEmergencyWithdraw
    intro howner
    exact ⟨howner, rfl⟩
  | emergencyWithdraw sender recipient =>
    apply keeps_emergencyWithdraw
    · intro hok _
      exact ⟨hok, rfl⟩
    · intro hok
      exact Keeps.imp (withdrawUsdcPart_logs _ recipient 0) fun _ _ h => ⟨hok, h.storage⟩
  | receive amount => exact rfl
  | addDeposit amount => exact rfl
  | receiveUsdc amount => exact rfl
  | «foreign» => exact rfl

theorem enter_grows (input : Input) :
    ((account env cfg).enter block w input).Keeps
      (fun w' _ => Grows block.timestamp (EnterEmits env cfg block w input) w w') ks := by
  cases input with
  | receive amount => exact Grows.same rfl
  | validateUserOp sender op userOpHash missingAccountFunds =>
    apply keeps_validateUserOp
    intro validationData s hsender hpre
    have hvalidated : Grows block.timestamp (EnterEmits env cfg block w
        (.validateUserOp sender op userOpHash missingAccountFunds)) w
        (logged { w with storage := s } block.timestamp [.validated]) :=
      Grows.event rfl (.inl rfl)
    apply hvalidated.trans
    apply (payPrefund_grows block.timestamp _ missingAccountFunds).mono
    intro event hpaid
    exact .inr ⟨hpaid.1, hsender, ⟨_, hpre⟩, hpaid.2⟩
  | execute sender call => exact spendAndCall_grows sender (.execute call)
  | executeBatch sender calls => exact spendAndCall_grows sender (.executeBatch calls)
  | payForGasInUsdc sender gasLeft amount =>
    apply keeps_payForGasInUsdc
    intro s events _ hok
    obtain ⟨_, _, _, rfl⟩ := applyUsdcSpend_eq_ok.mp hok
    exact Grows.event rfl trivial
  | addDeposit amount => exact Grows.same rfl
  | requestEmergencyWithdraw sender =>
    apply keeps_requestEmergencyWithdraw
    intro _
    exact Grows.event rfl rfl
  | emergencyWithdraw sender recipient =>
    apply keeps_emergencyWithdraw
    · intro _ _
      exact Grows.event rfl (.inl rfl)
    · intro _
      refine Keeps.imp (withdrawUsdcPart_logs _ recipient 0) fun _ _ h => ?_
      have hpassed : Grows block.timestamp
          (EnterEmits env cfg block w (.emergencyWithdraw sender recipient)) w
          (logged { w with storage.emergencyWithdrawRequestTime := 0 } block.timestamp
            [.withdrawGuardsPassed]) := Grows.event rfl (.inl rfl)
      exact hpassed.trans (h.grows.mono fun event he => .inr ⟨0, he⟩)
  | receiveUsdc amount => exact Grows.same rfl
  | «foreign» => exact Grows.same rfl

theorem transferUsdc_logs {now amount : ℕ} (h : transferUsdc env now w amount = some w') :
    OnlyLogs now Transfer w w' := by
  unfold transferUsdc at h
  split_ifs at h with hcode hfunds
  · obtain rfl := Option.some.inj h
    exact OnlyLogs.event rfl rfl trivial
  · obtain rfl := Option.some.inj h
    exact OnlyLogs.same rfl rfl

def AnswerEmits : Pending → Event → Prop
  | .calls _ _, event => Transfer event
  | .gasPayment _, event => Transfer event
  | k, event => ResumeEmits k event

/-- All accounting is over before the first call, so an answer finds the storage settled. -/
theorem resume_logs (k : Pending) (ok : Bool) :
    ((account env cfg).resume block w k ok).Keeps
      (fun w' _ => OnlyLogs block.timestamp (AnswerEmits k) w w') ks := by
  apply keeps_resume
  cases k with
  | calls call rest =>
    simp only [account, AccountMachine.resume]
    split_ifs with htarget
    · cases ht : transferUsdc env block.timestamp w (transferAmount call.data) with
      | none => trivial
      | some v =>
        exact Keeps.imp (doCalls_logs block.timestamp v rest) fun _ _ h =>
          (transferUsdc_logs ht).trans h
    · exact doCalls_logs block.timestamp w rest
  | gasPayment amount =>
    apply keeps_gasPayment
    intro v ht
    exact transferUsdc_logs ht
  | withdrawEth recipient ethAmount => exact withdrawUsdcPart_logs w recipient ethAmount
  | withdrawUsdc recipient ethAmount usdcAmount =>
    apply keeps_withdrawUsdc
    intro _
    exact OnlyLogs.event rfl rfl rfl
  | «foreign» => exact OnlyLogs.same rfl rfl

theorem AnswerEmits.resumeEmits {k : Pending} {event : Event} (h : AnswerEmits k event) :
    ResumeEmits k event := by
  cases k with
  | calls call rest => exact Transfer.spend h
  | gasPayment amount => exact Transfer.spend h
  | withdrawEth recipient ethAmount => exact h
  | withdrawUsdc recipient ethAmount usdcAmount => exact h
  | «foreign» => exact h

theorem resume_grows (k : Pending) (ok : Bool) :
    ((account env cfg).resume block w k ok).Keeps
      (fun w' _ => Grows block.timestamp (ResumeEmits k) w w') ks :=
  Keeps.imp (resume_logs k ok) fun _ _ h => h.grows.mono fun _ => AnswerEmits.resumeEmits

end BoundedSpending.AccountJournal
