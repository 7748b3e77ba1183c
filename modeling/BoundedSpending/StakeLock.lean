import BoundedSpending.EntryPointSolvency

set_option autoImplicit false

namespace BoundedSpending.StakeLock

open CheckedArithmetic NestedCalls
open EntryPointState StakeManager BundleHandler EntryPointMachine EntryPointEffects EntryPointRules

inductive StakeStatus where
  | free
  | locked (stake unstakeDelaySec : ℕ)
  /-- Unlocked, and to be withdrawn from `withdrawTime` on. -/
  | leaving (stake unstakeDelaySec withdrawTime : ℕ)
  deriving DecidableEq, Repr

inductive StakeEvent where
  | locked (totalStaked unstakeDelaySec : ℕ)
  | unlocked (withdrawTime : ℕ)
  | withdrawn (amount : ℕ)
  deriving DecidableEq, Repr

namespace StakeStatus

def stake : StakeStatus → ℕ
  | .free => 0
  | .locked stake _ => stake
  | .leaving stake _ _ => stake

def delay : StakeStatus → ℕ
  | .free => 0
  | .locked _ unstakeDelaySec => unstakeDelaySec
  | .leaving _ unstakeDelaySec _ => unstakeDelaySec

/-- Stake and delay only grow until the whole stake leaves, which takes the delay. -/
def next (now : ℕ) : StakeStatus → StakeEvent → Option StakeStatus
  | status, .locked totalStaked unstakeDelaySec =>
    if status.stake ≤ totalStaked ∧ 0 < totalStaked ∧ status.delay ≤ unstakeDelaySec ∧
        0 < unstakeDelaySec then some (.locked totalStaked unstakeDelaySec)
    else none
  | .locked stake unstakeDelaySec, .unlocked withdrawTime =>
    if withdrawTime = now % 2 ^ 48 + unstakeDelaySec then
      some (.leaving stake unstakeDelaySec withdrawTime)
    else none
  | .leaving stake _ withdrawTime, .withdrawn amount =>
    if amount = stake ∧ withdrawTime ≤ now then some .free else none
  | _, _ => none

/-- A history, newest event first. -/
def replay : List (ℕ × StakeEvent) → Option StakeStatus
  | [] => some .free
  | e :: older => (replay older).bind fun status => status.next e.1 e.2

def info (deposit : ℕ) : StakeStatus → DepositInfo
  | .free => ⟨deposit, false, 0, 0, 0⟩
  | .locked stake unstakeDelaySec => ⟨deposit, true, stake, unstakeDelaySec, 0⟩
  | .leaving stake unstakeDelaySec withdrawTime =>
    ⟨deposit, false, stake, unstakeDelaySec, withdrawTime⟩

variable {history older newer : List (ℕ × StakeEvent)} {status : StakeStatus} {now : ℕ}

theorem replay_cons_eq_some {e : ℕ × StakeEvent} : replay (e :: history) = some status ↔
    ∃ before, replay history = some before ∧ before.next e.1 e.2 = some status :=
  Option.bind_eq_some_iff

theorem replay_suffix (h : replay (newer ++ history) = some status) :
    ∃ before, replay history = some before := by
  induction newer generalizing status with
  | nil => exact ⟨status, h⟩
  | cons e newer ih =>
    obtain ⟨before, hbefore, _⟩ := replay_cons_eq_some.mp h
    exact ih hbefore

theorem replay_locked {stake unstakeDelaySec : ℕ}
    (h : replay history = some (.locked stake unstakeDelaySec)) :
    ∃ time older, history = (time, .locked stake unstakeDelaySec) :: older := by
  cases history with
  | nil => exact nomatch Option.some.inj h
  | cons e older =>
    obtain ⟨time, event⟩ := e
    obtain ⟨before, _, hnext⟩ := replay_cons_eq_some.mp h
    cases event with
    | locked totalStaked delay =>
      simp only [next, Option.ite_none_right_eq_some, Option.some.injEq, locked.injEq] at hnext
      obtain ⟨_, rfl, rfl⟩ := hnext
      exact ⟨time, older, rfl⟩
    | unlocked withdrawTime => cases before <;> simp [next] at hnext
    | withdrawn amount => cases before <;> simp [next] at hnext

theorem replay_leaving {stake unstakeDelaySec withdrawTime : ℕ}
    (h : replay history = some (.leaving stake unstakeDelaySec withdrawTime)) :
    ∃ unlockTime lockTime older, history = (unlockTime, .unlocked withdrawTime) ::
        (lockTime, .locked stake unstakeDelaySec) :: older ∧
      withdrawTime = unlockTime % 2 ^ 48 + unstakeDelaySec := by
  cases history with
  | nil => exact nomatch Option.some.inj h
  | cons e older =>
    obtain ⟨time, event⟩ := e
    obtain ⟨before, hbefore, hnext⟩ := replay_cons_eq_some.mp h
    cases event with
    | locked totalStaked delay => simp [next] at hnext
    | unlocked due =>
      cases before with
      | free => simp [next] at hnext
      | locked stake' delay =>
        simp only [next, Option.ite_none_right_eq_some, Option.some.injEq, leaving.injEq] at hnext
        obtain ⟨hdue, rfl, rfl, rfl⟩ := hnext
        obtain ⟨lockTime, oldest, rfl⟩ := replay_locked hbefore
        exact ⟨time, lockTime, oldest, rfl, hdue⟩
      | leaving stake' delay due' => simp [next] at hnext
    | withdrawn amount => cases before <;> simp [next] at hnext

theorem replay_withdrawn {time amount : ℕ}
    (h : replay (newer ++ (time, .withdrawn amount) :: older) = some status) :
    ∃ unlockTime lockTime unstakeDelaySec oldest,
      older = (unlockTime, .unlocked (unlockTime % 2 ^ 48 + unstakeDelaySec)) ::
        (lockTime, .locked amount unstakeDelaySec) :: oldest ∧
      unlockTime % 2 ^ 48 + unstakeDelaySec ≤ time := by
  obtain ⟨after, hafter⟩ := replay_suffix h
  obtain ⟨before, hbefore, hnext⟩ := replay_cons_eq_some.mp hafter
  cases before with
  | free => simp [next] at hnext
  | locked stake delay => simp [next] at hnext
  | leaving stake delay due =>
    simp only [next, Option.ite_none_right_eq_some] at hnext
    obtain ⟨⟨rfl, hdue⟩, _⟩ := hnext
    obtain ⟨unlockTime, lockTime, oldest, rfl, rfl⟩ := replay_leaving hbefore
    exact ⟨unlockTime, lockTime, delay, oldest, rfl, hdue⟩

end StakeStatus

open StakeStatus

def stakeEventOf (account : Address) : EntryPointEvent → Option StakeEvent
  | .stakeLocked a totalStaked unstakeDelaySec =>
    if a = account then some (.locked totalStaked unstakeDelaySec) else none
  | .stakeUnlocked a withdrawTime => if a = account then some (.unlocked withdrawTime) else none
  | .stakeWithdrawn a _ amount => if a = account then some (.withdrawn amount) else none
  | _ => none

def stakeHistory (account : Address) (s : System) : List (ℕ × StakeEvent) :=
  s.journal.filterMap fun e => (stakeEventOf account e.2).map (Prod.mk e.1)

def Tracked (s : System) : Prop :=
  ∀ a, ∃ status, replay (stakeHistory a s) = some status ∧
    s.deposits a = status.info (s.deposits a).deposit

variable {d : Deployment} {block : Block} {s s' : System} {o : Option Obligations}
  {sender : Address} {now : ℕ}

theorem Tracked.same (h : Tracked s) (hhistory : ∀ a, stakeHistory a s' = stakeHistory a s)
    (hdeposits : s'.deposits = s.deposits) : Tracked s' := by
  intro a
  rw [hhistory, hdeposits]
  exact h a

theorem Tracked.deposit (h : Tracked s) {amount : ℕ}
    (hhistory : ∀ a, stakeHistory a s' = stakeHistory a s)
    (hdeposits : s'.deposits = Function.update s.deposits sender
      { s.deposits sender with deposit := amount }) : Tracked s' := by
  intro a
  obtain ⟨status, hreplay, hinfo⟩ := h a
  rw [hhistory, hdeposits]
  refine ⟨status, hreplay, ?_⟩
  by_cases ha : a = sender
  · subst ha
    rw [Function.update_self, hinfo]
    cases status <;> rfl
  · rw [Function.update_of_ne ha]
    exact hinfo

theorem Tracked.step (h : Tracked s) {event : StakeEvent} {info : DepositInfo}
    (hhistory : ∀ a, stakeHistory a s' =
      if sender = a then (now, event) :: stakeHistory a s else stakeHistory a s)
    (hdeposits : s'.deposits = Function.update s.deposits sender info)
    (hnext : ∀ status : StakeStatus, s.deposits sender = status.info (s.deposits sender).deposit →
      ∃ status' : StakeStatus, status.next now event = some status' ∧
        info = status'.info info.deposit) :
    Tracked s' := by
  intro a
  obtain ⟨status, hreplay, hinfo⟩ := h a
  rw [hhistory, hdeposits]
  by_cases ha : sender = a
  · subst ha
    obtain ⟨status', hstep, hinfo'⟩ := hnext status hinfo
    rw [if_pos rfl, Function.update_self]
    exact ⟨status', replay_cons_eq_some.mpr ⟨status, hreplay, hstep⟩, hinfo'⟩
  · rw [if_neg ha, Function.update_of_ne (Ne.symm ha)]
    exact ⟨status, hreplay, hinfo⟩

theorem stakeHistory_emitted {e : EntryPointEvent} {event : StakeEvent}
    (he : ∀ a, stakeEventOf a e = if sender = a then some event else none) (a : Address) :
    stakeHistory a (emitted s now [e]) =
      if sender = a then (now, event) :: stakeHistory a s else stakeHistory a s := by
  change ((now, e) :: s.journal).filterMap _ = _
  by_cases ha : sender = a
  · rw [List.filterMap_cons_some (b := (now, event)), if_pos ha]
    · rfl
    · rw [he, if_pos ha]
      rfl
  · rw [List.filterMap_cons_none, if_neg ha]
    · rfl
    · rw [he, if_neg ha]
      rfl

theorem tracked_addStake {unstakeDelaySec amount : ℕ} (h : Tracked s)
    (hok : addStake now s sender unstakeDelaySec amount = .ok s') : Tracked s' := by
  obtain ⟨_, hpositive, hlonger, hstake, _, rfl⟩ := addStake_eq_ok.mp hok
  refine h.step (stakeHistory_emitted fun a => rfl) rfl ?_
  intro status hinfo
  have hstake' : (s.deposits sender).stake = status.stake := by
    rw [hinfo]
    cases status <;> rfl
  have hdelay' : (s.deposits sender).unstakeDelaySec = status.delay := by
    rw [hinfo]
    cases status <;> rfl
  exact ⟨.locked _ _, if_pos ⟨hstake' ▸ Nat.le_add_right _ _, hstake, hdelay' ▸ hlonger, hpositive⟩,
    rfl⟩

theorem tracked_unlockStake (h : Tracked s) (hok : unlockStake now s sender = .ok s') :
    Tracked s' := by
  obtain ⟨_, hstaked, _, rfl⟩ := unlockStake_eq_ok.mp hok
  refine h.step (stakeHistory_emitted fun a => rfl) rfl ?_
  intro status hinfo
  rw [hinfo] at hstaked ⊢
  cases status with
  | free => exact nomatch hstaked
  | locked stake unstakeDelaySec =>
    exact ⟨.leaving _ _ _, if_pos rfl, rfl⟩
  | leaving stake unstakeDelaySec withdrawTime => exact nomatch hstaked

theorem tracked_withdrawStake {withdrawAddress : Address} (h : Tracked s)
    (hok : withdrawStake now s sender withdrawAddress = .ok s') : Tracked s' := by
  obtain ⟨hstake, hunlocked, hdue, _, rfl⟩ := withdrawStake_eq_ok.mp hok
  refine h.step (stakeHistory_emitted fun a => rfl) rfl ?_
  intro status hinfo
  rw [hinfo] at hstake hunlocked hdue ⊢
  cases status with
  | free => exact absurd hstake (lt_irrefl 0)
  | locked stake unstakeDelaySec => exact absurd hunlocked (lt_irrefl 0)
  | leaving stake unstakeDelaySec withdrawTime =>
    exact ⟨.free, if_pos ⟨rfl, hdue⟩, rfl⟩

theorem tracked_depositTo (h : Tracked s) (account : Address) (amount : ℕ) :
    Tracked (depositTo now s account amount) :=
  h.deposit (fun _ => rfl) rfl

theorem tracked_accepted {v : Validation} {validationData : ℕ} (h : Tracked s)
    (haccepted : Accepted d block s v validationData s') : Tracked s' := by
  cases haccepted with
  | account hsender hok =>
    obtain ⟨account, _, rfl⟩ := validateByAccount_eq_ok.mp hok
    have hvalidated : Tracked { s with account := account } := h.same (fun _ => rfl) rfl
    simp only [withPaid]
    split_ifs
    · exact tracked_depositTo hvalidated _ _
    · exact hvalidated
  | other hsender validationData => exact h

theorem tracked_closed : Closed d fun _ s _ _ => Tracked s where
  advance := fun _ _ _ _ h => h
  effect := by
    intro block s o calls s' o' calls' h heffect
    cases heffect with
    | deposited account amount hfits => exact tracked_depositTo h account amount
    | stakeAdded sender unstakeDelaySec amount hfits hok => exact tracked_addStake h hok
    | stakeUnlocked sender hok => exact tracked_unlockStake h hok
    | stakeWithdrawn sender withdrawAddress hok => exact tracked_withdrawStake h hok
    | withdrawn sender withdrawAddress amount hsender hok =>
      obtain ⟨_, _, rfl⟩ := withdrawTo_eq_ok.mp hok
      exact h.deposit (fun _ => rfl) rfl
    | nonceSkipped sender key hsender hok =>
      obtain ⟨_, rfl⟩ := incrementNonce_eq_ok.mp hok
      exact h.same (fun _ => rfl) rfl
    | remarked e hremark =>
      cases e <;> first | exact hremark.elim | exact h.same (fun _ => rfl) rfl
    | prepaid v hprepared haccepted hcharge =>
      obtain ⟨_, _, _, rfl⟩ := charge_eq_ok.mp hcharge
      exact (tracked_accepted h haccepted).deposit (fun _ => rfl) rfl
    | refunded accepted cost gas hcost => exact h.deposit (fun _ => rfl) rfl
    | _ => exact h.same (fun _ => rfl) rfl

/-- In every run the staking of each address follows the machine of stakes, and what is
    stored for it is the machine's state; so a stake that was withdrawn had been locked
    under some delay, was then unlocked, and left no earlier than that delay after the
    time of the unlocking taken modulo `2 ^ 48`, as the `uint48` of its due time takes it. -/
theorem stakes_refine {labels : List (Label Block (Input d))} {m : Machine Block System Pending}
    (hrun : Run d block labels m) (account : Address) :
    (∃ status, replay (stakeHistory account m.world) = some status ∧
      m.world.deposits account = status.info (m.world.deposits account).deposit) ∧
    ∀ newer older time amount,
      stakeHistory account m.world = newer ++ (time, .withdrawn amount) :: older →
      ∃ unlockTime lockTime unstakeDelaySec oldest,
        older = (unlockTime, .unlocked (unlockTime % 2 ^ 48 + unstakeDelaySec)) ::
          (lockTime, .locked amount unstakeDelaySec) :: oldest ∧
        unlockTime % 2 ^ 48 + unstakeDelaySec ≤ time := by
  obtain ⟨status, hreplay, hinfo⟩ := (run_agrees tracked_closed
    (fun _ _ _ _ _ _ => ⟨.free, rfl, rfl⟩) hrun).holds.2 account
  refine ⟨⟨status, hreplay, hinfo⟩, ?_⟩
  intro newer older time amount hhistory
  rw [hhistory] at hreplay
  exact replay_withdrawn hreplay

theorem stakes_refine_withdrawn : ∃ m, Run testDeployment (blockAt 1000 testTime_lt)
    [.call (.addStake 0x909 100 5), .call (.unlockStake 0x909 (by decide)),
      .advance (blockAt 1100 (by decide)), .call (.withdrawStake 0x909 12 (by decide)),
      .answer true] m ∧
      stakeHistory 0x909 m.world =
        [(1100, .withdrawn 5), (1000, .unlocked 1100), (1000, .locked 5 100)] ∧
      ∃ unlockTime lockTime unstakeDelaySec oldest,
        [(1000, StakeEvent.unlocked 1100), (1000, .locked 5 100)] =
          (unlockTime, .unlocked (unlockTime % 2 ^ 48 + unstakeDelaySec)) ::
            (lockTime, .locked 5 unstakeDelaySec) :: oldest ∧
        unlockTime % 2 ^ 48 + unstakeDelaySec ≤ 1100 := by
  have hrun : (run (entryPoint testDeployment) testStart
      [.call (.addStake 0x909 100 5), .call (.unlockStake 0x909 (by decide)),
        .advance (blockAt 1100 (by decide)), .call (.withdrawStake 0x909 12 (by decide)),
        .answer true]).map (fun m => stakeHistory 0x909 m.world) =
          some [(1100, .withdrawn 5), (1000, .unlocked 1100), (1000, .locked 5 100)] := by
    decide +kernel
  obtain ⟨m, hm, hhistory⟩ := Run.of_map (by decide +kernel) hrun
  exact ⟨m, hm, hhistory, (stakes_refine hm 0x909).2 [] _ 1100 5 hhistory⟩

end BoundedSpending.StakeLock
