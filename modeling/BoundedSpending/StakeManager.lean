import BoundedSpending.EntryPointState
import BoundedSpending.Holdings

set_option autoImplicit false

/-!
# StakeManager.sol and NonceManager.sol

A function that sends ether ends at the call that sends it; what the answer does is
left to the machine.
-/
namespace BoundedSpending.StakeManager

open CheckedArithmetic EntryPointState Holdings

def setInfo (s : System) (account : Address) (info : DepositInfo) : System :=
  { s with deposits := Function.update s.deposits account info }

def balanceOf (s : System) (account : Address) : ℕ := (s.deposits account).deposit

def incrementDeposit (s : System) (account : Address) (amount : ℕ) : System × ℕ :=
  let info := s.deposits account
  let newAmount := uncheckedAdd info.deposit amount
  (setInfo s account { info with deposit := newAmount }, newAmount)

def tryDecrementDeposit (s : System) (account : Address) (amount : ℕ) : Option System :=
  let info := s.deposits account
  if info.deposit < amount then none
  else some (setInfo s account { info with deposit := info.deposit - amount })

/-- A payable call to `depositTo`. The ether that comes with it is the EntryPoint's from then on. -/
def depositTo (now : ℕ) (s : System) (account : Address) (amount : ℕ) : System :=
  let (s, newDeposit) := incrementDeposit { s with balance := s.balance + amount } account amount
  emitted s now [.deposited account newDeposit, .credited account amount]

def addStake (now : ℕ) (s : System) (sender : Address) (unstakeDelaySec amount : ℕ) :
    Except Failure System :=
  let info := s.deposits sender
  orFail do
    require (unstakeDelaySec < 2 ^ 32) .abiDecoding
    require (0 < unstakeDelaySec) (.errorString "must specify unstake delay")
    require (info.unstakeDelaySec ≤ unstakeDelaySec) (.errorString "cannot decrease unstake time")
    let stake ← add info.stake amount
    require (0 < stake) (.errorString "no stake specified")
    require (stake < 2 ^ 112) (.errorString "stake overflow")
    return emitted (setInfo { s with balance := s.balance + amount } sender
      ⟨info.deposit, true, stake, unstakeDelaySec, 0⟩) now
      [.stakeLocked sender stake unstakeDelaySec]

def unlockStake (now : ℕ) (s : System) (sender : Address) : Except Failure System :=
  let info := s.deposits sender
  orFail do
    require (info.unstakeDelaySec ≠ 0) (.errorString "not staked")
    require (info.staked = true) (.errorString "already unstaking")
    -- both are `uint48`, and so is their checked sum
    let withdrawTime := now % 2 ^ 48 + info.unstakeDelaySec
    require (withdrawTime < 2 ^ 48) .arithmeticOverflow
    return emitted (setInfo s sender { info with withdrawTime := withdrawTime, staked := false })
      now [.stakeUnlocked sender withdrawTime]

def withdrawStake (now : ℕ) (s : System) (sender withdrawAddress : Address) :
    Except Failure System :=
  let info := s.deposits sender
  orFail do
    require (0 < info.stake) (.errorString "No stake to withdraw")
    require (0 < info.withdrawTime) (.errorString "must call unlockStake() first")
    require (info.withdrawTime ≤ now) (.errorString "Stake withdrawal is not due")
    let s := emitted
      (setInfo s sender { info with unstakeDelaySec := 0, withdrawTime := 0, stake := 0 }) now
      [.stakeWithdrawn sender withdrawAddress info.stake]
    require (info.stake ≤ s.balance) (.errorString "failed to withdraw stake")
    return { s with balance := s.balance - info.stake }

def withdrawTo (now : ℕ) (s : System) (sender withdrawAddress : Address) (withdrawAmount : ℕ) :
    Except Failure System :=
  let info := s.deposits sender
  orFail do
    require (withdrawAmount ≤ info.deposit) (.errorString "Withdraw amount too large")
    let s := emitted (setInfo s sender { info with deposit := info.deposit - withdrawAmount }) now
      [.withdrawn sender withdrawAddress withdrawAmount]
    require (withdrawAmount ≤ s.balance) (.errorString "failed to withdraw")
    return { s with balance := s.balance - withdrawAmount }

def nonceKey (nonce : ℕ) : ℕ := nonce / 2 ^ 64 % 2 ^ 192

def nonceSequence (nonce : ℕ) : ℕ := nonce % 2 ^ 64

def getNonce (s : System) (sender : Address) (key : ℕ) : ℕ :=
  s.nonceSequenceNumber sender key ||| key <<< 64

def setNonce (s : System) (sender : Address) (key n : ℕ) : System :=
  let sequenceNumbers := Function.update (s.nonceSequenceNumber sender) key n
  { s with nonceSequenceNumber := Function.update s.nonceSequenceNumber sender sequenceNumbers }

def incrementNonce (s : System) (sender : Address) (key : ℕ) : Except Failure System :=
  orFail do
    let n ← add (s.nonceSequenceNumber sender key) 1
    return setNonce s sender key n

/-- `_validateAndUpdateNonce`; its result is whether the nonce was the next one. -/
def validateAndUpdateNonce (s : System) (sender : Address) (nonce : ℕ) :
    Except Failure (System × Bool) := do
  let s' ← incrementNonce s sender (nonceKey nonce)
  return (s', decide (s.nonceSequenceNumber sender (nonceKey nonce) = nonceSequence nonce))

@[simp] theorem setInfo_nonces (s : System) (account : Address) (info : DepositInfo) :
    (setInfo s account info).nonceSequenceNumber = s.nonceSequenceNumber := rfl

@[simp] theorem setInfo_account (s : System) (account : Address) (info : DepositInfo) :
    (setInfo s account info).account = s.account := rfl

@[simp] theorem setNonce_deposits (s : System) (sender : Address) (key n : ℕ) :
    (setNonce s sender key n).deposits = s.deposits := rfl

variable {now amount n : ℕ} {s s' : System} {sender account withdrawAddress : Address}

theorem tryDecrementDeposit_eq_some : tryDecrementDeposit s account amount = some s' ↔
    amount ≤ (s.deposits account).deposit ∧ s' = setInfo s account
      { s.deposits account with deposit := (s.deposits account).deposit - amount } := by
  simp only [tryDecrementDeposit]
  split_ifs with h
  · exact ⟨fun heq => (nomatch heq), fun heq => absurd heq.1 (by omega)⟩
  · rw [Option.some.injEq]
    exact ⟨fun heq => ⟨by omega, heq.symm⟩, fun heq => heq.2.symm⟩

theorem addStake_eq_ok {unstakeDelaySec : ℕ} :
    addStake now s sender unstakeDelaySec amount = .ok s' ↔
      unstakeDelaySec < 2 ^ 32 ∧ 0 < unstakeDelaySec ∧
      (s.deposits sender).unstakeDelaySec ≤ unstakeDelaySec ∧
      0 < (s.deposits sender).stake + amount ∧ (s.deposits sender).stake + amount < 2 ^ 112 ∧
      s' = emitted (setInfo { s with balance := s.balance + amount } sender
          ⟨(s.deposits sender).deposit, true, (s.deposits sender).stake + amount,
            unstakeDelaySec, 0⟩) now
        [.stakeLocked sender ((s.deposits sender).stake + amount) unstakeDelaySec] := by
  simp only [addStake, orFail_eq_ok, bind_returns, require_eq_ok, add_eq_ok, pure_returns]
  constructor
  · rintro ⟨_, h₁, _, h₂, _, h₃, _, ⟨_, rfl⟩, _, h₄, _, h₅, rfl⟩
    exact ⟨h₁, h₂, h₃, h₄, h₅, rfl⟩
  · rintro ⟨h₁, h₂, h₃, h₄, h₅, rfl⟩
    have hfits : (s.deposits sender).stake + amount < wordSize := by
      unfold wordSize
      omega
    exact ⟨(), h₁, (), h₂, (), h₃, _, ⟨hfits, rfl⟩, (), h₄, (), h₅, rfl⟩

theorem unlockStake_eq_ok : unlockStake now s sender = .ok s' ↔
    (s.deposits sender).unstakeDelaySec ≠ 0 ∧ (s.deposits sender).staked = true ∧
      now % 2 ^ 48 + (s.deposits sender).unstakeDelaySec < 2 ^ 48 ∧
      s' = emitted (setInfo s sender { s.deposits sender with
          withdrawTime := now % 2 ^ 48 + (s.deposits sender).unstakeDelaySec, staked := false }) now
        [.stakeUnlocked sender (now % 2 ^ 48 + (s.deposits sender).unstakeDelaySec)] := by
  simp only [unlockStake, orFail_eq_ok, bind_returns, require_eq_ok, pure_returns]
  constructor
  · rintro ⟨_, h₁, _, h₂, _, h₃, rfl⟩
    exact ⟨h₁, h₂, h₃, rfl⟩
  · rintro ⟨h₁, h₂, h₃, rfl⟩
    exact ⟨(), h₁, (), h₂, (), h₃, rfl⟩

theorem withdrawStake_eq_ok : withdrawStake now s sender withdrawAddress = .ok s' ↔
    0 < (s.deposits sender).stake ∧ 0 < (s.deposits sender).withdrawTime ∧
      (s.deposits sender).withdrawTime ≤ now ∧ (s.deposits sender).stake ≤ s.balance ∧
      s' = emitted (setInfo { s with balance := s.balance - (s.deposits sender).stake } sender
          { s.deposits sender with unstakeDelaySec := 0, withdrawTime := 0, stake := 0 }) now
        [.stakeWithdrawn sender withdrawAddress (s.deposits sender).stake] := by
  simp only [withdrawStake, orFail_eq_ok, bind_returns, require_eq_ok, pure_returns]
  constructor
  · rintro ⟨_, h₁, _, h₂, _, h₃, _, h₄, rfl⟩
    exact ⟨h₁, h₂, h₃, h₄, rfl⟩
  · rintro ⟨h₁, h₂, h₃, h₄, rfl⟩
    exact ⟨(), h₁, (), h₂, (), h₃, (), h₄, rfl⟩

theorem withdrawTo_eq_ok : withdrawTo now s sender withdrawAddress amount = .ok s' ↔
    amount ≤ (s.deposits sender).deposit ∧ amount ≤ s.balance ∧
      s' = emitted (setInfo { s with balance := s.balance - amount } sender
          { s.deposits sender with deposit := (s.deposits sender).deposit - amount }) now
        [.withdrawn sender withdrawAddress amount] := by
  simp only [withdrawTo, orFail_eq_ok, bind_returns, require_eq_ok, pure_returns]
  constructor
  · rintro ⟨_, h₁, _, h₂, rfl⟩
    exact ⟨h₁, h₂, rfl⟩
  · rintro ⟨h₁, h₂, rfl⟩
    exact ⟨(), h₁, (), h₂, rfl⟩

theorem incrementNonce_eq_ok {key : ℕ} : incrementNonce s sender key = .ok s' ↔
    s.nonceSequenceNumber sender key + 1 < wordSize ∧
      s' = setNonce s sender key (s.nonceSequenceNumber sender key + 1) := by
  simp only [incrementNonce, orFail_eq_ok, bind_returns, add_eq_ok, pure_returns]
  constructor
  · rintro ⟨_, ⟨hlt, rfl⟩, rfl⟩
    exact ⟨hlt, rfl⟩
  · rintro ⟨hlt, rfl⟩
    exact ⟨_, ⟨hlt, rfl⟩, rfl⟩

end BoundedSpending.StakeManager
