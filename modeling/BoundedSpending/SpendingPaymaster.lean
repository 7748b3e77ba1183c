import BoundedSpending.UserOperations

set_option autoImplicit false

namespace BoundedSpending.SpendingPaymaster

open CheckedArithmetic BigEndianWords UserOperations

structure Paymaster where
  entryPoint : Address
  usdcPerEth : ℕ
  usdcPerEth_lt : usdcPerEth < wordSize

def maxCostCap : ℕ := ether / 100
def minPostOpGas : ℕ := 100000

def encodeAccount (account : Address) : Bytes := encode 32 account

/-- `abi.decode(context, (address))` -/
def decodeAccount (context : Bytes) : Except Revert Address := do
  require (32 ≤ context.length) .abiDecoding
  require (loadWord context 0 < 2 ^ 160) .abiDecoding
  return loadWord context 0

def checkPostOpGas (op : PackedUserOperation) : Except Revert Unit :=
  if paymasterDataOffset ≤ op.paymasterAndData.length then
    require (minPostOpGas ≤ unpackPostOpGasLimit op)
      (.postOpGasTooLow (unpackPostOpGasLimit op) minPostOpGas)
  else .ok ()

/-- `balance` is what the token reports for the sender of the operation. The second
    result is `SIG_VALIDATION_SUCCESS`. -/
def validatePaymasterUserOp (paymaster : Paymaster) (sender : Address)
    (op : PackedUserOperation) (maxCost balance : ℕ) : Except Revert (Bytes × ℕ) := do
  require (sender = paymaster.entryPoint) (.errorString "Sender not EntryPoint")
  checkPostOpGas op
  require (maxCost ≤ maxCostCap) (.costCapExceeded maxCost maxCostCap)
  let cost ← costInUsdc paymaster.usdcPerEth maxCost
  require (cost ≤ balance) (.insufficientUsdcBalance op.sender cost)
  return (encodeAccount op.sender, 0)

/-- The call that `_postOp` makes: to `payForGasInUsdc` of which account, with what amount. -/
def postOp (paymaster : Paymaster) (sender : Address) (context : Bytes) (actualGasCost : ℕ) :
    Except Revert (Address × ℕ) := do
  require (sender = paymaster.entryPoint) (.errorString "Sender not EntryPoint")
  let account ← decodeAccount context
  let cost ← costInUsdc paymaster.usdcPerEth actualGasCost
  return (account, cost)

def testPaymaster : Paymaster := ⟨0x101, 2000 * 10 ^ 6, testConfig.usdcPerEth_lt⟩

variable {paymaster : Paymaster} {op : PackedUserOperation}

theorem decodeAccount_encodeAccount {account : Address} (h : account < 2 ^ 160) :
    decodeAccount (encodeAccount account) = .ok account := by
  have hword := loadWord_encode [] [] (h.trans (by decide : 2 ^ 160 < 2 ^ 256))
  rw [List.nil_append, List.append_nil, List.length_nil] at hword
  simp only [decodeAccount, encodeAccount, bind_returns, require_eq_ok, pure_returns, hword,
    encode_length]
  exact ⟨(), by omega, (), h, trivial⟩

theorem validatePaymasterUserOp_eq_ok {maxCost balance validationData : ℕ} {context : Bytes}
    (h : validatePaymasterUserOp paymaster paymaster.entryPoint op maxCost balance =
      .ok (context, validationData)) :
    context = encodeAccount op.sender ∧ validationData = 0 ∧ maxCost ≤ maxCostCap ∧
      CostFits paymaster.usdcPerEth maxCost ∧
      withPremium maxCost * paymaster.usdcPerEth / ether ≤ balance := by
  simp only [validatePaymasterUserOp, bind_returns, require_eq_ok, costInUsdc_eq_ok, pure_returns,
    Prod.mk.injEq] at h
  obtain ⟨_, _, _, _, _, hcap, _, ⟨hfits, rfl⟩, _, hbalance, hcontext, hdata⟩ := h
  exact ⟨hcontext, hdata, hcap, hfits, hbalance⟩

theorem postOp_eq_ok {context : Bytes} {account : Address} {actualGasCost charge : ℕ} :
    postOp paymaster paymaster.entryPoint context actualGasCost = .ok (account, charge) ↔
      decodeAccount context = .ok account ∧ CostFits paymaster.usdcPerEth actualGasCost ∧
        charge = withPremium actualGasCost * paymaster.usdcPerEth / ether := by
  simp only [postOp, bind_returns, require_eq_ok, costInUsdc_eq_ok, pure_returns, Prod.mk.injEq]
  constructor
  · intro h
    obtain ⟨_, _, a, hdecode, _, ⟨hfits, rfl⟩, rfl, rfl⟩ := h
    exact ⟨hdecode, hfits, rfl⟩
  · intro h
    obtain ⟨hdecode, hfits, hcharge⟩ := h
    exact ⟨(), trivial, account, hdecode, _, ⟨hfits, rfl⟩, rfl, hcharge⟩

end BoundedSpending.SpendingPaymaster
