import BoundedSpending.EntryPointGas
import BoundedSpending.SpendingPaymaster

set_option autoImplicit false

namespace BoundedSpending.SponsorshipCoverage

open CheckedArithmetic BigEndianWords UserOperations EntryPointGas SpendingPaymaster

/-- The late gas that the premium of a twentieth does not pay for, in wei. -/
def uncovered (early late price : ℕ) : ℕ := late * price - early * price * premiumBps / 10000

theorem premium_eq (cost : ℕ) : cost * premiumBps / 10000 = cost / 20 := by
  unfold premiumBps
  omega

theorem withPremium_covers {early late price : ℕ} (h : 20 * late ≤ early) :
    (early + late) * price ≤ withPremium (early * price) := by
  have hpaid : late * price ≤ early * price / 20 := by
    apply (Nat.le_div_iff_mul_le (by omega)).mpr
    calc late * price * 20
      _ = 20 * late * price := by ring
      _ ≤ early * price := Nat.mul_le_mul_right price h
  rw [withPremium, premium_eq, Nat.add_mul]
  omega

theorem missing_lt_of_div_le {a b rate unit : ℕ} (hunit : 0 < unit)
    (h : b * rate / unit ≤ a * rate / unit) : (b - a) * rate < unit := by
  by_cases hle : b ≤ a
  · rw [Nat.sub_eq_zero_of_le hle, Nat.zero_mul]
    exact hunit
  · have hb : b * rate = a * rate + (b - a) * rate := by
      rw [← Nat.add_mul]
      congr 1
      omega
    have hceil : b * rate < (a * rate / unit + 1) * unit :=
      (Nat.div_lt_iff_lt_mul hunit).mp (Nat.lt_succ_of_le h)
    have hfloor : a * rate / unit * unit ≤ a * rate := Nat.div_mul_le_self _ _
    rw [Nat.add_mul, Nat.one_mul] at hceil
    omega

theorem missing_eq_uncovered (early late price : ℕ) :
    (early + late) * price - withPremium (early * price) = uncovered early late price := by
  rw [Nat.add_mul, withPremium, uncovered]
  omega

/-- A completed sponsorship collects the worth of its debit if the late gas is at most a
    twentieth of the early gas; and it never does if what the premium leaves uncovered is
    worth a unit of USDC. -/
theorem charge_covers_debit (paymaster : Paymaster) (block : Block)
    (op : PackedUserOperation) (use : GasUse) (opIndex balance validationData : ℕ)
    (context : Bytes) (account charge debit : ℕ)
    (hgas : checkGasValues opIndex op = .ok ())
    (haccepted : validatePaymasterUserOp paymaster paymaster.entryPoint op (requiredPrefund op)
      balance = .ok (context, validationData))
    (hcompleted : postExecution block op use (postOp paymaster paymaster.entryPoint context) =
      .ok ((account, charge), debit)) :
    account = op.sender ∧
      (20 * lateGas op use ≤ earlyGas op use → debit * paymaster.usdcPerEth / ether ≤ charge) ∧
      (debit * paymaster.usdcPerEth / ether ≤ charge →
        uncovered (earlyGas op use) (lateGas op use) (gasPrice block op) *
          paymaster.usdcPerEth < ether) := by
  have hcontext := (validatePaymasterUserOp_eq_ok haccepted).1
  obtain ⟨hpostOp, hdebit, _⟩ := (postExecution_eq_ok hgas).mp hcompleted
  obtain ⟨hdecode, _, hcharge⟩ := postOp_eq_ok.mp hpostOp
  have hsender : account = op.sender := by
    rw [hcontext, decodeAccount_encodeAccount op.sender_lt] at hdecode
    exact (Except.ok.inj hdecode).symm
  rw [hdebit, hcharge]
  refine ⟨hsender, ?_, ?_⟩
  · intro hlate
    exact Nat.div_le_div_right (Nat.mul_le_mul_right _ (withPremium_covers hlate))
  · intro hcovered
    rw [← missing_eq_uncovered]
    exact missing_lt_of_div_le (by decide) hcovered

def sponsoredOp : PackedUserOperation :=
  testOp 0x707 0 [] (encodePaymasterData 0x303 60000 100000) testSender_lt

def ordinaryUse : GasUse where
  verificationGas := 68533
  executionGas := 6000
  postOpGas := 60000
  postExecutionGas := 74424
  verificationGas_lt := by decide
  executionGas_lt := by decide
  postExecutionGas_lt := by decide
  postOpGas_le := by decide

def largeOp : PackedUserOperation := { sponsoredOp with preVerificationGas := 2000000 }

theorem charge_covers_debit_large :
    0x707 = largeOp.sender ∧
      2154357 * 10 ^ 9 * testPaymaster.usdcPerEth / ether ≤ 4367859 := by
  have hcovers := charge_covers_debit testPaymaster (blockAt 1000 (by decide)) largeOp ordinaryUse
    0 (10 * 10 ^ 6) 0 (encodeAccount 0x707) 0x707 4367859 (2154357 * 10 ^ 9) (by decide +kernel)
    (by decide +kernel) (by decide +kernel)
  exact ⟨hcovers.1, hcovers.2.1 (by decide +kernel)⟩

/-- An ordinary sponsorship: 0.272859 USDC collected for a debit worth 0.408714 USDC. -/
theorem charge_below_debit :
    checkGasValues 0 sponsoredOp = .ok () ∧
      validatePaymasterUserOp testPaymaster 0x101 sponsoredOp (requiredPrefund sponsoredOp)
        (10 * 10 ^ 6) = .ok (encodeAccount 0x707, 0) ∧
      postExecution (blockAt 1000 (by decide)) sponsoredOp ordinaryUse
        (postOp testPaymaster 0x101 (encodeAccount 0x707)) =
          .ok ((0x707, 272859), 204357 * 10 ^ 9) ∧
      204357 * 10 ^ 9 * testPaymaster.usdcPerEth / ether = 408714 := by
  decide +kernel

end BoundedSpending.SponsorshipCoverage
