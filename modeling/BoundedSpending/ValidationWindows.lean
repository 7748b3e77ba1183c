import BoundedSpending.EntryPointState

set_option autoImplicit false

namespace BoundedSpending.ValidationWindows

open CheckedArithmetic EntryPointState

def maxTime : ℕ := 2 ^ 48 - 1

structure ValidationData where
  aggregator : Address
  validAfter : ℕ
  validUntil : ℕ
  aggregator_lt : aggregator < 2 ^ 160
  validAfter_lt : validAfter < 2 ^ 48
  validUntil_lt : validUntil < 2 ^ 48
  deriving Repr

theorem two_pow_pos_160 : 0 < 2 ^ 160 := Nat.two_pow_pos 160

theorem two_pow_pos_48 : 0 < 2 ^ 48 := Nat.two_pow_pos 48

/-- A 48-bit `validUntil` that was not set means "no end". -/
def noEnd (validUntil : ℕ) : ℕ := if validUntil = 0 then maxTime else validUntil

theorem noEnd_lt {validUntil : ℕ} (h : validUntil < 2 ^ 48) : noEnd validUntil < 2 ^ 48 := by
  unfold noEnd maxTime
  split_ifs <;> omega

def parseValidationData (validationData : ℕ) : ValidationData where
  aggregator := validationData % 2 ^ 160
  validAfter := validationData >>> (48 + 160) % 2 ^ 48
  validUntil := noEnd (validationData >>> 160 % 2 ^ 48)
  aggregator_lt := Nat.mod_lt _ two_pow_pos_160
  validAfter_lt := Nat.mod_lt _ two_pow_pos_48
  validUntil_lt := noEnd_lt (Nat.mod_lt _ two_pow_pos_48)

/-- `_packValidationData`, of a structure and of a signature flag. -/
def packWords (low validUntil validAfter : ℕ) : ℕ :=
  low ||| validUntil <<< 160 ||| validAfter <<< (160 + 48)

def packValidationData (data : ValidationData) : ℕ :=
  packWords data.aggregator data.validUntil data.validAfter

def packSignatureResult (sigFailed : Bool) (validUntil validAfter : ℕ) : ℕ :=
  packWords (if sigFailed then Preflight.sigValidationFailed else Preflight.sigValidationSuccess)
    validUntil validAfter

def getValidationData (block : Block) (validationData : ℕ) : Address × Bool :=
  if validationData = 0 then (0, false)
  else
    let data := parseValidationData validationData
    (data.aggregator,
      decide (data.validUntil < block.timestamp ∨ block.timestamp ≤ data.validAfter))

def validateAccountAndPaymasterValidationData (block : Block)
    (opIndex validationData paymasterValidationData : ℕ) (expectedAggregator : Address) :
    Except Failure Unit :=
  let (aggregator, outOfTimeRange) := getValidationData block validationData
  let (pmAggregator, pmOutOfTimeRange) := getValidationData block paymasterValidationData
  if expectedAggregator ≠ aggregator then failedOp opIndex "AA24 signature error"
  else if outOfTimeRange then failedOp opIndex "AA22 expired or not due"
  else if pmAggregator ≠ 0 then failedOp opIndex "AA34 signature error"
  else if pmOutOfTimeRange then failedOp opIndex "AA32 paymaster expired or not due"
  else .ok ()

variable {low validUntil validAfter : ℕ}

theorem packWords_eq (hlow : low < 2 ^ 160) (huntil : validUntil < 2 ^ 48) :
    packWords low validUntil validAfter =
      low + validUntil * 2 ^ 160 + validAfter * 2 ^ 208 := by
  have hor : low ||| validUntil <<< 160 = validUntil * 2 ^ 160 + low := by
    rw [Nat.or_comm, ← Nat.shiftLeft_add_eq_or_of_lt hlow, Nat.shiftLeft_eq]
  have hbelow : validUntil * 2 ^ 160 + low < 2 ^ 208 := by omega
  rw [packWords, hor, Nat.or_comm, ← Nat.shiftLeft_add_eq_or_of_lt hbelow, Nat.shiftLeft_eq]
  omega

theorem parse_packWords (hlow : low < 2 ^ 160) (huntil : validUntil < 2 ^ 48)
    (hafter : validAfter < 2 ^ 48) :
    (parseValidationData (packWords low validUntil validAfter)).aggregator = low ∧
      (parseValidationData (packWords low validUntil validAfter)).validUntil = noEnd validUntil ∧
      (parseValidationData (packWords low validUntil validAfter)).validAfter = validAfter := by
  rw [packWords_eq hlow huntil]
  refine ⟨?_, ?_, ?_⟩
  · change (low + validUntil * 2 ^ 160 + validAfter * 2 ^ 208) % 2 ^ 160 = low
    omega
  · change noEnd ((low + validUntil * 2 ^ 160 + validAfter * 2 ^ 208) >>> 160 % 2 ^ 48) = _
    rw [Nat.shiftRight_eq_div_pow]
    refine congrArg noEnd ?_
    omega
  · change (low + validUntil * 2 ^ 160 + validAfter * 2 ^ 208) >>> 208 % 2 ^ 48 = validAfter
    rw [Nat.shiftRight_eq_div_pow]
    omega

theorem packValidationData_parse {validationData : ℕ} (h : validationData < 2 ^ 256)
    (huntil : validationData >>> 160 % 2 ^ 48 ≠ 0) :
    packValidationData (parseValidationData validationData) = validationData := by
  have hend : noEnd (validationData >>> 160 % 2 ^ 48) = validationData >>> 160 % 2 ^ 48 :=
    if_neg huntil
  have hlt : validationData >>> 160 % 2 ^ 48 < 2 ^ 48 := Nat.mod_lt _ two_pow_pos_48
  change packWords (validationData % 2 ^ 160) (noEnd (validationData >>> 160 % 2 ^ 48))
    (validationData >>> 208 % 2 ^ 48) = validationData
  rw [hend, packWords_eq (Nat.mod_lt _ two_pow_pos_160) hlt, Nat.shiftRight_eq_div_pow,
    Nat.shiftRight_eq_div_pow]
  omega

/-- What the source packs and parses comes back, an unset end being the last 48-bit time; and
    a word that sets its end is packed back into itself. -/
theorem validationData_roundTrip :
    (∀ data : ValidationData, parseValidationData (packValidationData data) =
      { data with
        validUntil := noEnd data.validUntil
        validUntil_lt := noEnd_lt data.validUntil_lt }) ∧
    (∀ sigFailed validUntil validAfter, validUntil < 2 ^ 48 → validAfter < 2 ^ 48 →
      (parseValidationData (packSignatureResult sigFailed validUntil validAfter)).aggregator =
        (if sigFailed then 1 else 0) ∧
      (parseValidationData (packSignatureResult sigFailed validUntil validAfter)).validUntil =
        noEnd validUntil ∧
      (parseValidationData (packSignatureResult sigFailed validUntil validAfter)).validAfter =
        validAfter) ∧
    ∀ validationData < 2 ^ 256, validationData >>> 160 % 2 ^ 48 ≠ 0 →
      packValidationData (parseValidationData validationData) = validationData := by
  refine ⟨?_, ?_, fun _ hlt huntil => packValidationData_parse hlt huntil⟩
  · intro data
    obtain ⟨haggregator, huntil, hafter⟩ :=
      parse_packWords data.aggregator_lt data.validUntil_lt data.validAfter_lt
    rw [ValidationData.mk.injEq]
    exact ⟨haggregator, hafter, huntil⟩
  · intro sigFailed validUntil validAfter huntil hafter
    have hlow : (if sigFailed then 1 else 0 : ℕ) < 2 ^ 160 := by
      split_ifs <;> omega
    exact parse_packWords hlow huntil hafter

theorem validationData_roundTrip_window :
    (parseValidationData (packSignatureResult true 2000 1000)).aggregator = 1 ∧
      packValidationData (parseValidationData (packSignatureResult true 2000 1000)) =
        packSignatureResult true 2000 1000 := by
  obtain ⟨_, hpacked, hparsed⟩ := validationData_roundTrip
  exact ⟨(hpacked true 2000 1000 (by decide) (by decide)).1, hparsed _ (by decide) (by decide)⟩

end BoundedSpending.ValidationWindows
