import BoundedSpending.SpendParser

set_option autoImplicit false

namespace BoundedSpending.ParserGrammar

open CheckedArithmetic BigEndianWords SpendParser

/-- A call `transfer(address, uint256)` with a clean address word. -/
def IsTransferCall (data : Bytes) : Prop :=
  data.take 4 = encode 4 transferSelector ∧ 68 ≤ data.length ∧ loadWord data 4 < 2 ^ 160

/-- The spends that the documentation allows, with the totals they stand for. -/
def Spends (target : Address) (value : ℕ) (data : Bytes) (result : ℕ × ℕ) : Prop :=
  (target ≠ usdc ∧ 0 < value ∧ result = (value, 0)) ∨
    (target = usdc ∧ value = 0 ∧ IsTransferCall data ∧ result = (0, loadWord data 36))

def encodeTransfer (receiver : Address) (amount : ℕ) : Bytes :=
  encode 4 transferSelector ++ encode 32 receiver ++ encode 32 amount

theorem encodeTransfer_isTransferCall (receiver amount : ℕ) (hr : receiver < 2 ^ 160)
    (ha : amount < 2 ^ 256) :
    IsTransferCall (encodeTransfer receiver amount) ∧
      loadWord (encodeTransfer receiver amount) 36 = amount := by
  have hreceiver := loadWord_encode (encode 4 transferSelector) (encode 32 amount)
    (hr.trans (by decide))
  have hamount := loadWord_encode (encode 4 transferSelector ++ encode 32 receiver) [] ha
  rw [encode_length] at hreceiver
  rw [List.append_nil, List.length_append, encode_length, encode_length] at hamount
  refine ⟨⟨?_, ?_, ?_⟩, hamount⟩
  · rw [encodeTransfer, List.append_assoc, List.take_left' (encode_length 4 _)]
  · simp [encodeTransfer]
  · exact hreceiver.trans_lt hr

theorem decodeAddressUint_slice {data : Bytes} (h : IsTransferCall data) :
    decodeAddressUint (slice data 4) = .ok (loadWord data 4, loadWord data 36) := by
  obtain ⟨_, hlength, haddress⟩ := h
  have hfirst : loadWord (slice data 4) 0 = loadWord data 4 := by
    rw [slice_eq_drop, loadWord_drop]
  have hsecond : loadWord (slice data 4) 32 = loadWord data 36 := by
    rw [slice_eq_drop, loadWord_drop]
  simp only [decodeAddressUint, bind_returns, require_eq_ok, pure_returns, hfirst, hsecond]
  refine ⟨(), ?_, (), haddress, trivial⟩
  rw [slice_eq_drop, List.length_drop]
  omega

def Conforms (beyond : Bytes) (target : Address) (value : ℕ) (data : Bytes) : Prop :=
  ∀ result, parseSpendAmountsIn beyond target value data = .ok result ↔
    Spends target value data result

/-- The parser follows the grammar except on USDC transfers, all of which it refuses. -/
theorem parseSpendAmounts_conforms (beyond : Bytes) (target : Address) (value : ℕ)
    (data : Bytes) :
    (Conforms beyond target value data ↔
      ¬ (target = usdc ∧ value = 0 ∧ IsTransferCall data)) ∧
    ∀ (receiver : Fin (2 ^ 160)) (amount : Fin (2 ^ 256)),
      Spends usdc 0 (encodeTransfer receiver amount) (0, amount) ∧
        parseSpendAmountsIn beyond usdc 0 (encodeTransfer receiver amount) =
          .error .invalidSelector := by
  refine ⟨?_, ?_⟩
  · constructor
    · intro hconforms htransfer
      have hspends : Spends target value data (0, loadWord data 36) :=
        .inr ⟨htransfer.1, htransfer.2.1, htransfer.2.2, rfl⟩
      have haccepted := (hconforms (0, loadWord data 36)).mpr hspends
      exact absurd htransfer.1 (parseSpendAmountsIn_eq_ok.mp haccepted).1
    · intro hnot result
      obtain ⟨eth, usdcAmount⟩ := result
      rw [parseSpendAmountsIn_eq_ok]
      constructor
      · intro h
        obtain ⟨htarget, hpos, heth, husdc⟩ := h
        exact .inl ⟨htarget, hpos, by rw [heth, husdc]⟩
      · intro h
        rcases h with ⟨htarget, hpos, hresult⟩ | ⟨htarget, hzero, hcall, _⟩
        · obtain ⟨heth, husdc⟩ := Prod.mk.inj hresult
          exact ⟨htarget, hpos, heth, husdc⟩
        · exact absurd ⟨htarget, hzero, hcall⟩ hnot
  · intro receiver amount
    obtain ⟨hcall, hamount⟩ := encodeTransfer_isTransferCall receiver amount receiver.isLt
      amount.isLt
    refine ⟨.inr ⟨rfl, rfl, hcall, by rw [hamount]⟩, ?_⟩
    rw [parseSpendAmountsIn, if_pos rfl, if_neg (lt_irrefl 0), parseUsdcCall_eq]

theorem transfer_refused :
    Spends usdc 0 (encodeTransfer 0x909 5) (0, 5) ∧
      parseSpendAmountsIn [] usdc 0 (encodeTransfer 0x909 5) = .error .invalidSelector ∧
      ¬ Conforms [] usdc 0 (encodeTransfer 0x909 5) := by
  obtain ⟨hcall, hamount⟩ := encodeTransfer_isTransferCall 0x909 5 (by decide) (by decide)
  have hspends : Spends usdc 0 (encodeTransfer 0x909 5) (0, 5) :=
    .inr ⟨rfl, rfl, hcall, by rw [hamount]⟩
  have hrefused : parseSpendAmountsIn [] usdc 0 (encodeTransfer 0x909 5) =
      .error .invalidSelector := by
    decide +kernel
  refine ⟨hspends, hrefused, fun hconforms => ?_⟩
  have haccepted := (hconforms (0, 5)).mpr hspends
  rw [hrefused] at haccepted
  exact nomatch haccepted

end BoundedSpending.ParserGrammar
