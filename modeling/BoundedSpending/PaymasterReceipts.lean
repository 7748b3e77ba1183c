import BoundedSpending.SponsoredBundles
import BoundedSpending.SponsorshipCoverage
import BoundedSpending.TokenLedger
import BoundedSpending.TransactionTraces

set_option autoImplicit false

/-!
# What the paymaster receives

Any contract can be the sender of an operation that asks for sponsorship. The paymaster
itself has no function that spends its USDC or approves somebody else to.
-/
namespace BoundedSpending.PaymasterReceipts

open CheckedArithmetic BigEndianWords SpendRecorders UserOperations Preflight AccountMachine
open EntryPointGas SpendingPaymaster SponsorshipCoverage SponsoredBundles TokenLedger
open TransactionTraces

/-- What answers a call of `payForGasInUsdc`. -/
inductive Contract where
  | spendingAccount (cfg : Config)
  | foreign

/-- The paymaster, and what is deployed where: `none` is for an address that does not have
    the function, as the paymaster's own does not. -/
structure Parties where
  env : Env
  address : Address
  terms : Paymaster
  code : Address → Option Contract
  token_deployed : env.usdcHasCode = true
  code_address : code address = none

/-- The token's balances, what else belongs to each account, and the contexts of the
    operations that wait for their `postOp`, in order. -/
structure Books where
  token : Address → ℕ
  world : Address → World
  contexts : List Bytes

def accountAt (books : Books) (a : Address) : World :=
  { books.world a with usdcBalance := books.token a }

structure Behaviour where
  moves : List (Move Address)
  world : Address → World

def behave (p : Parties) (books : Books) (behaviour : Behaviour) : Option Books :=
  if Spares p.address behaviour.moves then
    (transfers books.token behaviour.moves).map fun token =>
      { books with token := token, world := behaviour.world }
  else none

inductive Action where
  | activity (behaviour : Behaviour)
  | validatePaymasterUserOp (op : PackedUserOperation)
  /-- With what the sender does when asked to pay, if its code is not the repository's. -/
  | postOp (block : Block) (actualGasCost gasLeft : ℕ) (behaviour : Behaviour)
  /-- A `postOp` that reverted, or whose frame was rolled back after it. -/
  | rollBack

/-- `_validatePaymasterPrepayment`, with the checks of the operation before it. -/
def sponsor (p : Parties) (books : Books) (op : PackedUserOperation) : Except Revert Books := do
  checkPaymasterData op
  checkGasValues 0 op
  let (context, _) ← validatePaymasterUserOp p.terms p.terms.entryPoint op (requiredPrefund op)
    (books.token op.sender)
  return { books with contexts := books.contexts ++ [context] }

def payForGas (p : Parties) (books : Books) (block : Block) (account : Address)
    (gasLeft cost : ℕ) (behaviour : Behaviour) : Option Books :=
  match p.code account with
  | none => none
  | some .foreign => behave p books behaviour
  | some (.spendingAccount cfg) =>
    (withToken p.env block (payForGasInUsdc cfg block.timestamp (accountAt books account)
      p.address gasLeft cost)).toOption.bind fun w =>
        (transfer books.token ⟨account, cfg.paymasterAddress, cost⟩).map fun token =>
          { books with token := token, world := Function.update books.world account w }

/-- One step of the chain. The EntryPoint calls `postOp` in the order of the validations. -/
def next (p : Parties) (books : Books) : Action → Option Books
  | .activity behaviour => behave p books behaviour
  | .validatePaymasterUserOp op =>
    if paymasterOf op = p.address then (sponsor p books op).toOption else none
  | .postOp block actualGasCost gasLeft behaviour =>
    match books.contexts with
    | [] => none
    | context :: contexts =>
      (postOp p.terms p.terms.entryPoint context actualGasCost).toOption.bind fun (account, cost) =>
        payForGas p { books with contexts := contexts } block account gasLeft cost behaviour
  | .rollBack =>
    match books.contexts with
    | [] => none
    | _ :: contexts => some { books with contexts := contexts }

def charge (p : Parties) : Action → ℕ
  | .postOp _ actualGasCost _ _ => withPremium actualGasCost * p.terms.usdcPerEth / ether
  | _ => 0

def Paid (p : Parties) (books : Books) (action : Action) : Prop :=
  ∀ books', next p books action = some books' →
    books.token p.address + charge p action ≤ books'.token p.address

def sender (books : Books) : Option Address :=
  books.contexts.head?.bind fun context => (decodeAccount context).toOption

/-- If a `postOp` completes, then the code at its sender is a SpendingAccount. -/
def SentByAccount (p : Parties) (books : Books) : Action → Prop
  | .postOp block actualGasCost gasLeft behaviour =>
    (next p books (.postOp block actualGasCost gasLeft behaviour)).isSome = true →
      ∃ account cfg, sender books = some account ∧ p.code account = some (.spendingAccount cfg)
  | _ => True

variable {p : Parties} {books books' : Books}

theorem behave_receives {behaviour : Behaviour} (h : behave p books behaviour = some books') :
    books'.token p.address = books.token p.address + receipts p.address behaviour.moves := by
  obtain ⟨hspares, hmoves⟩ := Option.ite_none_right_eq_some.mp h
  obtain ⟨token, htoken, rfl⟩ := Option.map_eq_some_iff.mp hmoves
  exact transfers_spares htoken hspares

theorem payForGas_spendingAccount {block : Block} {account : Address} {gasLeft cost : ℕ}
    {behaviour : Behaviour} {cfg : Config} (hcode : p.code account = some (.spendingAccount cfg)) :
    payForGas p books block account gasLeft cost behaviour = some books' ↔
      ∃ w token, withToken p.env block (payForGasInUsdc cfg block.timestamp
          (accountAt books account) p.address gasLeft cost) = .ok w ∧
        transfer books.token ⟨account, cfg.paymasterAddress, cost⟩ = some token ∧
        books' = { books with token := token, world := Function.update books.world account w } := by
  simp only [payForGas, hcode, Option.bind_eq_some_iff, toOption_eq_some, Option.map_eq_some_iff]
  constructor
  · intro h
    obtain ⟨w, hpay, token, htoken, rfl⟩ := h
    exact ⟨w, token, hpay, htoken, rfl⟩
  · intro h
    obtain ⟨w, token, hpay, htoken, rfl⟩ := h
    exact ⟨w, hpay, token, htoken, rfl⟩

/-- A SpendingAccount that returns has paid, and pays nobody but its paymaster. -/
theorem payForGas_pays {block : Block} {account : Address} {gasLeft cost : ℕ}
    {behaviour : Behaviour} {cfg : Config} (hcode : p.code account = some (.spendingAccount cfg))
    (h : payForGas p books block account gasLeft cost behaviour = some books') :
    books'.token p.address = books.token p.address + cost ∧
      accountAt books' account = books'.world account := by
  obtain ⟨w, token, hpay, htoken, rfl⟩ := (payForGas_spendingAccount hcode).mp h
  obtain ⟨hpayer, _, _, _, _, rfl⟩ := (payForGasInUsdc_withToken p.token_deployed).mp hpay
  have hother : account ≠ p.address := by
    intro heq
    rw [heq, p.code_address] at hcode
    exact nomatch hcode
  have hreceived := transfer_spares (a := p.address) htoken hother
  have hpaid := transfer_source htoken (hpayer ▸ hother.symm)
  rw [if_pos hpayer.symm] at hreceived
  refine ⟨hreceived, ?_⟩
  simp only [accountAt, Function.update_self]
  rw [hpaid]
  rfl

theorem next_postOp {block : Block} {actualGasCost gasLeft : ℕ} {behaviour : Behaviour}
    (h : next p books (.postOp block actualGasCost gasLeft behaviour) = some books') :
    ∃ account contexts, sender books = some account ∧
      payForGas p { books with contexts := contexts } block account gasLeft
        (withPremium actualGasCost * p.terms.usdcPerEth / ether) behaviour = some books' := by
  cases hcontexts : books.contexts with
  | nil =>
    simp only [next, hcontexts] at h
    exact nomatch h
  | cons context contexts =>
    simp only [next, hcontexts] at h
    obtain ⟨⟨account, cost⟩, hpostOp, hpay⟩ := Option.bind_eq_some_iff.mp h
    obtain ⟨hdecode, _, rfl⟩ := postOp_eq_ok.mp (toOption_eq_some.mp hpostOp)
    refine ⟨account, contexts, ?_, hpay⟩
    rw [sender, hcontexts, List.head?_cons, Option.bind_some, hdecode]
    rfl

theorem paid_of_uncharged {action : Action}
    (hkeeps : ∀ books', next p books action = some books' →
      books.token p.address ≤ books'.token p.address) (hcharge : charge p action = 0) :
    Paid p books action := by
  intro books' h
  rw [hcharge]
  exact hkeeps books' h

theorem activity_paid (behaviour : Behaviour) : Paid p books (.activity behaviour) := by
  apply paid_of_uncharged _ rfl
  intro books' h
  have hreceived := behave_receives h
  omega

theorem next_validatePaymasterUserOp {op : PackedUserOperation}
    (h : next p books (.validatePaymasterUserOp op) = some books') :
    books' = { books with contexts := books.contexts ++ [encodeAccount op.sender] } := by
  obtain ⟨_, hsponsor⟩ := Option.ite_none_right_eq_some.mp h
  have hok := toOption_eq_some.mp hsponsor
  simp only [sponsor, bind_returns, Prod.exists, pure_returns] at hok
  obtain ⟨_, _, _, _, context, validationData, hvalid, rfl⟩ := hok
  rw [(validatePaymasterUserOp_eq_ok hvalid).1]

theorem validatePaymasterUserOp_paid (op : PackedUserOperation) :
    Paid p books (.validatePaymasterUserOp op) := by
  apply paid_of_uncharged _ rfl
  intro books' h
  rw [next_validatePaymasterUserOp h]

theorem rollBack_paid : Paid p books .rollBack := by
  apply paid_of_uncharged _ rfl
  intro books' h
  cases hcontexts : books.contexts with
  | nil =>
    simp only [next, hcontexts] at h
    exact nomatch h
  | cons context contexts =>
    simp only [next, hcontexts] at h
    obtain rfl := Option.some.inj h
    exact Nat.le_refl _

theorem postOp_paid {block : Block} {actualGasCost gasLeft : ℕ} {behaviour : Behaviour}
    (h : SentByAccount p books (.postOp block actualGasCost gasLeft behaviour)) :
    Paid p books (.postOp block actualGasCost gasLeft behaviour) := by
  intro books' hnext
  obtain ⟨account, contexts, hsender, hpay⟩ := next_postOp hnext
  obtain ⟨account', cfg, hsender', hcode⟩ := h (Option.isSome_iff_exists.mpr ⟨books', hnext⟩)
  obtain rfl := Option.some.inj (hsender.symm.trans hsender')
  exact (payForGas_pays hcode hpay).1.ge

theorem paid_of_sentByAccount {action : Action} (h : SentByAccount p books action) :
    Paid p books action := by
  cases action with
  | activity behaviour => exact activity_paid behaviour
  | validatePaymasterUserOp op => exact validatePaymasterUserOp_paid op
  | postOp block actualGasCost gasLeft behaviour => exact postOp_paid h
  | rollBack => exact rollBack_paid

/-- In a run whose completed `postOp`s are all of SpendingAccounts, each of them is paid
    for, and the paymaster holds the sum of the charges. -/
theorem every_postOp_paid (p : Parties) (books : Books) (actions : List Action)
    (hsenders : Throughout (next p) (SentByAccount p) books actions) :
    Throughout (next p) (Paid p) books actions ∧
      books.token p.address + total (next p) (fun _ => charge p) books actions ≤
        (final (next p) books actions).token p.address := by
  have hpaid : Throughout (next p) (Paid p) books actions :=
    hsenders.imp fun _ _ => paid_of_sentByAccount
  exact ⟨hpaid, Throughout.total_le (fun _ _ books' h hnext => h books' hnext) hpaid⟩

/-- Any other contract completes its `postOp` by doing nothing, and has paid nothing. -/
theorem foreign_unpaid (block : Block) {actualGasCost : ℕ} (gasLeft : ℕ) {account : Address}
    (hsender : sender books = some account) (hforeign : p.code account = some .foreign)
    (hfits : CostFits p.terms.usdcPerEth actualGasCost) :
    ∃ books', next p books (.postOp block actualGasCost gasLeft ⟨[], books.world⟩) =
      some books' ∧ books'.token = books.token := by
  cases hcontexts : books.contexts with
  | nil =>
    rw [sender, hcontexts] at hsender
    cases hsender
  | cons context contexts =>
    rw [sender, hcontexts, List.head?_cons, Option.bind_some] at hsender
    have hpostOp : postOp p.terms p.terms.entryPoint context actualGasCost =
        .ok (account, withPremium actualGasCost * p.terms.usdcPerEth / ether) :=
      postOp_eq_ok.mpr ⟨toOption_eq_some.mp hsender, hfits, rfl⟩
    have hspares : Spares p.address [] := fun _ hmem => nomatch hmem
    refine ⟨{ books with contexts := contexts }, ?_, rfl⟩
    simp only [next, hcontexts, toOption_eq_some.mpr hpostOp, Option.bind_some, payForGas,
      hforeign, behave, if_pos hspares]
    rfl

/-- The tests' paymaster at address 0x303, an account of the tests at 0x707, and somebody's
    contract at 0x909. -/
def testParties : Parties where
  env := ownerEnv
  address := 0x303
  terms := testPaymaster
  code := fun a =>
    if a = 0x707 then some (.spendingAccount testConfig)
    else if a = 0x909 then some .foreign
    else none
  token_deployed := rfl
  code_address := by decide

def testBooks : Books where
  token := fun a => if a = 0x707 ∨ a = 0x909 then 10 ^ 6 else 0
  world := fun _ => ⟨deployed 1000, 0, 0, []⟩
  contexts := []

def strangerOp : PackedUserOperation :=
  testOp 0x909 0 [] (encodePaymasterData 0x303 60000 100000) (by decide)

def idle : Behaviour := ⟨[], testBooks.world⟩

def idlePostOp : Action := .postOp (blockAt 1000 testTime_lt) (129933 * 10 ^ 9) 90000 idle

theorem every_postOp_paid_account :
    Throughout (next testParties) (Paid testParties) testBooks
        [.validatePaymasterUserOp sponsoredOp, idlePostOp] ∧
      272859 ≤ (final (next testParties) testBooks
        [.validatePaymasterUserOp sponsoredOp, idlePostOp]).token testParties.address := by
  have hsome : (next testParties testBooks (.validatePaymasterUserOp sponsoredOp)).isSome =
      true := by
    decide +kernel
  obtain ⟨books₁, hvalid⟩ := Option.isSome_iff_exists.mp hsome
  have hbooks := next_validatePaymasterUserOp hvalid
  have hsender : sender books₁ = some 0x707 := by
    rw [hbooks]
    decide +kernel
  have hsenders : Throughout (next testParties) (SentByAccount testParties) testBooks
      [.validatePaymasterUserOp sponsoredOp, idlePostOp] := by
    refine ⟨trivial, ?_, trivial⟩
    rw [after_of_eq_some hvalid]
    exact fun _ => ⟨0x707, testConfig, hsender, rfl⟩
  obtain ⟨hpaid, htotal⟩ := every_postOp_paid testParties testBooks _ hsenders
  have hcharged : testBooks.token testParties.address + total (next testParties)
      (fun _ => charge testParties) testBooks
      [.validatePaymasterUserOp sponsoredOp, idlePostOp] = 272859 := by
    decide +kernel
  rw [hcharged] at htotal
  exact ⟨hpaid, htotal⟩

/-- The stranger's operation is validated and completed, and 0.272859 USDC were asked for. -/
theorem stranger_unpaid :
    129933 * 10 ^ 9 =
      earlyGas strangerOp ordinaryUse * gasPrice (blockAt 1000 testTime_lt) strangerOp ∧
    ∃ books₁ books₂,
      next testParties testBooks (.validatePaymasterUserOp strangerOp) = some books₁ ∧
      next testParties books₁ idlePostOp = some books₂ ∧
      charge testParties idlePostOp = 272859 ∧
      books₂.token testParties.address = books₁.token testParties.address ∧
      ¬ Throughout (next testParties) (Paid testParties) testBooks
        [.validatePaymasterUserOp strangerOp, idlePostOp] := by
  refine ⟨by decide +kernel, ?_⟩
  have hsome : (next testParties testBooks (.validatePaymasterUserOp strangerOp)).isSome =
      true := by
    decide +kernel
  obtain ⟨books₁, hvalid⟩ := Option.isSome_iff_exists.mp hsome
  have hbooks := next_validatePaymasterUserOp hvalid
  have hsender : sender books₁ = some 0x909 := by
    rw [hbooks]
    decide +kernel
  have hworld : books₁.world = testBooks.world := by rw [hbooks]
  have hfits : CostFits testParties.terms.usdcPerEth (129933 * 10 ^ 9) := by
    unfold CostFits
    decide +kernel
  have hcompleted := foreign_unpaid (blockAt 1000 testTime_lt) 90000 hsender rfl hfits
  rw [hworld] at hcompleted
  obtain ⟨books₂, hnext, htoken⟩ := hcompleted
  have hcharge : charge testParties idlePostOp = 272859 := by
    decide +kernel
  refine ⟨books₁, books₂, hvalid, hnext, hcharge, congrFun htoken _, ?_⟩
  intro hrun
  have hpaid := hrun.2.1
  rw [after_of_eq_some hvalid] at hpaid
  have hgrown := hpaid books₂ hnext
  rw [hcharge, htoken] at hgrown
  omega

end BoundedSpending.PaymasterReceipts
