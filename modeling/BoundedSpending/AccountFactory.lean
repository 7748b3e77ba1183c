import BoundedSpending.UserOpHash

set_option autoImplicit false

/-!
# SpendingAccountFactory.sol

Accounts are created at addresses that are hashes of their parameters. Anyone may create
the account of anyone; what can be found at such an address is still the account with
these parameters. The compiled code of SpendingAccount.sol is a parameter.
-/
namespace BoundedSpending.AccountFactory

open CheckedArithmetic BigEndianWords UserOperations UserOpHash OpenZeppelin

structure Factory where
  address : Address
  entryPoint : Address
  paymaster : Address
  usdcPerEth : ℕ
  address_lt : address < 2 ^ 160
  entryPoint_lt : entryPoint < 2 ^ 160
  paymaster_lt : paymaster < 2 ^ 160
  usdcPerEth_lt : usdcPerEth < wordSize

structure Params where
  vaultOwner : Address
  dailyEthLimit : ℕ
  monthlyEthLimit : ℕ
  dailyUsdcLimit : ℕ
  monthlyUsdcLimit : ℕ
  salt : ℕ
  vaultOwner_lt : vaultOwner < 2 ^ 160
  dailyEthLimit_lt : dailyEthLimit < wordSize
  monthlyEthLimit_lt : monthlyEthLimit < wordSize
  dailyUsdcLimit_lt : dailyUsdcLimit < wordSize
  monthlyUsdcLimit_lt : monthlyUsdcLimit < wordSize
  salt_lt : salt < wordSize

def constructorWords (f : Factory) (p : Params) : List ℕ :=
  [f.entryPoint, p.vaultOwner, f.paymaster, f.usdcPerEth, p.dailyEthLimit, p.monthlyEthLimit,
    p.dailyUsdcLimit, p.monthlyUsdcLimit]

/-- `abi.encodePacked(type(SpendingAccount).creationCode, abi.encode(...))` -/
def accountInitCode (creationCode : Bytes) (f : Factory) (p : Params) : Bytes :=
  creationCode ++ encodeWords (constructorWords f p)

/-- The constructor reads its arguments behind the code. -/
def constructed (creationCode initCode : Bytes) : Option Config :=
  let arguments := initCode.drop creationCode.length
  let word i := loadWord arguments (32 * i)
  if initCode.take creationCode.length = creationCode ∧ 256 ≤ arguments.length ∧
      word 0 < 2 ^ 160 ∧ word 1 < 2 ^ 160 ∧ word 2 < 2 ^ 160 then
    some
      { entryPointContract := word 0
        vaultOwner := word 1
        paymasterAddress := word 2
        usdcPerEth := word 3
        dailyEthLimit := word 4
        monthlyEthLimit := word 5
        dailyUsdcLimit := word 6
        monthlyUsdcLimit := word 7
        usdcPerEth_lt := loadWord_lt _ _
        dailyEthLimit_lt := loadWord_lt _ _
        monthlyEthLimit_lt := loadWord_lt _ _
        dailyUsdcLimit_lt := loadWord_lt _ _
        monthlyUsdcLimit_lt := loadWord_lt _ _ }
  else none

def configOf (f : Factory) (p : Params) : Config where
  entryPointContract := f.entryPoint
  vaultOwner := p.vaultOwner
  paymasterAddress := f.paymaster
  usdcPerEth := f.usdcPerEth
  dailyEthLimit := p.dailyEthLimit
  monthlyEthLimit := p.monthlyEthLimit
  dailyUsdcLimit := p.dailyUsdcLimit
  monthlyUsdcLimit := p.monthlyUsdcLimit
  usdcPerEth_lt := f.usdcPerEth_lt
  dailyEthLimit_lt := p.dailyEthLimit_lt
  monthlyEthLimit_lt := p.monthlyEthLimit_lt
  dailyUsdcLimit_lt := p.dailyUsdcLimit_lt
  monthlyUsdcLimit_lt := p.monthlyUsdcLimit_lt

structure Creation where
  deployer : Address
  salt : ℕ
  initCode : Bytes
  timestamp : ℕ
  deployer_lt : deployer < 2 ^ 160
  salt_lt : salt < wordSize

def getAddress {keccak : Bytes → ℕ} (library : Create2 keccak) (creationCode : Bytes)
    (f : Factory) (p : Params) : Address :=
  library.computeAddress f.address p.salt (keccak (accountInitCode creationCode f p))

def Creation.message (keccak : Bytes → ℕ) (c : Creation) : Bytes :=
  addressMessage c.deployer c.salt (keccak c.initCode)

def Creation.address (keccak : Bytes → ℕ) (c : Creation) : Address :=
  create2Address keccak c.deployer c.salt (keccak c.initCode)

abbrev Contracts := List Creation

def Creation.isAt (keccak : Bytes → ℕ) (a : Address) (c : Creation) : Bool :=
  decide (c.address keccak = a)

def taken (keccak : Bytes → ℕ) (contracts : Contracts) (a : Address) : Bool :=
  contracts.any (Creation.isAt keccak a)

/-- An address is given out once. -/
def create2 (keccak : Bytes → ℕ) (contracts : Contracts) (c : Creation) : Option Contracts :=
  if taken keccak contracts (c.address keccak) then none else some (c :: contracts)

def accountCreation (creationCode : Bytes) (f : Factory) (p : Params) (now : ℕ) : Creation :=
  ⟨f.address, p.salt, accountInitCode creationCode f p, now, f.address_lt, p.salt_lt⟩

def createAccount (keccak : Bytes → ℕ) (creationCode : Bytes) (f : Factory) (p : Params) (now : ℕ)
    (contracts : Contracts) : Option (Address × Contracts) :=
  let c := accountCreation creationCode f p now
  (create2 keccak contracts c).map fun contracts => (c.address keccak, contracts)

/-- The account at an address, and when it was created. -/
def accountAt (keccak : Bytes → ℕ) (creationCode : Bytes) (contracts : Contracts) (a : Address) :
    Option (Config × ℕ) := do
  let c ← contracts.find? (Creation.isAt keccak a)
  let cfg ← constructed creationCode c.initCode
  return (cfg, c.timestamp)

inductive Grows (keccak : Bytes → ℕ) : Contracts → Contracts → Prop where
  | refl (contracts : Contracts) : Grows keccak contracts contracts
  | next {contracts contracts' contracts'' : Contracts} (c : Creation)
      (h : Grows keccak contracts contracts')
      (hc : create2 keccak contracts' c = some contracts'') :
      Grows keccak contracts contracts''

theorem testParties_lt : 0x101 < 2 ^ 160 ∧ 0x202 < 2 ^ 160 ∧ 0x303 < 2 ^ 160 ∧
    0x808 < 2 ^ 160 ∧ 0xd13 < 2 ^ 160 ∧ 0 < wordSize ∧ 1 < wordSize := by decide

def testFactory : Factory where
  address := 0xd13
  entryPoint := testConfig.entryPointContract
  paymaster := testConfig.paymasterAddress
  usdcPerEth := testConfig.usdcPerEth
  address_lt := testParties_lt.2.2.2.2.1
  entryPoint_lt := testParties_lt.1
  paymaster_lt := testParties_lt.2.2.1
  usdcPerEth_lt := testConfig.usdcPerEth_lt

def testParams : Params where
  vaultOwner := testConfig.vaultOwner
  dailyEthLimit := testConfig.dailyEthLimit
  monthlyEthLimit := testConfig.monthlyEthLimit
  dailyUsdcLimit := testConfig.dailyUsdcLimit
  monthlyUsdcLimit := testConfig.monthlyUsdcLimit
  salt := 1
  vaultOwner_lt := testParties_lt.2.1
  dailyEthLimit_lt := testConfig.dailyEthLimit_lt
  monthlyEthLimit_lt := testConfig.monthlyEthLimit_lt
  dailyUsdcLimit_lt := testConfig.dailyUsdcLimit_lt
  monthlyUsdcLimit_lt := testConfig.monthlyUsdcLimit_lt
  salt_lt := testParties_lt.2.2.2.2.2.2

/-- The first instructions of a compiled contract stand for its code. -/
def testCode : Bytes := [0x60, 0x80, 0x60, 0x40]

def otherCreation : Creation :=
  ⟨0x808, 0, [0], 500, testParties_lt.2.2.2.1, testParties_lt.2.2.2.2.2.1⟩

def accountCodeHash : ℕ := 0x529ef1cf79cb687becb73b207af629f4a0d92794dab630ab286105a02e4ed074

def otherCodeHash : ℕ := 0xbc36789e7a1e281436464229828f817d6612f7b477d66591ff96a9e064bcc98a

/-- The keccak-256 hashes of all that is hashed for the two. -/
def creationHashes : List (Bytes × ℕ) :=
  [(accountInitCode testCode testFactory testParams, accountCodeHash),
    (addressMessage 0xd13 1 accountCodeHash,
      0x4e724f610a4db7c02ee8401464add0d65b34bd757c3d1d3f09f132a8387644ef),
    ([0], otherCodeHash),
    (addressMessage 0x808 0 otherCodeHash,
      0x232ef1755862cc4eb50f1b365abe3f68dbc5664358022bd07b853f0892df0a02)]

def creationKeccak (message : Bytes) : ℕ := (creationHashes.lookup message).getD 0

variable {keccak : Bytes → ℕ} {library : Create2 keccak} {creationCode : Bytes} {f : Factory}
  {p : Params} {now : ℕ}
  {contracts contracts' : Contracts} {a : Address} {account : Config × ℕ}

theorem create2_eq_some {c : Creation} : create2 keccak contracts c = some contracts' ↔
    taken keccak contracts (c.address keccak) = false ∧ contracts' = c :: contracts := by
  unfold create2
  split_ifs with htaken
  · simp [htaken]
  · simp [htaken, eq_comm]

theorem constructed_accountInitCode :
    constructed creationCode (accountInitCode creationCode f p) = some (configOf f p) := by
  have harguments : (accountInitCode creationCode f p).drop creationCode.length =
      encodeWords (constructorWords f p) := List.drop_left
  have hcode : (accountInitCode creationCode f p).take creationCode.length = creationCode :=
    List.take_left
  have hlength : (encodeWords (constructorWords f p)).length = 256 := encodeWords_length _
  have haddress : ∀ {n : ℕ}, n < 2 ^ 160 → n < 2 ^ 256 := fun h => h.trans (by decide)
  have hwords : ∀ n ∈ constructorWords f p, n < 2 ^ 256 := by
    simp only [constructorWords, List.forall_mem_cons]
    exact ⟨haddress f.entryPoint_lt, haddress p.vaultOwner_lt, haddress f.paymaster_lt,
      f.usdcPerEth_lt, p.dailyEthLimit_lt, p.monthlyEthLimit_lt, p.dailyUsdcLimit_lt,
      p.monthlyUsdcLimit_lt, List.forall_mem_nil _⟩
  have hword : ∀ i (hi : i < 8), loadWord (encodeWords (constructorWords f p)) (32 * i) =
      (constructorWords f p)[i] :=
    fun i hi => loadWord_encodeWords hi (hwords _ (List.getElem_mem hi))
  have h₀ : loadWord (encodeWords (constructorWords f p)) 0 = f.entryPoint := hword 0 (by decide)
  have h₁ : loadWord (encodeWords (constructorWords f p)) 32 = p.vaultOwner := hword 1 (by decide)
  have h₂ : loadWord (encodeWords (constructorWords f p)) 64 = f.paymaster := hword 2 (by decide)
  have h₃ : loadWord (encodeWords (constructorWords f p)) 96 = f.usdcPerEth := hword 3 (by decide)
  have h₄ : loadWord (encodeWords (constructorWords f p)) 128 = p.dailyEthLimit :=
    hword 4 (by decide)
  have h₅ : loadWord (encodeWords (constructorWords f p)) 160 = p.monthlyEthLimit :=
    hword 5 (by decide)
  have h₆ : loadWord (encodeWords (constructorWords f p)) 192 = p.dailyUsdcLimit :=
    hword 6 (by decide)
  have h₇ : loadWord (encodeWords (constructorWords f p)) 224 = p.monthlyUsdcLimit :=
    hword 7 (by decide)
  simp only [constructed, harguments, hcode, hlength, Nat.mul_zero, Nat.reduceMul, h₀, h₁, h₂, h₃,
    h₄, h₅, h₆, h₇]
  exact if_pos ⟨trivial, le_rfl, f.entryPoint_lt, p.vaultOwner_lt, f.paymaster_lt⟩

theorem getAddress_eq (library : Create2 keccak) (now : ℕ) : getAddress library creationCode f p =
    (accountCreation creationCode f p now).address keccak :=
  library.computeAddress_eq _ _ _

theorem createAccount_eq_some (library : Create2 keccak) :
    createAccount keccak creationCode f p now contracts = some (a, contracts') ↔
    taken keccak contracts (getAddress library creationCode f p) = false ∧
      a = getAddress library creationCode f p ∧
      contracts' = accountCreation creationCode f p now :: contracts := by
  simp only [createAccount, Option.map_eq_some_iff, create2_eq_some, getAddress_eq library now,
    Prod.mk.injEq]
  constructor
  · rintro ⟨_, ⟨htaken, rfl⟩, rfl, rfl⟩
    exact ⟨htaken, rfl, rfl⟩
  · rintro ⟨htaken, rfl, rfl⟩
    exact ⟨_, ⟨htaken, rfl⟩, rfl, rfl⟩

theorem isAt_iff {c : Creation} : c.isAt keccak a = true ↔ c.address keccak = a :=
  decide_eq_true_iff

theorem taken_iff : taken keccak contracts a = true ↔ ∃ c ∈ contracts, c.address keccak = a := by
  simp only [taken, List.any_eq_true, isAt_iff]

theorem accountAt_cons_of_ne {c : Creation} (h : c.address keccak ≠ a) :
    accountAt keccak creationCode (c :: contracts) a =
      accountAt keccak creationCode contracts a := by
  have hnot : ¬ c.isAt keccak a = true := fun hat => h (isAt_iff.mp hat)
  rw [accountAt, List.find?_cons_of_neg hnot]
  rfl

theorem accountAt_accountCreation (library : Create2 keccak) :
    accountAt keccak creationCode (accountCreation creationCode f p now :: contracts)
      (getAddress library creationCode f p) = some (configOf f p, now) := by
  have hat : (accountCreation creationCode f p now).isAt keccak
      (getAddress library creationCode f p) = true := isAt_iff.mpr (getAddress_eq library now).symm
  have hcode : constructed creationCode (accountCreation creationCode f p now).initCode =
      some (configOf f p) := constructed_accountInitCode
  rw [accountAt, List.find?_cons_of_pos hat]
  change (constructed creationCode (accountCreation creationCode f p now).initCode).bind
    (fun cfg => some (cfg, now)) = _
  rw [hcode]
  rfl

theorem taken_of_accountAt (h : accountAt keccak creationCode contracts a = some account) :
    taken keccak contracts a = true := by
  obtain ⟨c, hc, _⟩ := Option.bind_eq_some_iff.mp h
  exact taken_iff.mpr ⟨c, List.mem_of_find?_eq_some hc, isAt_iff.mp (List.find?_some hc)⟩

theorem Grows.keeps (h : Grows keccak contracts contracts')
    (haccount : accountAt keccak creationCode contracts a = some account) :
    accountAt keccak creationCode contracts' a = some account := by
  induction h with
  | refl => exact haccount
  | next c _ hc ih =>
    obtain ⟨hfree, rfl⟩ := create2_eq_some.mp hc
    have hne : c.address keccak ≠ a := by
      rintro rfl
      rw [taken_of_accountAt ih] at hfree
      cases hfree
    rw [accountAt_cons_of_ne hne]
    exact ih

/-- A new account is at the address that `getAddress` tells, with the owner and the limits
    it was asked for, whatever is created after it; and it is not created again. -/
theorem createAccount_persists (library : Create2 keccak)
    (hcreated : createAccount keccak creationCode f p now contracts = some (a, contracts'))
    {contracts'' : Contracts} (hgrows : Grows keccak contracts' contracts'') :
    a = getAddress library creationCode f p ∧
      accountAt keccak creationCode contracts'' a = some (configOf f p, now) ∧
      ∀ later, createAccount keccak creationCode f p later contracts'' = none := by
  obtain ⟨_, rfl, rfl⟩ := (createAccount_eq_some library).mp hcreated
  have haccount := hgrows.keeps (accountAt_accountCreation library)
  refine ⟨rfl, haccount, ?_⟩
  intro later
  apply Option.eq_none_iff_forall_not_mem.mpr
  rintro ⟨a, contracts₁⟩ hagain
  obtain ⟨hfree, _⟩ := (createAccount_eq_some library).mp hagain
  rw [taken_of_accountAt haccount] at hfree
  cases hfree

theorem createAccount_persists_grown :
    accountAt creationKeccak testCode
      [otherCreation, accountCreation testCode testFactory testParams 1000]
      (getAddress (testCreate2 creationKeccak) testCode testFactory testParams) =
        some (configOf testFactory testParams, 1000) := by
  have hcreated : createAccount creationKeccak testCode testFactory testParams 1000 [] =
      some (getAddress (testCreate2 creationKeccak) testCode testFactory testParams,
        [accountCreation testCode testFactory testParams 1000]) :=
    (createAccount_eq_some (testCreate2 creationKeccak)).mpr ⟨rfl, rfl, rfl⟩
  have hother : create2 creationKeccak [accountCreation testCode testFactory testParams 1000]
      otherCreation = some [otherCreation, accountCreation testCode testFactory testParams 1000] :=
    create2_eq_some.mpr ⟨by decide +kernel, rfl⟩
  exact (createAccount_persists (testCreate2 creationKeccak) hcreated
    (.next otherCreation (.refl _) hother)).2.1

end BoundedSpending.AccountFactory
