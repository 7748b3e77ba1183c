import BoundedSpending.AccountState

set_option autoImplicit false

/-!
# What is used of OpenZeppelin's contracts

They are a package of their own. Each function is a parameter that comes with what its
documentation says of it.
-/
namespace BoundedSpending.OpenZeppelin

open BigEndianWords

/-- The message of EIP-712. -/
def typedDataMessage (domainSeparator structHash : ℕ) : Bytes :=
  encode 2 0x1901 ++ encodeWords [domainSeparator, structHash]

structure MessageHashUtils (keccak : Bytes → ℕ) where
  toTypedDataHash : ℕ → ℕ → ℕ
  toTypedDataHash_eq : ∀ domainSeparator structHash,
    toTypedDataHash domainSeparator structHash =
      keccak (typedDataMessage domainSeparator structHash)

/-- The message of EIP-1014. -/
def addressMessage (deployer : Address) (salt bytecodeHash : ℕ) : Bytes :=
  encode 1 0xff ++ encode 20 deployer ++ encode 32 salt ++ encode 32 bytecodeHash

/-- The address that the chain gives to what CREATE2 creates. -/
def create2Address (keccak : Bytes → ℕ) (deployer : Address) (salt bytecodeHash : ℕ) : Address :=
  keccak (addressMessage deployer salt bytecodeHash) % 2 ^ 160

structure Create2 (keccak : Bytes → ℕ) where
  computeAddress : Address → ℕ → ℕ → Address
  computeAddress_eq : ∀ deployer salt bytecodeHash,
    computeAddress deployer salt bytecodeHash = create2Address keccak deployer salt bytecodeHash

/-- ReentrancyGuardTransient, as the flag before and after a `nonReentrant` function. -/
structure ReentrancyGuard where
  nonReentrantBefore : Bool → Option Bool
  nonReentrantAfter : Bool → Bool
  before_entered : nonReentrantBefore true = none
  before_clear : nonReentrantBefore false = some true
  after_eq : ∀ entered, nonReentrantAfter entered = false

def testMessageHashUtils (keccak : Bytes → ℕ) : MessageHashUtils keccak :=
  ⟨fun domainSeparator structHash => keccak (typedDataMessage domainSeparator structHash),
    fun _ _ => rfl⟩

def testCreate2 (keccak : Bytes → ℕ) : Create2 keccak :=
  ⟨create2Address keccak, fun _ _ _ => rfl⟩

def testReentrancyGuard : ReentrancyGuard :=
  ⟨fun entered => if entered then none else some true, fun _ => false, rfl, rfl, fun _ => rfl⟩

end BoundedSpending.OpenZeppelin
