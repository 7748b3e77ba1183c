import Mathlib.Tactic.Ring
import Mathlib.Data.List.Induction
import Mathlib.Data.Nat.ModEq
import Mathlib.Algebra.Order.Ring.Nat

set_option autoImplicit false

namespace BoundedSpending.BigEndianWords

abbrev Bytes := List UInt8

/-- The number a byte string denotes, most significant byte first. -/
def value (bytes : Bytes) : ℕ := bytes.foldl (fun acc b => acc * 256 + b.toNat) 0

def encode : ℕ → ℕ → Bytes
  | 0, _ => []
  | width + 1, n => encode width (n / 256) ++ [UInt8.ofNat (n % 256)]

/-- `abi.encode` of words. -/
def encodeWords (words : List ℕ) : Bytes := words.flatMap (encode 32)

def window (bytes : Bytes) (offset count : ℕ) : Bytes :=
  (List.range count).map fun i => bytes.getD (offset + i) 0

def loadWord (bytes : Bytes) (offset : ℕ) : ℕ := value (window bytes offset 32)

theorem foldl_value (bytes : Bytes) (acc : ℕ) :
    bytes.foldl (fun acc b => acc * 256 + b.toNat) acc =
      acc * 256 ^ bytes.length + value bytes := by
  induction bytes generalizing acc with
  | nil => simp [value]
  | cons b bytes ih =>
    simp only [value, List.foldl_cons, List.length_cons, Nat.zero_mul, Nat.zero_add]
    rw [ih, ih b.toNat]
    ring

theorem value_append (xs ys : Bytes) :
    value (xs ++ ys) = value xs * 256 ^ ys.length + value ys := by
  rw [value, List.foldl_append, foldl_value]
  rfl

theorem value_singleton (b : UInt8) : value [b] = b.toNat := by simp [value]

theorem value_lt (bytes : Bytes) : value bytes < 256 ^ bytes.length := by
  induction bytes using List.reverseRecOn with
  | nil => simp [value]
  | append_singleton bytes b ih =>
    have hb : b.toNat < 256 := b.toNat_lt
    rw [value_append, value_singleton, List.length_append, List.length_singleton, pow_one,
      pow_succ]
    omega

@[simp] theorem encode_length (width n : ℕ) : (encode width n).length = width := by
  induction width generalizing n with
  | zero => rfl
  | succ width ih => simp [encode, ih]

theorem value_encode (width n : ℕ) : value (encode width n) = n % 256 ^ width := by
  induction width generalizing n with
  | zero => simp [encode, value, Nat.mod_one]
  | succ width ih =>
    have hbyte : (UInt8.ofNat (n % 256)).toNat = n % 256 := by
      rw [UInt8.toNat_ofNat']
      omega
    rw [encode, value_append, ih, value_singleton, hbyte, List.length_singleton, pow_one,
      Nat.pow_succ', Nat.mod_mul]
    omega

theorem value_encode_of_lt {width n : ℕ} (h : n < 256 ^ width) : value (encode width n) = n := by
  rw [value_encode, Nat.mod_eq_of_lt h]

theorem encode_modEq {width n m : ℕ} (h : encode width n = encode width m) :
    n ≡ m [MOD 256 ^ width] := by
  have hvalue := congrArg value h
  rwa [value_encode, value_encode] at hvalue

@[simp] theorem window_length (bytes : Bytes) (offset count : ℕ) :
    (window bytes offset count).length = count := by simp [window]

theorem loadWord_lt (bytes : Bytes) (offset : ℕ) : loadWord bytes offset < 2 ^ 256 := by
  have h := value_lt (window bytes offset 32)
  rw [window_length] at h
  exact h.trans_le (by norm_num)

theorem loadWord_drop (bytes : Bytes) (start offset : ℕ) :
    loadWord (bytes.drop start) offset = loadWord bytes (start + offset) := by
  have hbyte : ∀ i, (bytes.drop start).getD (offset + i) 0 = bytes.getD (start + offset + i) 0 := by
    intro i
    rw [List.getD_eq_getElem?_getD, List.getD_eq_getElem?_getD, List.getElem?_drop,
      Nat.add_assoc]
  simp only [loadWord, window, hbyte]

theorem window_eq_slice {bytes : Bytes} {offset count : ℕ} (h : offset + count ≤ bytes.length) :
    window bytes offset count = (bytes.drop offset).take count := by
  apply List.ext_getElem
  · simp only [window_length, List.length_take, List.length_drop]
    omega
  · intro i hi _
    rw [window_length] at hi
    have hb : offset + i < bytes.length := by omega
    simp [window, List.getD_eq_getElem?_getD, List.getElem?_eq_getElem hb]

theorem loadWord_encode (before after : Bytes) {n : ℕ} (h : n < 2 ^ 256) :
    loadWord (before ++ encode 32 n ++ after) before.length = n := by
  have hlen : before.length + 32 ≤ (before ++ encode 32 n ++ after).length := by simp
  rw [loadWord, window_eq_slice hlen]
  have hslice : ((before ++ encode 32 n ++ after).drop before.length).take 32 = encode 32 n := by
    rw [List.append_assoc, List.drop_left, List.take_left' (encode_length 32 n)]
  rw [hslice]
  exact value_encode_of_lt (h.trans_le (by norm_num))

theorem encodeWords_length (words : List ℕ) : (encodeWords words).length = 32 * words.length := by
  induction words with
  | nil => rfl
  | cons word words ih =>
    rw [encodeWords, List.flatMap_cons, List.length_append, encode_length, List.length_cons]
    change 32 + (encodeWords words).length = _
    omega

theorem loadWord_encodeWords {words : List ℕ} {i : ℕ} (hi : i < words.length)
    (h : words[i] < 2 ^ 256) : loadWord (encodeWords words) (32 * i) = words[i] := by
  have hwords : words = words.take i ++ words[i] :: words.drop (i + 1) := by
    rw [List.getElem_cons_drop, List.take_append_drop]
  have hsplit : encodeWords words =
      encodeWords (words.take i) ++ encode 32 words[i] ++ encodeWords (words.drop (i + 1)) := by
    rw [List.append_assoc]
    conv_lhs => rw [hwords]
    rw [encodeWords, List.flatMap_append, List.flatMap_cons]
    rfl
  have hbefore : 32 * i = (encodeWords (words.take i)).length := by
    rw [encodeWords_length, List.length_take_of_le hi.le]
  rw [hsplit, hbefore]
  exact loadWord_encode _ _ h

theorem encodeWords_modEq {words words' : List ℕ} (h : encodeWords words = encodeWords words')
    (hlength : words.length = words'.length) :
    List.Forall₂ (fun n m => n ≡ m [MOD 2 ^ 256]) words words' := by
  induction words generalizing words' with
  | nil =>
    cases words' with
    | nil => exact .nil
    | cons word' words' => cases hlength
  | cons word words ih =>
    cases words' with
    | nil => cases hlength
    | cons word' words' =>
      rw [encodeWords, encodeWords, List.flatMap_cons, List.flatMap_cons] at h
      obtain ⟨hhead, htail⟩ := List.append_inj h (by simp only [encode_length])
      exact .cons (encode_modEq hhead) (ih htail (Nat.succ.inj hlength))

end BoundedSpending.BigEndianWords
