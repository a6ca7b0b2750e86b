import GatewayLauncher.Text.Character
import Mathlib.Algebra.Group.Nat.Defs
import Mathlib.Data.List.Induction

namespace GatewayLauncher.Text

theorem digit?_lt {c : Char} {n : Nat} (h : digit? c = some n) : n < 10 := by
  obtain ⟨z, -, hz⟩ := List.exists_of_findSome?_eq_some h
  split at hz
  · cases hz
    omega
  · cases hz

theorem getD_digit?_lt (c : Char) : (digit? c).getD 0 < 10 := by
  cases h : digit? c with
  | none => decide
  | some n => exact digit?_lt h

theorem digit?_digitChar {n : Nat} (h : n < 10) : digit? n.digitChar = some n := by
  have hd : ∀ k : Fin 10, digit? k.val.digitChar = some k.val := by decide
  exact hd ⟨n, h⟩

theorem digit?_of_ascii {c : Char} (h : '0' ≤ c) (h' : c ≤ '9') :
    digit? c = some (c.toNat - 48) := by
  have hc : 48 ≤ c.toNat := UInt32.le_iff_toNat_le.mp h
  have hc' : c.toNat ≤ 57 := UInt32.le_iff_toNat_le.mp h'
  have hz : 0x30 ≤ c.toNat ∧ c.toNat < 0x30 + 10 := ⟨hc, by omega⟩
  simp only [digit?, zeros, List.findSome?_cons, hz, and_self, if_true]

theorem isDigit_of_ascii {c : Char} (h : '0' ≤ c) (h' : c ≤ '9') : isDigit c = true := by
  rw [isDigit, digit?_of_ascii h h']
  rfl

/-- Among the ASCII characters only the ten are digits. -/
theorem ascii_of_isDigit {c : Char} (h : isDigit c = true) (hc : c.toNat < 128) :
    48 ≤ c.toNat ∧ c.toNat ≤ 57 := by
  obtain ⟨n, hn⟩ := Option.isSome_iff_exists.mp h
  obtain ⟨z, hz, hn⟩ := List.exists_of_findSome?_eq_some hn
  have hs : ∀ z ∈ zeros, z = 48 ∨ 128 ≤ z := by decide
  split at hn
  · have := hs z hz
    omega
  · cases hn

theorem isDigit_digitChar {n : Nat} (h : n < 10) : isDigit n.digitChar = true := by
  rw [isDigit, digit?_digitChar h]
  rfl

theorem numeral_concat (s : List Char) (c : Char) :
    numeral (s ++ [c]) = 10 * numeral s + (digit? c).getD 0 := by
  simp [numeral]

theorem numeral_lt (s : List Char) : numeral s < 10 ^ s.length := by
  induction s using List.reverseRecOn with
  | nil => decide
  | append_singleton s c ih =>
    have hc := getD_digit?_lt c
    rw [numeral_concat, List.length_append, List.length_singleton, Nat.pow_succ]
    omega

theorem numeral_toDigits (n : Nat) : numeral (Nat.toDigits 10 n) = n := by
  induction n using Nat.strongRecOn with
  | ind n ih =>
    by_cases h : n < 10
    · rw [Nat.toDigits_of_lt_base h]
      simp [numeral, digit?_digitChar h]
    · have hm : n % 10 < 10 := Nat.mod_lt n (by decide)
      rw [Nat.toDigits_of_base_le (by decide) (by omega), numeral_concat, ih (n / 10) (by omega),
        digit?_digitChar hm, Option.getD_some]
      omega

theorem isDigit_of_mem_toDigits {n : Nat} {c : Char} (h : c ∈ Nat.toDigits 10 n) :
    isDigit c = true := by
  induction n using Nat.strongRecOn with
  | ind n ih =>
    by_cases hn : n < 10
    · rw [Nat.toDigits_of_lt_base hn, List.mem_singleton] at h
      rw [h, isDigit_digitChar hn]
    · rw [Nat.toDigits_of_base_le (by decide) (by omega), List.mem_append, List.mem_singleton] at h
      rcases h with h | rfl
      · exact ih (n / 10) (by omega) h
      · exact isDigit_digitChar (Nat.mod_lt n (by decide))

variable {s : List Char} {n : Nat}

theorem writeNat?_eq_some_iff :
    writeNat? n = some s ↔ n < 10 ^ digitLimit ∧ s = Nat.toDigits 10 n := by
  have hl : (Nat.toDigits 10 n).length ≤ digitLimit ↔ n < 10 ^ digitLimit :=
    Nat.length_toDigits_le_iff (by decide) (by decide)
  rw [← hl, writeNat?]
  split
  · rename_i h
    simp [h, eq_comm]
  · rename_i h
    simp [h]

theorem lt_of_le_digitLimit (h : n ≤ digitLimit) : n < 10 ^ digitLimit :=
  Nat.lt_of_lt_of_le (Nat.lt_pow_self (by decide)) (Nat.pow_le_pow_right (by decide) h)

theorem lt_of_numeral? (h : numeral? s = some n) : n < 10 ^ digitLimit := by
  rw [numeral?] at h
  split at h
  · rename_i hs
    cases h
    exact Nat.lt_of_lt_of_le (numeral_lt s) (Nat.pow_le_pow_right (by decide) hs)
  · cases h

theorem numeral?_of_writeNat? (h : writeNat? n = some s) : numeral? s = some n := by
  have hs : s.length ≤ digitLimit := by
    obtain ⟨hn, rfl⟩ := writeNat?_eq_some_iff.mp h
    exact (Nat.length_toDigits_le_iff (by decide) (by decide)).mpr hn
  obtain ⟨-, rfl⟩ := writeNat?_eq_some_iff.mp h
  rw [numeral?, if_pos hs, numeral_toDigits]

end GatewayLauncher.Text
