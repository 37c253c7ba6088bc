import Ratfist.CString

/-!
Which strings `strtoul` reads to the end. A number is spelled as white space, a sign
and digits, where the first two may be missing; no other string is read as a whole,
unless it begins with the `0x` of base 16.
-/
namespace Ratfist.NumberText

open CString

structure Spelled (base : ℕ) (token spaces sign digits : List Byte) : Prop where
  split : token = spaces ++ (sign ++ digits)
  blank : ∀ b ∈ spaces, isSpace b
  plusMinus : sign = [] ∨ sign = [45] ∨ sign = [43]
  isDigits : ∀ d ∈ digits, isDigit base d
  nonempty : digits ≠ []

/-- A minus sign negates modulo 2^32. -/
def signed (sign : List Byte) (v : ℕ) : ℕ :=
  if sign = [45] then (2 ^ 32 - v) % 2 ^ 32 else v

theorem digitVal_other : ∀ i : Fin 256, isSpace (UInt8.ofFin i) ∨ UInt8.ofFin i = 45 ∨
    UInt8.ofFin i = 43 → digitVal (UInt8.ofFin i) = 36 := by
  decide +kernel

/-- A digit is neither white space nor a sign. -/
theorem isDigit_plain {base : ℕ} (hbase : base ≤ 36) {d : Byte} (hd : isDigit base d) :
    isSpace d = false ∧ d ≠ 45 ∧ d ≠ 43 := by
  have hlt : digitVal d < 36 := by
    have : digitVal d < base := by simpa [isDigit] using hd
    omega
  have hother : ¬ (isSpace d = true ∨ d = 45 ∨ d = 43) := by
    intro h
    have := digitVal_other d.toFin h
    rw [UInt8.ofFin_toFin] at this
    omega
  simpa using hother

theorem readPrefix_digits {base : ℕ} {ds : List Byte} (h : ∀ d ∈ ds, isDigit base d) :
    readPrefix base ds = 0 := by
  rcases ds with _ | ⟨z, _ | ⟨x, _ | ⟨d, ds⟩⟩⟩
  · rfl
  · rfl
  · rfl
  · by_cases hbase : base = 16
    · have hx : isDigit base x := h x (by simp)
      have hx' : x ≠ 120 ∧ x ≠ 88 := by
        constructor <;> rintro rfl <;> subst hbase <;> exact absurd hx (by decide)
      simp [readPrefix, hx'.1, hx'.2]
    · simp [readPrefix, hbase]

/-- `strtoul` takes a spelled number as a whole. -/
theorem strtoul_spelled {base : ℕ} (hbase : base ≤ 36) {token spaces sign digits : List Byte}
    (h : Spelled base token spaces sign digits) :
    strtoul base token =
      if ulongMax < digitsVal base digits then ⟨ulongMax, token.length, true⟩
      else ⟨signed sign (digitsVal base digits), token.length, false⟩ := by
  obtain ⟨d, ds, rfl⟩ := List.exists_cons_of_ne_nil h.nonempty
  obtain ⟨hspace, hminus, hplus⟩ := isDigit_plain hbase (h.isDigits d (by simp))
  have hrest : (sign ++ d :: ds).takeWhile isSpace = [] := by
    rcases h.plusMinus with rfl | rfl | rfl
    · simp [hspace]
    · exact List.takeWhile_cons_of_neg (by decide)
    · exact List.takeWhile_cons_of_neg (by decide)
  have hspaces : token.takeWhile isSpace = spaces := by
    rw [h.split, List.takeWhile_append_of_pos h.blank, hrest, List.append_nil]
  have hdrop : token.drop spaces.length = sign ++ d :: ds := by
    rw [h.split, List.drop_left]
  have hsign : readSign (sign ++ d :: ds) = (decide (sign = [45]), sign.length) := by
    rcases h.plusMinus with rfl | rfl | rfl
    · simp [readSign, hminus, hplus]
    · rfl
    · rfl
  have hdigits : (d :: ds).takeWhile (isDigit base) = d :: ds :=
    List.takeWhile_eq_self_iff.mpr h.isDigits
  have hlen : token.length = spaces.length + sign.length + (d :: ds).length := by
    rw [h.split]
    simp only [List.length_append]
    omega
  simp only [strtoul, hspaces, hdrop, hsign, List.drop_left, readPrefix_digits h.isDigits,
    List.drop_zero, hdigits, if_neg h.nonempty, signed, decide_eq_true_eq, hlen, Nat.add_zero]

/-- What is read as a whole is a spelled number. -/
theorem spelled_of_read {base : ℕ} {token : List Byte}
    (hbare : ∀ s : List Byte, s.length ≤ token.length → readPrefix base s = 0)
    (hread : (strtoul base token).consumed = token.length)
    (hsome : (strtoul base token).consumed ≠ 0) :
    ∃ spaces sign digits, Spelled base token spaces sign digits := by
  obtain ⟨spaces, hspaces⟩ : ∃ s, token.takeWhile isSpace = s := ⟨_, rfl⟩
  obtain ⟨afterSpaces, hafter⟩ : ∃ s, token.drop spaces.length = s := ⟨_, rfl⟩
  obtain ⟨⟨negative, k⟩, hsign⟩ : ∃ r, readSign afterSpaces = r := ⟨_, rfl⟩
  obtain ⟨digits, hdigits⟩ :
      ∃ ds, (afterSpaces.drop k).takeWhile (isDigit base) = ds := ⟨_, rfl⟩
  have hzero : readPrefix base (afterSpaces.drop k) = 0 :=
    hbare _ (by
      rw [← hafter, List.length_drop, List.length_drop]
      omega)
  have hconsumed : (strtoul base token).consumed =
      if digits = [] then 0 else spaces.length + k + digits.length := by
    simp only [strtoul, hspaces, hafter, hsign, hzero, List.drop_zero, hdigits, Nat.add_zero]
    split_ifs <;> rfl
  have hne : digits ≠ [] := by
    intro hnil
    rw [hconsumed, if_pos hnil] at hsome
    exact hsome rfl
  rw [hconsumed, if_neg hne] at hread
  have hsplit : token = spaces ++ afterSpaces := by
    have htake := List.prefix_iff_eq_take.mp (List.takeWhile_prefix isSpace (l := token))
    rw [hspaces] at htake
    rw [← hafter]
    conv_lhs => rw [← List.take_append_drop spaces.length token, ← htake]
  have hlen : afterSpaces.length = k + digits.length := by
    have := congrArg List.length hsplit
    rw [List.length_append] at this
    omega
  have hall : digits = afterSpaces.drop k := by
    rw [← hdigits]
    exact (List.takeWhile_prefix _).eq_of_length (by rw [hdigits]; simp; omega)
  refine ⟨spaces, afterSpaces.take k, digits, ?_, ?_, ?_, ?_, hne⟩
  · rw [hall, List.take_append_drop, ← hsplit]
  · intro b hb
    rw [← hspaces] at hb
    exact List.mem_takeWhile_imp hb
  · rcases afterSpaces with _ | ⟨b, rest⟩
    · exact Or.inl List.take_nil
    · simp only [readSign] at hsign
      split_ifs at hsign with hm hp <;> cases hsign
      · exact Or.inr (Or.inl (by simpa using hm))
      · exact Or.inr (Or.inr (by simpa using hp))
      · exact Or.inl rfl
  · intro d hd
    rw [← hdigits] at hd
    exact List.mem_takeWhile_imp hd

end Ratfist.NumberText
