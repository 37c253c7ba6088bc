import Ratfist.NumberText

/-!
Numbers and fields as text. What `snprintf` writes for a number `strtoul` reads back,
and fields between separators are what `strtok_r` finds there.
-/
namespace Ratfist.FieldText

open CString NumberText

theorem byte_of_digit {c : Char} (h : c.isDigit) :
    digitVal c.toNat.toUInt8 = c.toNat - 48 ∧ 48 ≤ c.toNat ∧ c.toNat ≤ 57 := by
  have hbounds : 48 ≤ c.toNat ∧ c.toNat ≤ 57 := by
    simpa [Char.isDigit, UInt32.le_iff_toNat_le] using h
  obtain ⟨hlow, hhigh⟩ := hbounds
  have hbyte : c.toNat.toUInt8.toNat = c.toNat := by
    rw [UInt8.toNat_ofNat']
    omega
  have hdigit : (48 : Byte) ≤ c.toNat.toUInt8 ∧ c.toNat.toUInt8 ≤ 57 := by
    rw [UInt8.le_iff_toNat_le, UInt8.le_iff_toNat_le, hbyte]
    exact ⟨hlow, hhigh⟩
  refine ⟨?_, hlow, hhigh⟩
  rw [digitVal, if_pos (by simpa using hdigit), hbyte]

theorem decimal_ne_nil (n : ℕ) : decimal n ≠ [] := by
  rw [decimal, ne_eq, List.map_eq_nil_iff]
  exact Nat.toDigits_ne_nil

/-- The digits of a number are the bytes from '0' to '9'. -/
theorem mem_decimal {n : ℕ} {d : Byte} (h : d ∈ decimal n) : 48 ≤ d.toNat ∧ d.toNat ≤ 57 := by
  obtain ⟨c, hc, rfl⟩ := List.mem_map.mp h
  obtain ⟨-, hlow, hhigh⟩ := byte_of_digit (Nat.isDigit_of_mem_toDigits (by decide) (by decide) hc)
  rw [UInt8.toNat_ofNat']
  omega

theorem isDigit_of_mem_decimal {n : ℕ} {d : Byte} (h : d ∈ decimal n) : isDigit 10 d := by
  obtain ⟨c, hc, rfl⟩ := List.mem_map.mp h
  obtain ⟨hval, hlow, hhigh⟩ :=
    byte_of_digit (Nat.isDigit_of_mem_toDigits (by decide) (by decide) hc)
  simp only [isDigit, hval, decide_eq_true_eq]
  omega

theorem foldl_digits (cs : List Char) (hcs : ∀ c ∈ cs, c.isDigit) (v : ℕ) :
    (cs.map fun c => c.toNat.toUInt8).foldl (fun acc d => 10 * acc + digitVal d) v =
      Nat.ofDigitChars 10 cs v := by
  induction cs generalizing v with
  | nil => rfl
  | cons c cs ih =>
    rw [List.map_cons, List.foldl_cons, Nat.ofDigitChars_cons,
      (byte_of_digit (hcs c List.mem_cons_self)).1]
    exact ih (fun c' hc' => hcs c' (List.mem_cons_of_mem c hc')) _

theorem digitsVal_decimal (n : ℕ) : digitsVal 10 (decimal n) = n := by
  have hdigits : ∀ c ∈ Nat.toDigits 10 n, c.isDigit :=
    fun c hc => Nat.isDigit_of_mem_toDigits (by decide) (by decide) hc
  rw [digitsVal, decimal, foldl_digits _ hdigits, Nat.ofDigitChars_ten_toDigits]

theorem spelled_decimal (n : ℕ) : Spelled 10 (decimal n) [] [] (decimal n) where
  split := rfl
  blank := by simp
  plusMinus := Or.inl rfl
  isDigits := fun _ hd => isDigit_of_mem_decimal hd
  nonempty := decimal_ne_nil n

/-- `strtoul` reads back what `%lu` has written. -/
theorem strtoul_decimal {n : ℕ} (hn : n ≤ ulongMax) :
    strtoul 10 (decimal n) = ⟨n, (decimal n).length, false⟩ := by
  rw [strtoul_spelled (by decide) (spelled_decimal n), digitsVal_decimal, if_neg (by omega)]
  rfl

theorem conversion_decimal {n : ℕ} (hn : n ≤ ulongMax) :
    conversionFailed (decimal n) (strtoul 10 (decimal n)).consumed
      (strtoul 10 (decimal n)).erange = false := by
  have hpos := List.length_pos_of_ne_nil (decimal_ne_nil n)
  rw [strtoul_decimal hn]
  simp only [conversionFailed, Bool.false_or, List.drop_length, List.isEmpty_nil, Bool.not_true,
    Bool.or_false, beq_eq_false_iff_ne, ne_eq]
  omega

def joined (sep : Byte) (fields : List (List Byte)) : List Byte := [sep].intercalate fields

/-- A field that no scan cuts: it is not empty and holds no separator and no NUL. -/
def FieldOf (sep : Byte) (field : List Byte) : Prop := field ≠ [] ∧ sep ∉ field ∧ 0 ∉ field

/-- A number is a field between separators that are below the digits. -/
theorem decimal_field {sep : Byte} (hsep : sep.toNat < 48) (k : ℕ) : FieldOf sep (decimal k) := by
  refine ⟨decimal_ne_nil k, ?_, fun h => absurd (mem_decimal h).1 (by decide)⟩
  intro h
  have := (mem_decimal h).1
  omega

theorem joined_cons_cons (sep : Byte) (a b : List Byte) (fields : List (List Byte)) :
    joined sep (a :: b :: fields) = a ++ sep :: joined sep (b :: fields) := by
  simp [joined, List.intercalate]

theorem joined_cons (sep : Byte) (a : List Byte) (fields : List (List Byte)) :
    joined sep (a :: fields) = a ++ fields.flatMap (sep :: ·) := by
  induction fields generalizing a with
  | nil => simp [joined, List.intercalate]
  | cons b fields ih => rw [joined_cons_cons, ih b, List.flatMap_cons, List.cons_append]

theorem mem_joined {sep b : Byte} {fields : List (List Byte)} (h : b ∈ joined sep fields) :
    b = sep ∨ ∃ field ∈ fields, b ∈ field := by
  induction fields with
  | nil => simp [joined, List.intercalate] at h
  | cons x fields ih =>
    rcases fields with _ | ⟨y, fields⟩
    · exact Or.inr ⟨x, List.mem_cons_self, by simpa [joined, List.intercalate] using h⟩
    · rw [joined_cons_cons, List.mem_append, List.mem_cons] at h
      rcases h with hx | rfl | hrest
      · exact Or.inr ⟨x, List.mem_cons_self, hx⟩
      · exact Or.inl rfl
      · rcases ih hrest with hsep | ⟨field, hmem, hb⟩
        · exact Or.inl hsep
        · exact Or.inr ⟨field, List.mem_cons_of_mem x hmem, hb⟩

/-- The scan for pieces finds the fields. -/
theorem tokens_joined {sep : Byte} {fields : List (List Byte)} (hsep : sep ≠ 0)
    (h : ∀ field ∈ fields, FieldOf sep field) : tokens sep (joined sep fields) = fields := by
  have hnul : 0 ∉ joined sep fields := by
    intro hmem
    rcases mem_joined hmem with hzero | ⟨field, hfield, hin⟩
    · exact hsep hzero.symm
    · exact (h field hfield).2.2 hin
  rw [tokens, cstr_of_notMem hnul]
  by_cases hnil : fields = []
  · subst hnil
    simp [joined, List.intercalate]
  · rw [joined, List.splitOn_intercalate _ (fun field hfield => (h field hfield).2.1) hnil,
      List.filter_eq_self]
    intro field hfield
    simpa using (h field hfield).1

/-- A field in front of a separator is the first piece. -/
theorem tokens_field {sep : Byte} {field rest : List Byte} (hsep : sep ≠ 0)
    (h : FieldOf sep field) : tokens sep (field ++ sep :: rest) = field :: tokens sep rest := by
  obtain ⟨hne, hnot, hnul⟩ := h
  have hcstr : cstr (field ++ sep :: rest) = field ++ sep :: cstr rest := by
    have hall : ∀ b ∈ field, (b != 0) = true := by
      intro b hb
      simpa using fun hzero : b = 0 => hnul (hzero ▸ hb)
    rw [cstr, List.takeWhile_append_of_pos hall, List.takeWhile_cons_of_pos (by simpa using hsep)]
    rfl
  have hpiece : ∀ x ∈ field, (x == sep) = false := by
    intro x hx
    simpa using fun hsame : x = sep => hnot (hsame ▸ hx)
  rw [tokens, hcstr, List.splitOn_eq_splitOnP,
    List.splitOnP_append_cons_of_forall_mem hpiece sep (by simp)]
  simp [tokens, hne, List.splitOn_eq_splitOnP]

end Ratfist.FieldText
