import Mathlib.Algebra.Ring.Nat
import Mathlib.Tactic.Common
import Mathlib.Data.List.Basic
import Mathlib.Data.List.TakeWhile

/-!
Byte strings as C code reads them. A string is the bytes before the first NUL;
`strtok_r` skips separators and saves where it stopped, `strtoul` reports how
far it read. The list `tokens` says what repeated calls of `strtok_r` return.
-/
namespace Ratfist.CString

abbrev Byte := UInt8

/-- A string literal as the bytes C stores for it, without the closing NUL. -/
def ascii (s : String) : List Byte := s.toList.map (fun c => c.toNat.toUInt8)

/-- The C string at the start of a memory area: the bytes before its first NUL. -/
def cstr (s : List Byte) : List Byte := s.takeWhile (· != 0)

/-- `strcmp(a, b) == 0`. -/
def strcmpEq (a b : List Byte) : Bool := cstr a == cstr b

/-! `strtok_r`. The saved pointer is `none` for NULL. POSIX leaves open what is
saved once a token ends at the NUL: newlib saves NULL, glibc the address of the
NUL, so `nullAtEnd` is a parameter. -/

def savedAtEnd (nullAtEnd : Bool) : Option (List Byte) :=
  if nullAtEnd then none else some []

/-- One call on the string to scan: the token, if any, and the saved pointer. -/
def strtokR (nullAtEnd : Bool) (sep : Byte) :
    Option (List Byte) → Option (List Byte) × Option (List Byte)
  | none => (none, none)
  | some s =>
    let s := (cstr s).dropWhile (· == sep)
    match s with
    | [] => (none, savedAtEnd nullAtEnd)
    | _ :: _ =>
      match s.dropWhile (· != sep) with
      | [] => (some s, savedAtEnd nullAtEnd)
      | _ :: rest => (some (s.takeWhile (· != sep)), some rest)

/-- The nonempty pieces between separators. -/
def tokens (sep : Byte) (s : List Byte) : List (List Byte) :=
  ((cstr s).splitOn sep).filter (fun t => !t.isEmpty)

/-- The pieces still to come from a saved pointer. -/
def savedTokens (sep : Byte) : Option (List Byte) → List (List Byte)
  | none => []
  | some s => tokens sep s

/-! `strtoul` with a 32-bit `unsigned long`, after the C standard. -/

def isSpace (b : Byte) : Bool := b == 32 || (9 ≤ b && b ≤ 13)

def digitVal (b : Byte) : ℕ :=
  if 48 ≤ b && b ≤ 57 then b.toNat - 48
  else if 65 ≤ b && b ≤ 90 then b.toNat - 55
  else if 97 ≤ b && b ≤ 122 then b.toNat - 87
  else 36

def isDigit (base : ℕ) (b : Byte) : Bool := digitVal b < base

def digitsVal (base : ℕ) (ds : List Byte) : ℕ :=
  ds.foldl (fun acc d => base * acc + digitVal d) 0

def ulongMax : ℕ := 2 ^ 32 - 1

/-- `consumed` is `end_ptr - nptr`; `erange` says that errno was set to ERANGE. -/
structure StrtoulResult where
  value : ℕ
  consumed : ℕ
  erange : Bool
deriving DecidableEq, Repr

/-- An optional sign: whether it is a minus, and how many bytes it takes. -/
def readSign : List Byte → Bool × ℕ
  | b :: _ => if b == 45 then (true, 1) else if b == 43 then (false, 1) else (false, 0)
  | [] => (false, 0)

/-- The optional `0x` of base 16 counts only when a digit follows it. -/
def readPrefix (base : ℕ) : List Byte → ℕ
  | z :: x :: d :: _ =>
    if base = 16 && z == 48 && (x == 120 || x == 88) && isDigit 16 d then 2 else 0
  | _ => 0

def strtoul (base : ℕ) (s : List Byte) : StrtoulResult :=
  let spaces := (s.takeWhile isSpace).length
  let s := s.drop spaces
  let (negative, sign) := readSign s
  let s := s.drop sign
  let pre := readPrefix base s
  let ds := (s.drop pre).takeWhile (isDigit base)
  if ds = [] then ⟨0, 0, false⟩
  else if ulongMax < digitsVal base ds then ⟨ulongMax, spaces + sign + pre + ds.length, true⟩
  else
    ⟨if negative then (2 ^ 32 - digitsVal base ds) % 2 ^ 32 else digitsVal base ds,
      spaces + sign + pre + ds.length, false⟩

/-- `token` is not a number: the three tests the program makes after `strtoul` and
`strtof`, of errno, of an `end_ptr` at the start and of one before the NUL. -/
def conversionFailed (token : List Byte) (consumed : ℕ) (erange : Bool) : Bool :=
  erange || consumed == 0 || !(token.drop consumed).isEmpty

/-! The conversions of `snprintf` that the program uses on numbers. -/

/-- The digits of `%lu`. -/
def decimal (n : ℕ) : List Byte := (Nat.toDigits 10 n).map (fun c => c.toNat.toUInt8)

/-- The text of `%ld`. -/
def decimalInt : ℤ → List Byte
  | Int.ofNat n => decimal n
  | Int.negSucc n => 45 :: decimal (n + 1)

def hexDigit (n : ℕ) : Byte := if n < 10 then (48 + n).toUInt8 else (55 + n).toUInt8

/-- The text of `%02X` on a byte. -/
def hex2 (b : Byte) : List Byte := [hexDigit (b.toNat / 16), hexDigit (b.toNat % 16)]

private theorem ne_nul_of_notMem {s : List Byte} (h : 0 ∉ s) : ∀ b ∈ s, (b != 0) = true := by
  intro b hb
  simp only [bne_iff_ne]
  rintro rfl
  exact h hb

theorem cstr_of_notMem {s : List Byte} (h : 0 ∉ s) : cstr s = s :=
  List.takeWhile_eq_self_iff.mpr (ne_nul_of_notMem h)

theorem nul_notMem_cstr (s : List Byte) : 0 ∉ cstr s := by
  intro h
  simpa using List.mem_takeWhile_imp h

@[simp] theorem cstr_cstr (s : List Byte) : cstr (cstr s) = cstr s :=
  cstr_of_notMem (nul_notMem_cstr s)

@[simp] theorem savedTokens_savedAtEnd (nullAtEnd : Bool) (sep : Byte) :
    savedTokens sep (savedAtEnd nullAtEnd) = [] := by
  cases nullAtEnd <;> simp [savedAtEnd, savedTokens, tokens, cstr, List.splitOn]

/-- Separators in front of a string change none of its pieces. -/
theorem splitOn_dropWhile (sep : Byte) (s : List Byte) :
    ((s.dropWhile (· == sep)).splitOn sep).filter (fun t => !t.isEmpty) =
      (s.splitOn sep).filter (fun t => !t.isEmpty) := by
  induction s with
  | nil => rfl
  | cons b s ih =>
    by_cases hb : b = sep
    · subst b
      rw [List.dropWhile_cons_of_pos (by simp), ih]
      simp [List.splitOn, List.splitOnP_cons_eq_if_modifyHead]
    · rw [List.dropWhile_cons_of_neg (by simpa using hb)]

/-- Past the leading separators, the first piece ends at the next separator. -/
theorem tokens_of_skipped (sep : Byte) (s : List Byte) (b : Byte) (t : List Byte)
    (hd : (cstr s).dropWhile (· == sep) = b :: t) :
    tokens sep s = (b :: t).takeWhile (· != sep) ::
      savedTokens sep (((b :: t).dropWhile (· != sep)).tail?) := by
  have hb : b ≠ sep := by
    have := List.head?_dropWhile_not (· == sep) (cstr s)
    simpa [hd] using this
  have hpiece : ∀ x ∈ (b :: t).takeWhile (· != sep), (x == sep) = false := by
    intro x hx
    simpa using List.mem_takeWhile_imp hx
  have hne : (b :: t).takeWhile (· != sep) ≠ [] := by
    rw [List.takeWhile_cons_of_pos (by simpa using hb)]
    simp
  have hsub : ∀ x ∈ (b :: t).dropWhile (· != sep), x ∈ cstr s := by
    intro x hx
    apply (List.dropWhile_suffix (· == sep)).subset
    rw [hd]
    exact (List.dropWhile_suffix (· != sep)).subset hx
  unfold tokens
  rw [← splitOn_dropWhile, hd]
  conv_lhs => rw [← List.takeWhile_append_dropWhile (p := (· != sep)) (l := b :: t)]
  cases hrest : (b :: t).dropWhile (· != sep) with
  | nil =>
    rw [List.append_nil, List.splitOn_eq_splitOnP, List.splitOnP_eq_singleton hpiece]
    simp [savedTokens, hne]
  | cons c rest =>
    have hc : c = sep := by
      have := List.head?_dropWhile_not (· != sep) (b :: t)
      simpa [hrest] using this
    have hnul : 0 ∉ rest := by
      intro h0
      exact nul_notMem_cstr s (hsub 0 (by rw [hrest]; exact List.mem_cons_of_mem c h0))
    rw [List.splitOn_eq_splitOnP,
      List.splitOnP_append_cons_of_forall_mem hpiece c (by simpa using hc)]
    simp [savedTokens, tokens, cstr_of_notMem hnul, hne, List.splitOn_eq_splitOnP]

theorem tokens_eq_nil_iff (sep : Byte) (s : List Byte) :
    tokens sep s = [] ↔ (cstr s).dropWhile (· == sep) = [] := by
  cases hd : (cstr s).dropWhile (· == sep) with
  | nil =>
    simp only [iff_true]
    unfold tokens
    rw [← splitOn_dropWhile, hd]
    rfl
  | cons b t => simp [tokens_of_skipped sep s b t hd]

/-- One call returns the first piece and saves the others. -/
theorem strtokR_spec (nullAtEnd : Bool) (sep : Byte) (saved : Option (List Byte)) :
    (strtokR nullAtEnd sep saved).1 = (savedTokens sep saved).head? ∧
      savedTokens sep (strtokR nullAtEnd sep saved).2 = (savedTokens sep saved).tail := by
  cases saved with
  | none => exact ⟨rfl, rfl⟩
  | some s =>
    simp only [savedTokens, strtokR]
    cases hd : (cstr s).dropWhile (· == sep) with
    | nil =>
      rw [(tokens_eq_nil_iff sep s).mpr hd]
      exact ⟨rfl, savedTokens_savedAtEnd nullAtEnd sep⟩
    | cons b t =>
      rw [tokens_of_skipped sep s b t hd]
      cases hrest : (b :: t).dropWhile (· != sep) with
      | nil =>
        have hall := List.takeWhile_append_dropWhile (p := (· != sep)) (l := b :: t)
        rw [hrest, List.append_nil] at hall
        refine ⟨?_, savedTokens_savedAtEnd nullAtEnd sep⟩
        simp only [List.head?_cons, hall]
      | cons c rest => exact ⟨rfl, rfl⟩

theorem strtokR_some {nullAtEnd : Bool} {sep : Byte} {saved rest : Option (List Byte)}
    {token : List Byte} (h : strtokR nullAtEnd sep saved = (some token, rest)) :
    savedTokens sep saved = token :: savedTokens sep rest := by
  obtain ⟨hhead, htail⟩ := strtokR_spec nullAtEnd sep saved
  rw [h] at hhead htail
  rw [show savedTokens sep rest = _ from htail]
  exact (List.cons_head?_tail hhead.symm).symm

theorem strtokR_none {nullAtEnd : Bool} {sep : Byte} {saved rest : Option (List Byte)}
    (h : strtokR nullAtEnd sep saved = (none, rest)) :
    savedTokens sep saved = [] ∧ savedTokens sep rest = [] := by
  obtain ⟨hhead, htail⟩ := strtokR_spec nullAtEnd sep saved
  rw [h] at hhead htail
  have hnil : savedTokens sep saved = [] := List.head?_eq_none_iff.mp hhead.symm
  rw [hnil] at htail
  exact ⟨hnil, htail⟩

theorem strtokR_none_iff (nullAtEnd : Bool) (sep : Byte) (s : List Byte) :
    (strtokR nullAtEnd sep (some s)).1 = none ↔ tokens sep s = [] := by
  rw [(strtokR_spec nullAtEnd sep (some s)).1]
  exact List.head?_eq_none_iff

/-- With a further token to come, a pointer into the string is saved. -/
theorem strtokR_saved_of_two (nullAtEnd : Bool) (sep : Byte) (s : List Byte)
    (h : 2 ≤ (tokens sep s).length) :
    ∃ rest, (strtokR nullAtEnd sep (some s)).2 = some rest ∧
      (cstr rest).getLast? = (cstr s).getLast? := by
  cases hd : (cstr s).dropWhile (· == sep) with
  | nil => simp [(tokens_eq_nil_iff sep s).mpr hd] at h
  | cons b t =>
    rw [tokens_of_skipped sep s b t hd] at h
    cases hrest : (b :: t).dropWhile (· != sep) with
    | nil => simp [hrest, savedTokens] at h
    | cons c rest =>
      refine ⟨rest, by simp only [strtokR, hd, hrest], ?_⟩
      have hsplit : cstr s = (cstr s).takeWhile (· == sep) ++
          ((b :: t).takeWhile (· != sep) ++ c :: rest) := by
        rw [← hrest, List.takeWhile_append_dropWhile, ← hd, List.takeWhile_append_dropWhile]
      have hnul : 0 ∉ rest := by
        intro h0
        apply nul_notMem_cstr s
        rw [hsplit]
        simp [h0]
      have hrest_ne : rest ≠ [] := by
        rintro rfl
        simp [hrest, savedTokens, tokens, cstr, List.splitOn] at h
      rw [cstr_of_notMem hnul, hsplit]
      simp [List.getLast?_append, List.getLast?_cons, List.getLast?_eq_some_getLast hrest_ne]

/-- After the last token NULL is saved, if ever, when no separator follows it. -/
theorem strtokR_saved_of_one (nullAtEnd : Bool) (sep : Byte) (s : List Byte)
    (h : (tokens sep s).length = 1) :
    (strtokR nullAtEnd sep (some s)).2 = none ↔
      nullAtEnd = true ∧ (cstr s).getLast? ≠ some sep := by
  cases hd : (cstr s).dropWhile (· == sep) with
  | nil => simp [(tokens_eq_nil_iff sep s).mpr hd] at h
  | cons b t =>
    rw [tokens_of_skipped sep s b t hd] at h
    have hskip : cstr s = (cstr s).takeWhile (· == sep) ++ b :: t := by
      rw [← hd, List.takeWhile_append_dropWhile]
    have hlast : (cstr s).getLast? = (b :: t).getLast? := by
      rw [hskip, List.getLast?_append, List.getLast?_cons]
      rfl
    cases hrest : (b :: t).dropWhile (· != sep) with
    | nil =>
      have hne : (b :: t).getLast? ≠ some sep := by
        intro hl
        have hall := List.dropWhile_eq_nil_iff.mp hrest
        simpa using hall sep (List.mem_of_getLast? hl)
      cases nullAtEnd <;> simp [strtokR, hd, hrest, savedAtEnd, hlast, hne]
    | cons c rest =>
      have hc : c = sep := by
        have := List.head?_dropWhile_not (· != sep) (b :: t)
        simpa [hrest] using this
      have hsub : 0 ∉ rest := by
        intro h0
        apply nul_notMem_cstr s
        rw [hskip, ← List.takeWhile_append_dropWhile (p := (· != sep)) (l := b :: t), hrest]
        simp [h0]
      have hnone : tokens sep rest = [] := by simpa [hrest, savedTokens] using h
      have hall : ∀ x ∈ rest, x = sep := by
        rw [tokens_eq_nil_iff, cstr_of_notMem hsub] at hnone
        simpa using List.dropWhile_eq_nil_iff.mp hnone
      have hl : (b :: t).getLast? = some sep := by
        rw [← List.takeWhile_append_dropWhile (p := (· != sep)) (l := b :: t), hrest,
          List.getLast?_append, List.getLast?_cons, hc]
        cases hr : rest.getLast? with
        | none => simp
        | some x => simp [hall x (List.mem_of_getLast? hr)]
      simp [strtokR, hd, hrest, hlast, hl]

theorem hexDigit_facts : ∀ n : Fin 16, isSpace (hexDigit n) = false ∧ hexDigit n ≠ 45 ∧
    hexDigit n ≠ 43 ∧ digitVal (hexDigit n) = n := by
  decide

/-- A byte that stops the scan hides everything behind it. -/
theorem takeWhile_append_stop {α : Type*} (p : α → Bool) (t rest : List α) (x : α)
    (hx : p x = false) : (t ++ x :: rest).takeWhile p = t.takeWhile p := by
  induction t with
  | nil => simp [hx]
  | cons b t ih => by_cases hb : p b <;> simp [hb, ih]

private theorem readSign_append_nul (t rest : List Byte) :
    readSign (t ++ 0 :: rest) = readSign t := by
  cases t <;> simp [readSign]

private theorem readSign_le (t : List Byte) : (readSign t).2 ≤ t.length := by
  cases t with
  | nil => simp [readSign]
  | cons b t => simp only [readSign]; split_ifs <;> simp

private theorem readPrefix_append_nul (base : ℕ) (t rest : List Byte) :
    readPrefix base (t ++ 0 :: rest) = readPrefix base t := by
  have hnul : isDigit 16 0 = false := by decide
  match t with
  | [] => cases rest with
    | nil => rfl
    | cons c rest => cases rest <;> simp [readPrefix]
  | [z] => cases rest <;> simp [readPrefix]
  | [z, x] => simp [readPrefix, hnul]
  | z :: x :: d :: t => rfl

private theorem readPrefix_le (base : ℕ) (t : List Byte) : readPrefix base t ≤ t.length := by
  match t with
  | [] | [_] | [_, _] => simp [readPrefix]
  | z :: x :: d :: t =>
    simp only [readPrefix]
    split_ifs <;> simp

/-- `strtoul` reads nothing behind the NUL. -/
theorem strtoul_append_nul (base : ℕ) (hbase : base ≤ 36) (t rest : List Byte) :
    strtoul base (t ++ 0 :: rest) = strtoul base t := by
  have hdigit : isDigit base 0 = false := by
    have h0 : digitVal 0 = 36 := by decide
    simp [isDigit, h0, hbase]
  have hspaces : (t.takeWhile isSpace).length ≤ t.length := (List.takeWhile_prefix _).length_le
  have hsign := readSign_le (t.drop (t.takeWhile isSpace).length)
  have hpre := readPrefix_le base ((t.drop (t.takeWhile isSpace).length).drop
    (readSign (t.drop (t.takeWhile isSpace).length)).2)
  simp only [strtoul, takeWhile_append_stop isSpace t rest 0 (by decide),
    List.drop_append_of_le_length hspaces, readSign_append_nul,
    List.drop_append_of_le_length hsign, readPrefix_append_nul,
    List.drop_append_of_le_length hpre, takeWhile_append_stop (isDigit base) _ rest 0 hdigit]

/-- `strtoul` reads nothing behind the end of the string. -/
theorem strtoul_consumed_le (base : ℕ) (s : List Byte) :
    (strtoul base s).consumed ≤ s.length := by
  have hspaces : (s.takeWhile isSpace).length ≤ s.length := (List.takeWhile_prefix _).length_le
  have hsign := readSign_le (s.drop (s.takeWhile isSpace).length)
  have hpre := readPrefix_le base ((s.drop (s.takeWhile isSpace).length).drop
    (readSign (s.drop (s.takeWhile isSpace).length)).2)
  simp only [List.length_drop] at hsign hpre
  simp only [strtoul]
  generalize hds : List.takeWhile (isDigit base) _ = ds
  have hlen : ds.length ≤ _ := hds ▸ (List.takeWhile_prefix _).length_le
  simp only [List.length_drop] at hlen
  split_ifs
  · exact Nat.zero_le _
  all_goals
    simp only
    omega

/-- `strtoul` in base 16 reads back what `%02X` printed. -/
theorem strtoul_hex2 (b : Byte) : strtoul 16 (hex2 b) = ⟨b.toNat, 2, false⟩ := by
  have hb : b.toNat < 256 := b.toNat_lt
  obtain ⟨hs, hm, hp, hv⟩ := hexDigit_facts ⟨b.toNat / 16, by omega⟩
  obtain ⟨-, -, -, hv'⟩ := hexDigit_facts ⟨b.toNat % 16, by omega⟩
  simp only at hs hm hp hv hv'
  have hd : isDigit 16 (hexDigit (b.toNat / 16)) = true := by simp [isDigit, hv]; omega
  have hd' : isDigit 16 (hexDigit (b.toNat % 16)) = true := by simp [isDigit, hv']; omega
  have hval : digitsVal 16 [hexDigit (b.toNat / 16), hexDigit (b.toNat % 16)] = b.toNat := by
    simp only [digitsVal, List.foldl_cons, List.foldl_nil, hv, hv']
    omega
  simp [strtoul, hex2, hs, readSign, hm, hp, readPrefix, hd, hd', hval, ulongMax]
  omega

end Ratfist.CString
