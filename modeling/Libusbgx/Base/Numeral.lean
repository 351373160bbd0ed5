import Libusbgx.Base.CStr
import Mathlib.Tactic.Ring

/-!
# Printing and scanning integers

`strtol` as the C library computes it with 64-bit `long`: blanks, a sign, for base 16 an
optional `0x`, then digits; what is left of the string is returned with the value, and a value
that does not fit is clamped and reported.  The printing side is `%d` and `%x` with a minimal
width.  The last section shows that scanning inverts printing.
-/

namespace Libusbgx

/-- `isspace` in the C locale. -/
def isSpace (c : Char) : Bool :=
  c ∈ [' ', '\t', '\n', '\x0b', '\x0c', '\r']

/-- The value of a digit in the given base. -/
def digitOf (base : ℕ) (c : Char) : Option ℕ :=
  let v :=
    if '0' ≤ c ∧ c ≤ '9' then c.toNat - '0'.toNat
    else if 'a' ≤ c ∧ c ≤ 'z' then c.toNat - 'a'.toNat + 10
    else if 'A' ≤ c ∧ c ≤ 'Z' then c.toNat - 'A'.toNat + 10
    else 36
  if v < base then some v else none

/-- Read digits from the front of a string. -/
def scanDigits (base : ℕ) (acc : ℕ) : CStr → ℕ × CStr
  | [] => (acc, [])
  | c :: s =>
    match digitOf base c with
    | some d => scanDigits base (acc * base + d) s
    | none => (acc, c :: s)

/-- What `strtol` gives back: the value, the string from `endptr` on, and whether it set
`errno` to `ERANGE`. -/
structure Strtol where
  value : ℤ
  rest : CStr
  erange : Bool
deriving DecidableEq, Repr

/-- Bring a value into the range of a `long`. -/
def clampLong (v : ℤ) : ℤ × Bool :=
  if v < -2 ^ 63 then (-2 ^ 63, true)
  else if 2 ^ 63 - 1 < v then (2 ^ 63 - 1, true)
  else (v, false)

/-- The sign in front of a number. -/
def scanSign : CStr → Bool × CStr
  | '-' :: s => (true, s)
  | '+' :: s => (false, s)
  | s => (false, s)

/-- Skip the `0x` in front of a hexadecimal number. -/
def skipHexPrefix (base : ℕ) : CStr → CStr
  | '0' :: x :: d :: s =>
    if base = 16 ∧ (x = 'x' ∨ x = 'X') ∧ (digitOf 16 d).isSome then d :: s else '0' :: x :: d :: s
  | s => s

/-- `strtol(s, &endptr, base)` for base 10 or 16. -/
def strtol (base : ℕ) (s : CStr) : Strtol :=
  let signed := scanSign (s.dropWhile isSpace)
  let digits := skipHexPrefix base signed.2
  match digits.head?.bind (digitOf base) with
  | none => ⟨0, s, false⟩
  | some _ =>
    let scanned := scanDigits base 0 digits
    let v := clampLong (if signed.1 then -(scanned.1 : ℤ) else scanned.1)
    ⟨v.1, scanned.2, v.2⟩

/-- `strtoul(s, &endptr, base)` for base 10 or 16: the value, which is negated modulo `2^64` behind
a minus sign, and the string from `endptr` on. -/
def strtoul (base : ℕ) (s : CStr) : ℕ × CStr :=
  let signed := scanSign (s.dropWhile isSpace)
  let digits := skipHexPrefix base signed.2
  match digits.head?.bind (digitOf base) with
  | none => (0, s)
  | some _ =>
    let scanned := scanDigits base 0 digits
    let v :=
      if 2 ^ 64 ≤ scanned.1 then 2 ^ 64 - 1
      else if signed.1 then (2 ^ 64 - scanned.1) % 2 ^ 64
      else scanned.1
    (v, scanned.2)

/-- The conversion of a `long` to an `int`. -/
def toInt (v : ℤ) : ℤ := Int.bmod v (2 ^ 32)

/-- `%d` -/
def printDec (v : ℤ) : CStr :=
  if v < 0 then '-' :: Nat.toDigits 10 v.natAbs else Nat.toDigits 10 v.natAbs

/-- `%0wx`, an `int` being converted to `unsigned int` -/
def printHex (w : ℕ) (v : ℤ) : CStr :=
  let digits := Nat.toDigits 16 (v % 2 ^ 32).toNat
  List.replicate (w - digits.length) '0' ++ digits

/-! ### Scanning inverts printing -/

lemma digitOf_digitChar {b n : ℕ} (hb : b ≤ 16) (h : n < b) : digitOf b n.digitChar = some n := by
  have hn : n < 16 := by omega
  have key : ∀ m < 16, ∀ b ≤ 16, m < b → digitOf b m.digitChar = some m := by decide
  exact key n hn b hb h

lemma scanDigits_toDigits_append {b : ℕ} (hb : 1 < b) (hb' : b ≤ 16) (n acc : ℕ) (r : CStr) :
    ∃ k, scanDigits b acc (Nat.toDigits b n ++ r) = scanDigits b (acc * b ^ k + n) r := by
  induction n using Nat.strong_induction_on generalizing acc r with
  | _ n ih =>
    by_cases hn : n < b
    · refine ⟨1, ?_⟩
      rw [Nat.toDigits_of_lt_base hn, List.singleton_append, scanDigits, digitOf_digitChar hb' hn]
      simp
    · have hn' : b ≤ n := by omega
      obtain ⟨k, hk⟩ := ih (n / b) (Nat.div_lt_self (by omega) hb) acc ((n % b).digitChar :: r)
      refine ⟨k + 1, ?_⟩
      rw [Nat.toDigits_of_base_le hb hn', List.append_assoc, List.singleton_append, hk, scanDigits,
        digitOf_digitChar hb' (Nat.mod_lt _ (by omega))]
      have hdiv : b * (n / b) + n % b = n := Nat.div_add_mod n b
      have heq : (acc * b ^ k + n / b) * b + n % b = acc * b ^ (k + 1) + n := by
        calc (acc * b ^ k + n / b) * b + n % b
            = acc * (b ^ k * b) + (b * (n / b) + n % b) := by ring
          _ = acc * b ^ (k + 1) + n := by rw [hdiv, pow_succ]
      exact congrArg (scanDigits b · r) heq

/-- A printed number, followed by something that is not a digit, is read back. -/
lemma scanDigits_toDigits {b : ℕ} (hb : 1 < b) (hb' : b ≤ 16) (n : ℕ) {r : CStr}
    (hr : r.head?.bind (digitOf b) = none) :
    scanDigits b 0 (Nat.toDigits b n ++ r) = (n, r) := by
  obtain ⟨k, hk⟩ := scanDigits_toDigits_append hb hb' n 0 r
  rw [hk, zero_mul, zero_add]
  cases r with
  | nil => rfl
  | cons c s =>
    have hc : digitOf b c = none := by simpa using hr
    rw [scanDigits, hc]

lemma digitOf_zero {b : ℕ} (hb : 0 < b) : digitOf b '0' = some 0 := if_pos hb

lemma scanDigits_replicate_zero {b : ℕ} (hb : 0 < b) (k : ℕ) (s : CStr) :
    scanDigits b 0 (List.replicate k '0' ++ s) = scanDigits b 0 s := by
  induction k with
  | zero => rfl
  | succ k ih => rw [List.replicate_succ, List.cons_append, scanDigits, digitOf_zero hb]; simpa using ih

/-! ### Decimal numbers -/

/-- The digits are told apart from blanks, signs and separators. -/
lemma isDigit_facts {c : Char} (h : c.isDigit = true) :
    isSpace c = false ∧ c ≠ '-' ∧ c ≠ '+' ∧ c ≠ '.' ∧ c ≠ '/' ∧ (digitOf 10 c).isSome = true := by
  have key : ∀ m < 58, 48 ≤ m → isSpace (Char.ofNat m) = false ∧ Char.ofNat m ≠ '-' ∧
      Char.ofNat m ≠ '+' ∧ Char.ofNat m ≠ '.' ∧ Char.ofNat m ≠ '/' ∧
      (digitOf 10 (Char.ofNat m)).isSome = true := by decide
  simp only [Char.isDigit, Bool.and_eq_true, decide_eq_true_eq, ge_iff_le, UInt32.le_iff_toNat_le] at h
  have := key c.toNat (Nat.lt_succ_of_le h.2) h.1
  rwa [Char.ofNat_toNat] at this

lemma isDigit_of_mem_printDec {n : ℕ} {c : Char} (h : c ∈ printDec n) : c.isDigit = true := by
  rw [printDec, if_neg (by omega), Int.natAbs_natCast] at h
  exact Nat.isDigit_of_mem_toDigits (by omega) (by omega) h

lemma printDec_natCast (n : ℕ) : printDec n = Nat.toDigits 10 n := by
  rw [printDec, if_neg (by omega), Int.natAbs_natCast]

lemma skipHexPrefix_ten (s : CStr) : skipHexPrefix 10 s = s := by
  rw [skipHexPrefix.eq_def]
  split
  · rw [if_neg (by omega)]
  · rfl

lemma clampLong_of_fits {v : ℤ} (h : -2 ^ 63 ≤ v ∧ v < 2 ^ 63) : clampLong v = (v, false) := by
  rw [clampLong, if_neg (by omega), if_neg (by omega)]

/-- The digits of a number start with a digit. -/
lemma toDigits_head (n : ℕ) :
    ∃ c s, Nat.toDigits 10 n = c :: s ∧ isSpace c = false ∧ c ≠ '-' ∧ c ≠ '+' ∧ (digitOf 10 c).isSome = true := by
  obtain ⟨c, s, hcs⟩ : ∃ c s, Nat.toDigits 10 n = c :: s :=
    List.exists_cons_of_ne_nil Nat.toDigits_ne_nil
  obtain ⟨hspace, hminus, hplus, -, -, hdigit⟩ := isDigit_facts (c := c)
    (Nat.isDigit_of_mem_toDigits (b := 10) (n := n) (by omega) (by omega) (by rw [hcs]; simp))
  exact ⟨c, s, hcs, hspace, hminus, hplus, hdigit⟩

/-- What `strtol` makes of a sign and digits, when what follows them is no digit. -/
lemma strtol_digits {neg : Bool} {n : ℕ} {s r : CStr}
    (hsign : scanSign (s.dropWhile isSpace) = (neg, Nat.toDigits 10 n ++ r))
    (hr : r.head?.bind (digitOf 10) = none) :
    strtol 10 s = ⟨(clampLong (if neg then -(n : ℤ) else n)).1, r, (clampLong (if neg then -(n : ℤ) else n)).2⟩ := by
  obtain ⟨c, t, hct, -, -, -, hdigit⟩ := toDigits_head n
  obtain ⟨d, hd⟩ := Option.isSome_iff_exists.mp hdigit
  have hscan := scanDigits_toDigits (b := 10) (by omega) (by omega) n hr
  have hhead : (Nat.toDigits 10 n ++ r).head?.bind (digitOf 10) = some d := by
    rw [hct, List.cons_append, List.head?_cons, Option.bind_some, hd]
  rw [strtol, hsign]
  dsimp only
  rw [skipHexPrefix_ten, hhead]
  dsimp only
  rw [hscan]

/-- A decimal number that fits in a `long` is read back, whatever stands behind it. -/
lemma strtol_printDec_append {v : ℤ} (hv : -2 ^ 63 ≤ v ∧ v < 2 ^ 63) {r : CStr}
    (hr : r.head?.bind (digitOf 10) = none) : strtol 10 (printDec v ++ r) = ⟨v, r, false⟩ := by
  have hclamp := clampLong_of_fits hv
  by_cases hneg : v < 0
  · have habs : -(v.natAbs : ℤ) = v := by omega
    have hsign : scanSign ((printDec v ++ r).dropWhile isSpace) = (true, Nat.toDigits 10 v.natAbs ++ r) := by
      rw [printDec, if_pos hneg, List.cons_append, List.dropWhile_cons_of_neg (by decide), scanSign]
    rw [strtol_digits hsign hr, if_pos rfl, habs, hclamp]
  · have habs : (v.natAbs : ℤ) = v := by omega
    obtain ⟨c, t, hct, hspace, hminus, hplus, -⟩ := toDigits_head v.natAbs
    have hsign : scanSign ((printDec v ++ r).dropWhile isSpace) = (false, Nat.toDigits 10 v.natAbs ++ r) := by
      rw [printDec, if_neg hneg, hct, List.cons_append, List.dropWhile_cons_of_neg (by simp [hspace]),
        scanSign.eq_def]
      split
      · next heq => exact absurd (List.cons.inj heq).1 hminus
      · next heq => exact absurd (List.cons.inj heq).1 hplus
      · rfl
    rw [strtol_digits hsign hr, if_neg (by simp), habs, hclamp]

/-- A decimal number that fits in a `long` is read back. -/
lemma strtol_printDec {n : ℕ} (h : n < 2 ^ 63) : strtol 10 (printDec n) = ⟨n, [], false⟩ := by
  have hread := strtol_printDec_append (v := n) (by omega) (r := []) rfl
  rwa [List.append_nil] at hread

/-- Different numbers are printed differently. -/
lemma printDec_inj {v v' : ℤ} (hv : -2 ^ 63 ≤ v ∧ v < 2 ^ 63) (hv' : -2 ^ 63 ≤ v' ∧ v' < 2 ^ 63)
    (h : printDec v = printDec v') : v = v' := by
  have hread := strtol_printDec_append hv (r := []) rfl
  have hread' := strtol_printDec_append hv' (r := []) rfl
  rw [h, hread'] at hread
  exact (congrArg Strtol.value hread).symm

lemma toInt_of_fits {v : ℤ} (h : -2 ^ 31 ≤ v ∧ v < 2 ^ 31) : toInt v = v := by
  rw [toInt, Int.bmod_def]
  omega

lemma toInt_fits (v : ℤ) : -2 ^ 31 ≤ toInt v ∧ toInt v < 2 ^ 31 := by
  rw [toInt, Int.bmod_def]
  omega

lemma scanDigits_printHex (w : ℕ) (v : ℤ) {r : CStr} (hr : r.head?.bind (digitOf 16) = none) :
    scanDigits 16 0 (printHex w v ++ r) = ((v % 2 ^ 32).toNat, r) := by
  rw [printHex, List.append_assoc, scanDigits_replicate_zero (by omega)]
  exact scanDigits_toDigits (by omega) (by omega) _ hr

/-- What is scanned to its end has digits only. -/
lemma digitOf_of_scanDigits {b acc n : ℕ} {s : CStr} (h : scanDigits b acc s = (n, [])) :
    ∀ c ∈ s, (digitOf b c).isSome = true := by
  induction s generalizing acc with
  | nil => exact fun c hc => absurd hc List.not_mem_nil
  | cons c s ih =>
    rw [scanDigits] at h
    cases hd : digitOf b c with
    | none =>
      rw [hd] at h
      exact absurd (Prod.mk.inj h).2 (List.cons_ne_nil c s)
    | some d =>
      rw [hd] at h
      intro x hx
      rcases List.mem_cons.mp hx with rfl | hx
      · rw [hd]
        rfl
      · exact ih h x hx

/-- A printed hexadecimal number is short and has no NUL in it. -/
lemma printHex_facts {w : ℕ} (hw : w ≤ 8) (v : ℤ) :
    (printHex w v).length ≤ 8 ∧ ∀ c ∈ printHex w v, c ≠ '\x00' := by
  constructor
  · have hdigits : (Nat.toDigits 16 (v % 2 ^ 32).toNat).length ≤ 8 :=
      (Nat.length_toDigits_le_iff (by omega) (by omega)).mpr (by omega)
    rw [printHex, List.length_append, List.length_replicate]
    omega
  · have hscan := scanDigits_printHex w v (r := []) rfl
    rw [List.append_nil] at hscan
    rintro c hc rfl
    exact absurd (digitOf_of_scanDigits hscan _ hc) (by decide)

/-- The digits of a hexadecimal number start with a digit. -/
lemma printHex_head (w : ℕ) (v : ℤ) :
    ∃ c s d, printHex w v = c :: s ∧ digitOf 16 c = some d := by
  have hne : printHex w v ≠ [] := by
    rw [printHex]
    exact List.append_ne_nil_of_right_ne_nil _ Nat.toDigits_ne_nil
  obtain ⟨c, s, hcs⟩ := List.exists_cons_of_ne_nil hne
  have hscan := scanDigits_printHex w v (r := []) rfl
  rw [List.append_nil, hcs] at hscan
  cases hc : digitOf 16 c with
  | some d => exact ⟨c, s, d, hcs, hc⟩
  | none =>
    rw [scanDigits, hc] at hscan
    exact absurd (Prod.mk.inj hscan).2 (List.cons_ne_nil c s)

/-- What stands behind `0x` is taken for a number. -/
lemma skipHexPrefix_printHex (w : ℕ) (v : ℤ) (r : CStr) :
    skipHexPrefix 16 ('0' :: 'x' :: (printHex w v ++ r)) = printHex w v ++ r ∧
      ∃ d, (printHex w v ++ r).head?.bind (digitOf 16) = some d := by
  obtain ⟨c, s, d, hcs, hd⟩ := printHex_head w v
  rw [hcs, List.cons_append]
  exact ⟨by rw [skipHexPrefix, if_pos ⟨rfl, .inl rfl, by rw [hd]; rfl⟩], d, hd⟩

/-- A hexadecimal number with its prefix is read back. -/
lemma strtoul_printHex {n : ℕ} (h : n < 2 ^ 32) :
    strtoul 16 ('0' :: 'x' :: printHex 0 n) = (n, []) := by
  have hn : ((n : ℤ) % 2 ^ 32).toNat = n := by omega
  have hscan := scanDigits_printHex 0 n (r := []) rfl
  obtain ⟨hskip, d, hd⟩ := skipHexPrefix_printHex 0 n []
  rw [List.append_nil] at hscan hskip hd
  have hdrop : ('0' :: 'x' :: printHex 0 n).dropWhile isSpace = '0' :: 'x' :: printHex 0 n :=
    List.dropWhile_cons_of_neg (by decide)
  have hsign : scanSign ('0' :: 'x' :: printHex 0 n) = (false, '0' :: 'x' :: printHex 0 n) := rfl
  rw [strtoul, hdrop, hsign]
  dsimp only
  rw [hskip, hd]
  dsimp only
  rw [hscan, hn, if_neg (by simp only; omega)]
  rfl

/-- An `int` that was printed as a hexadecimal number is read back, whatever stands behind it. -/
lemma strtol_printHex_append {w : ℕ} {v : ℤ} (hv : -2 ^ 31 ≤ v ∧ v < 2 ^ 31) {r : CStr}
    (hr : r.head?.bind (digitOf 16) = none) :
    toInt (strtol 16 ('0' :: 'x' :: (printHex w v ++ r))).value = v := by
  obtain ⟨hskip, d, hd⟩ := skipHexPrefix_printHex w v r
  have hdrop : ('0' :: 'x' :: (printHex w v ++ r)).dropWhile isSpace = '0' :: 'x' :: (printHex w v ++ r) :=
    List.dropWhile_cons_of_neg (by decide)
  have hsign : scanSign ('0' :: 'x' :: (printHex w v ++ r)) = (false, '0' :: 'x' :: (printHex w v ++ r)) := rfl
  rw [strtol, hdrop, hsign]
  dsimp only
  rw [hskip, hd]
  dsimp only
  rw [scanDigits_printHex w v hr, if_neg (by simp), clampLong_of_fits (by dsimp only; omega)]
  dsimp only
  rw [toInt, Int.bmod_def]
  omega

/-! ### What `strtol` reads to the end -/

/-- Digits, at least one of them. -/
structure IsDigits (base : ℕ) (ds : CStr) : Prop where
  ne_nil : ds ≠ []
  digits : ∀ c ∈ ds, (digitOf base c).isSome = true

/-- The number that digits stand for. -/
def numberValue (base : ℕ) (ds : CStr) : ℕ :=
  ds.foldl (fun acc c => acc * base + (digitOf base c).getD 0) 0

/-- The text is a sign, which may be left out, and digits, and `v` is the number they stand for. -/
def Spells (base : ℕ) (s : CStr) (v : ℤ) : Prop :=
  ∃ ds, IsDigits base ds ∧
    ((s = ds ∨ s = '+' :: ds) ∧ v = numberValue base ds ∨ s = '-' :: ds ∧ v = -numberValue base ds)

lemma scanDigits_of_digits {b : ℕ} (acc : ℕ) {s : CStr} (h : ∀ c ∈ s, (digitOf b c).isSome = true) :
    scanDigits b acc s = (s.foldl (fun acc c => acc * b + (digitOf b c).getD 0) acc, []) := by
  induction s generalizing acc with
  | nil => rfl
  | cons c s ih =>
    obtain ⟨d, hd⟩ := Option.isSome_iff_exists.mp (h c (List.mem_cons_self ..))
    rw [scanDigits, hd, List.foldl_cons, hd]
    exact ih _ fun c' hc' => h c' (List.mem_cons_of_mem _ hc')

/-- Nothing is left only of digits. -/
lemma digits_of_scanDigits {b acc : ℕ} {s : CStr} (h : (scanDigits b acc s).2 = []) :
    ∀ c ∈ s, (digitOf b c).isSome = true := by
  induction s generalizing acc with
  | nil => simp
  | cons c s ih =>
    rw [scanDigits] at h
    cases hd : digitOf b c with
    | none =>
      rw [hd] at h
      cases h
    | some d =>
      rw [hd] at h
      intro c' hc'
      rcases List.mem_cons.mp hc' with rfl | hc'
      · rw [hd]
        rfl
      · exact ih h c' hc'

lemma isDigit_of_digitOf {c : Char} (h : (digitOf 10 c).isSome = true) : c.isDigit = true := by
  by_cases h0 : '0' ≤ c ∧ c ≤ '9'
  · simp only [Char.isDigit, Bool.and_eq_true, decide_eq_true_eq]
    exact h0
  · -- a letter stands for 10 or more
    rw [digitOf, if_neg h0] at h
    split_ifs at h <;> first | omega | cases h

/-- The text splits into a sign and the rest. -/
lemma scanSign_cases (s : CStr) :
    (∃ ds, s = '-' :: ds ∧ scanSign s = (true, ds)) ∨
    (∃ ds, s = '+' :: ds ∧ scanSign s = (false, ds)) ∨ scanSign s = (false, s) := by
  rw [scanSign.eq_def]
  split
  · exact .inl ⟨_, rfl, rfl⟩
  · exact .inr (.inl ⟨_, rfl, rfl⟩)
  · exact .inr (.inr rfl)

lemma clampLong_eq (v : ℤ) : (clampLong v).2 = false ↔ -2 ^ 63 ≤ v ∧ v < 2 ^ 63 := by
  rw [clampLong]
  split_ifs with h₁ h₂
  · simp
    omega
  · simp
    omega
  · simp
    omega

/-- What is behind the sign of a text that spells a number. -/
lemma spells_iff {b : ℕ} {s ds : CStr} {neg : Bool} {v : ℤ} (hsign : scanSign s = (neg, ds))
    (hplus : (digitOf b '+').isSome = false) (hminus : (digitOf b '-').isSome = false) :
    Spells b s v ↔
      IsDigits b ds ∧ v = (if neg then -(numberValue b ds : ℤ) else (numberValue b ds : ℤ)) := by
  have hhead : ∀ {c : Char} {r : CStr}, (digitOf b c).isSome = false → ¬ IsDigits b (c :: r) := by
    intro c r hc h
    rw [h.digits c (List.mem_cons_self ..)] at hc
    cases hc
  -- a minus, a plus, or no sign
  rcases scanSign_cases s with ⟨r, rfl, hr⟩ | ⟨r, rfl, hr⟩ | hr <;> rw [hsign] at hr <;>
    obtain ⟨rfl, rfl⟩ := Prod.mk.inj hr
  · rw [if_pos rfl]
    constructor
    · rintro ⟨ds', h, ⟨rfl | h', rfl⟩ | ⟨h', rfl⟩⟩
      · exact absurd h (hhead hminus)
      · cases h'
      · obtain ⟨-, rfl⟩ := List.cons.inj h'
        exact ⟨h, rfl⟩
    · rintro ⟨h, rfl⟩
      exact ⟨ds, h, .inr ⟨rfl, rfl⟩⟩
  · rw [if_neg (by simp)]
    constructor
    · rintro ⟨ds', h, ⟨rfl | h', rfl⟩ | ⟨h', rfl⟩⟩
      · exact absurd h (hhead hplus)
      · obtain ⟨-, rfl⟩ := List.cons.inj h'
        exact ⟨h, rfl⟩
      · cases h'
    · rintro ⟨h, rfl⟩
      exact ⟨ds, h, .inl ⟨.inr rfl, rfl⟩⟩
  · rw [if_neg (by simp)]
    constructor
    · rintro ⟨ds', h, ⟨rfl | rfl, rfl⟩ | ⟨rfl, rfl⟩⟩
      · exact ⟨h, rfl⟩
      · exact absurd (congrArg (fun p => p.2.length) hsign) (by simp [scanSign])
      · exact absurd (congrArg Prod.fst hsign) (by simp [scanSign])
    · rintro ⟨h, rfl⟩
      exact ⟨_, h, .inl ⟨.inl rfl, rfl⟩⟩

/-- `strtol` reads to the end, without an error, the texts that spell a `long`. -/
lemma strtol_ten_iff {s : CStr} {v : ℤ} (hspace : s.head?.any isSpace = false) :
    s ≠ [] ∧ (strtol 10 s).rest = [] ∧ (strtol 10 s).erange = false ∧ (strtol 10 s).value = v ↔
      Spells 10 s v ∧ -2 ^ 63 ≤ v ∧ v < 2 ^ 63 := by
  have hdrop : s.dropWhile isSpace = s := by
    cases s with
    | nil => rfl
    | cons c s => exact List.dropWhile_cons_of_neg (by simpa using hspace)
  obtain ⟨⟨neg, ds⟩, hsign⟩ : ∃ p, scanSign s = p := ⟨_, rfl⟩
  rw [spells_iff hsign (by decide) (by decide), strtol, hdrop, hsign]
  dsimp only
  rw [skipHexPrefix_ten]
  -- without a digit `strtol` stops at the start of the string
  cases hd : ds.head?.bind (digitOf 10) with
  | none =>
    dsimp only
    refine iff_of_false (fun h => h.1 h.2.1) ?_
    rintro ⟨⟨h, -⟩, -⟩
    cases ds with
    | nil => exact h.ne_nil rfl
    | cons c ds =>
      have := h.digits c (List.mem_cons_self ..)
      rw [show digitOf 10 c = none from hd] at this
      cases this
  | some d =>
    dsimp only
    have hne : ds ≠ [] := by
      rintro rfl
      cases hd
    have hs : s ≠ [] := by
      rintro rfl
      cases hsign
      exact hne rfl
    constructor
    · rintro ⟨-, hrest, hfits, rfl⟩
      have hdigits := digits_of_scanDigits hrest
      rw [scanDigits_of_digits 0 hdigits] at hfits ⊢
      have hrange := (clampLong_eq _).mp hfits
      rw [clampLong_of_fits hrange]
      exact ⟨⟨⟨hne, hdigits⟩, rfl⟩, hrange⟩
    · rintro ⟨⟨hdigits, rfl⟩, hrange⟩
      rw [scanDigits_of_digits 0 hdigits.digits]
      have hclamp := clampLong_of_fits hrange
      exact ⟨hs, rfl, congrArg Prod.snd hclamp, congrArg Prod.fst hclamp⟩

/-- A text spells one number. -/
lemma Spells.unique {b : ℕ} {s : CStr} {v v' : ℤ} (h : Spells b s v) (h' : Spells b s v')
    (hplus : (digitOf b '+').isSome = false) (hminus : (digitOf b '-').isSome = false) : v = v' := by
  obtain ⟨⟨neg, ds⟩, hsign⟩ : ∃ p, scanSign s = p := ⟨_, rfl⟩
  rw [((spells_iff hsign hplus hminus).mp h).2, ((spells_iff hsign hplus hminus).mp h').2]

/-- A text that spells a number does not start with a blank. -/
lemma Spells.no_blank {s : CStr} {v : ℤ} (h : Spells 10 s v) : s.head?.any isSpace = false := by
  obtain ⟨ds, hds, hs⟩ := h
  have hhead : ds.head?.any isSpace = false := by
    obtain ⟨c, ds, rfl⟩ := List.exists_cons_of_ne_nil hds.ne_nil
    have hc := isDigit_of_digitOf (hds.digits c (List.mem_cons_self ..))
    simpa using (isDigit_facts hc).1
  rcases hs with ⟨rfl | rfl, -⟩ | ⟨rfl, -⟩
  · exact hhead
  · rfl
  · rfl

lemma Spells.ne_nil {b : ℕ} {s : CStr} {v : ℤ} (h : Spells b s v) : s ≠ [] := by
  obtain ⟨ds, hds, ⟨rfl | rfl, -⟩ | ⟨rfl, -⟩⟩ := h
  · exact hds.ne_nil
  · exact List.cons_ne_nil _ _
  · exact List.cons_ne_nil _ _

/-- `strtol` reads the whole of a text that spells a number. -/
lemma Spells.strtol_eq {s : CStr} {v : ℤ} (h : Spells 10 s v) :
    strtol 10 s = ⟨(clampLong v).1, [], (clampLong v).2⟩ := by
  have hdrop : s.dropWhile isSpace = s := by
    cases s with
    | nil => rfl
    | cons c s => exact List.dropWhile_cons_of_neg (by simpa using h.no_blank)
  obtain ⟨⟨neg, ds⟩, hsign⟩ : ∃ p, scanSign s = p := ⟨_, rfl⟩
  obtain ⟨hds, rfl⟩ := (spells_iff hsign (by decide) (by decide)).mp h
  obtain ⟨d, hd⟩ : ∃ d, ds.head?.bind (digitOf 10) = some d := by
    obtain ⟨c, ds, rfl⟩ := List.exists_cons_of_ne_nil hds.ne_nil
    exact Option.isSome_iff_exists.mp (hds.digits c (List.mem_cons_self ..))
  rw [strtol, hdrop, hsign]
  dsimp only
  rw [skipHexPrefix_ten, hd, scanDigits_of_digits 0 hds.digits]
  rfl

/-- The printed form of a number spells it. -/
lemma spells_printDec {n : ℕ} (h : n < 2 ^ 63) : Spells 10 (printDec n) n := by
  obtain ⟨c, s, hcs⟩ : ∃ c s, printDec n = c :: s :=
    List.exists_cons_of_ne_nil (by rw [printDec_natCast]; exact Nat.toDigits_ne_nil)
  have hspace : isSpace c = false :=
    (isDigit_facts (isDigit_of_mem_printDec (n := n) (by rw [hcs]; simp))).1
  refine ((strtol_ten_iff (by simp [hcs, hspace])).mp ⟨by simp [hcs], ?_⟩).1
  rw [strtol_printDec h]
  exact ⟨rfl, rfl, rfl⟩

/-! ### Numerals at the front of a text -/

/-- What may stand between the sign and the digits. -/
def IsBasePrefix (base : ℕ) (pre : CStr) : Prop :=
  pre = [] ∨ base = 16 ∧ (pre = ['0', 'x'] ∨ pre = ['0', 'X'])

/-- A numeral of the base: a sign, which may be left out, for base 16 an optional `0x`, and digits. -/
def IsNumeral (base : ℕ) (s : CStr) (v : ℤ) : Prop :=
  ∃ pre ds, IsBasePrefix base pre ∧ IsDigits base ds ∧
    ((s = pre ++ ds ∨ s = '+' :: (pre ++ ds)) ∧ v = numberValue base ds ∨
      s = '-' :: (pre ++ ds) ∧ v = -numberValue base ds)

lemma digitOf_signs {b : ℕ} (hb : b ≤ 16) :
    digitOf b '-' = none ∧ digitOf b '+' = none ∧ digitOf b 'x' = none ∧ digitOf b 'X' = none := by
  have key : ∀ b ≤ 16, digitOf b '-' = none ∧ digitOf b '+' = none ∧ digitOf b 'x' = none ∧
      digitOf b 'X' = none := by decide
  exact key b hb

/-- A blank is no digit. -/
lemma digitOf_of_isSpace {b : ℕ} (hb : b ≤ 16) {c : Char} (h : isSpace c = true) : digitOf b c = none := by
  have hc : c = ' ' ∨ c = '\t' ∨ c = '\n' ∨ c = '\x0b' ∨ c = '\x0c' ∨ c = '\r' := by simpa [isSpace] using h
  have hb36 : b ≤ 36 := by omega
  rcases hc with rfl | rfl | rfl | rfl | rfl | rfl <;> simp [digitOf, hb36]

lemma isSpace_of_digit {b : ℕ} (hb : b ≤ 16) {c : Char} (h : (digitOf b c).isSome = true) : isSpace c = false := by
  by_contra hspace
  rw [digitOf_of_isSpace hb (by simpa using hspace)] at h
  cases h

/-- The digits of a text stop where no digit follows. -/
lemma scanDigits_append {b acc : ℕ} {ds r : CStr} (h : ∀ c ∈ ds, (digitOf b c).isSome = true)
    (hr : r.head?.bind (digitOf b) = none) :
    scanDigits b acc (ds ++ r) = (ds.foldl (fun acc c => acc * b + (digitOf b c).getD 0) acc, r) := by
  induction ds generalizing acc with
  | nil =>
    cases r with
    | nil => rfl
    | cons c r =>
      have hc : digitOf b c = none := by simpa using hr
      rw [List.nil_append, scanDigits, hc]
      rfl
  | cons c ds ih =>
    obtain ⟨d, hd⟩ := Option.isSome_iff_exists.mp (h c (List.mem_cons_self ..))
    rw [List.cons_append, scanDigits, hd, List.foldl_cons, hd]
    exact ih fun c' hc' => h c' (List.mem_cons_of_mem _ hc')

/-- The prefix is skipped, and nothing that only looks like it. -/
lemma skipHexPrefix_append {b : ℕ} {pre ds r : CStr} (hb : b ≤ 16) (hpre : IsBasePrefix b pre)
    (hds : IsDigits b ds) (hr : r.head? ≠ some 'x' ∧ r.head? ≠ some 'X') :
    skipHexPrefix b (pre ++ (ds ++ r)) = ds ++ r := by
  obtain ⟨c, ds, rfl⟩ := List.exists_cons_of_ne_nil hds.ne_nil
  have hc := hds.digits c (List.mem_cons_self ..)
  rcases hpre with rfl | ⟨rfl, rfl | rfl⟩
  · rw [List.nil_append, List.cons_append, skipHexPrefix.eq_def]
    split
    · next x d s heq =>
      -- what follows the first digit is a digit, or stands behind the number
      obtain ⟨rfl, htail⟩ := List.cons.inj heq
      have hx : ¬ (x = 'x' ∨ x = 'X') := by
        cases ds with
        | nil =>
          rw [List.nil_append] at htail
          rintro (rfl | rfl)
          · exact hr.1 (by rw [htail]; rfl)
          · exact hr.2 (by rw [htail]; rfl)
        | cons x' ds =>
          obtain ⟨rfl, -⟩ := List.cons.inj htail
          have hx := hds.digits x' (by simp)
          rintro (rfl | rfl)
          · rw [(digitOf_signs hb).2.2.1] at hx
            cases hx
          · rw [(digitOf_signs hb).2.2.2] at hx
            cases hx
      rw [if_neg (fun h => hx h.2.1), ← htail]
    · rfl
  · rw [List.cons_append]
    exact if_pos ⟨rfl, .inl rfl, hc⟩
  · rw [List.cons_append]
    exact if_pos ⟨rfl, .inr rfl, hc⟩

/-- What is read of a text behind its sign. -/
lemma strtol_of_sign {b : ℕ} (neg : Bool) {s pre ds r : CStr} (hb : b ≤ 16)
    (hsign : scanSign (s.dropWhile isSpace) = (neg, pre ++ (ds ++ r))) (hpre : IsBasePrefix b pre)
    (hds : IsDigits b ds) (hr : r.head?.bind (digitOf b) = none)
    (hx : r.head? ≠ some 'x' ∧ r.head? ≠ some 'X') :
    (strtol b s).value = (clampLong (if neg then -(numberValue b ds : ℤ) else numberValue b ds)).1 := by
  have hhead : ∃ d, (ds ++ r).head?.bind (digitOf b) = some d := by
    obtain ⟨c, ds, rfl⟩ := List.exists_cons_of_ne_nil hds.ne_nil
    exact Option.isSome_iff_exists.mp (hds.digits c (List.mem_cons_self ..))
  obtain ⟨d, hd⟩ := hhead
  rw [strtol, hsign]
  dsimp only
  rw [skipHexPrefix_append hb hpre hds hx, hd]
  dsimp only
  rw [scanDigits_append hds.digits hr]
  rfl

/-- Blanks, and the sign behind them, are taken off a text. -/
lemma scanSign_dropWhile {blanks s : CStr} (hblanks : ∀ c ∈ blanks, isSpace c = true) {c : Char} {t : CStr}
    (hs : s = c :: t) (hc : isSpace c = false) : scanSign ((blanks ++ s).dropWhile isSpace) = scanSign s := by
  rw [List.dropWhile_append_of_pos hblanks, hs, List.dropWhile_cons_of_neg (by simp [hc])]

/-- A numeral behind blanks is read, up to what is no digit. -/
lemma strtol_numeral {b : ℕ} {blanks s r : CStr} {v : ℤ} (hb : b ≤ 16) (hblanks : ∀ c ∈ blanks, isSpace c = true)
    (h : IsNumeral b s v) (hr : r.head?.bind (digitOf b) = none)
    (hx : r.head? ≠ some 'x' ∧ r.head? ≠ some 'X') : (strtol b (blanks ++ (s ++ r))).value = (clampLong v).1 := by
  obtain ⟨pre, ds, hpre, hds, hcases⟩ := h
  rcases hcases with ⟨rfl | rfl, rfl⟩ | ⟨rfl, rfl⟩
  · obtain ⟨c, t, hct⟩ : ∃ c t, pre ++ ds = c :: t :=
      List.exists_cons_of_ne_nil fun h => hds.ne_nil (List.append_eq_nil_iff.mp h).2
    have hc : isSpace c = false ∧ c ≠ '-' ∧ c ≠ '+' := by
      rcases hpre with rfl | ⟨-, rfl | rfl⟩
      · have hdigit := hds.digits c (by rw [List.nil_append] at hct; rw [hct]; exact List.mem_cons_self ..)
        refine ⟨isSpace_of_digit hb hdigit, ?_, ?_⟩
        · rintro rfl
          rw [(digitOf_signs hb).1] at hdigit
          cases hdigit
        · rintro rfl
          rw [(digitOf_signs hb).2.1] at hdigit
          cases hdigit
      · obtain ⟨rfl, -⟩ := List.cons.inj hct
        decide
      · obtain ⟨rfl, -⟩ := List.cons.inj hct
        decide
    have hsign : scanSign (c :: t ++ r) = (false, c :: t ++ r) := by
      rw [List.cons_append, scanSign.eq_def]
      split
      · next heq => exact absurd (List.cons.inj heq).1 hc.2.1
      · next heq => exact absurd (List.cons.inj heq).1 hc.2.2
      · rfl
    refine strtol_of_sign false hb ?_ hpre hds hr hx
    rw [scanSign_dropWhile hblanks (c := c) (t := t ++ r) (by rw [hct]; rfl) hc.1, hct, hsign, ← hct,
      List.append_assoc]
  · refine strtol_of_sign false hb ?_ hpre hds hr hx
    rw [List.cons_append, scanSign_dropWhile hblanks rfl (by decide), scanSign, List.append_assoc]
  · refine strtol_of_sign true hb ?_ hpre hds hr hx
    rw [List.cons_append, scanSign_dropWhile hblanks rfl (by decide), scanSign, List.append_assoc]

lemma numberValue_concat (b : ℕ) (ds : CStr) (c : Char) :
    numberValue b (ds ++ [c]) = numberValue b ds * b + (digitOf b c).getD 0 := by
  rw [numberValue, List.foldl_append]
  rfl

/-- One more digit. -/
lemma IsNumeral.concat {b : ℕ} {s : CStr} {v : ℤ} (h : IsNumeral b s v) {c : Char} {d : ℕ} (hc : digitOf b c = some d) :
    IsNumeral b (s ++ [c]) (v * b + d) ∨ IsNumeral b (s ++ [c]) (v * b - d) := by
  obtain ⟨pre, ds, hpre, hds, hcases⟩ := h
  have hds' : IsDigits b (ds ++ [c]) := by
    refine ⟨by simp, fun c' hc' => ?_⟩
    rcases List.mem_append.mp hc' with hc' | hc'
    · exact hds.digits c' hc'
    · rw [List.mem_singleton.mp hc', hc]
      rfl
  have hvalue := numberValue_concat b ds c
  rw [hc, Option.getD_some] at hvalue
  rcases hcases with ⟨hs, rfl⟩ | ⟨rfl, rfl⟩
  · refine .inl ⟨pre, ds ++ [c], hpre, hds', .inl ⟨?_, by rw [hvalue]; push_cast; ring⟩⟩
    rcases hs with rfl | rfl
    · exact .inl (List.append_assoc ..)
    · exact .inr (by rw [List.cons_append, List.append_assoc])
  · refine .inr ⟨pre, ds ++ [c], hpre, hds', .inr ⟨?_, by rw [hvalue]; push_cast; ring⟩⟩
    rw [List.cons_append, List.append_assoc]

end Libusbgx
