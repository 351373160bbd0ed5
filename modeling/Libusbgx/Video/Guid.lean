import Libusbgx.Attributes.Integer
import Libusbgx.Video.Export

/-!
# GUIDs

A GUID is written as a text, which `sscanf` reads, and read as the sixteen bytes of the file.  The
conversion `%02hhx` reads more than pairs of digits, and the bytes of the file are no text.
-/

namespace Libusbgx

open Prog Machine

/-! ## Texts -/

/-- Pairs of hexadecimal digits, and the bytes they stand for. -/
inductive HexPairs : CStr → CStr → Prop
  | nil : HexPairs [] []
  | cons {c d : Char} {x y : ℕ} {s bs : CStr} (hc : hexDigit c = some x) (hd : hexDigit d = some y)
      (hs : HexPairs s bs) : HexPairs (c :: d :: s) (Char.ofNat (x * 16 + y) :: bs)

/-- The text of a GUID: eight, four, four, four and twelve digits between dashes. -/
def IsGuid (s bin : CStr) : Prop :=
  ∃ g₁ g₂ g₃ g₄ g₅, [g₁, g₂, g₃, g₄, g₅].map List.length = [8, 4, 4, 4, 12] ∧
    s = g₁ ++ '-' :: (g₂ ++ '-' :: (g₃ ++ '-' :: (g₄ ++ '-' :: g₅))) ∧ HexPairs (g₁ ++ g₂ ++ g₃ ++ g₄ ++ g₅) bin

/-- The characters with which `sscanf` can read one byte from the front of a text: two digits, or one where
no second follows, a `0x`, or a sign and a digit; each behind any number of blanks. -/
inductive LooseByte : CStr → Char → CStr → Prop
  | blank {c b : Char} {s t : CStr} (hc : isSpace c = true) (hs : LooseByte s b t) : LooseByte (c :: s) b t
  | pair {c d : Char} {x y : ℕ} {t : CStr} (hc : hexDigit c = some x) (hd : hexDigit d = some y) :
      LooseByte (c :: d :: t) (Char.ofNat (x * 16 + y)) t
  | single {c : Char} {x : ℕ} {t : CStr} (hc : hexDigit c = some x)
      (ht : ∀ d, t.head? = some d → hexDigit d = none ∧ ¬ (c = '0' ∧ (d = 'x' ∨ d = 'X'))) :
      LooseByte (c :: t) (Char.ofNat x) t
  | mark {d : Char} {t : CStr} (hd : d = 'x' ∨ d = 'X') : LooseByte ('0' :: d :: t) '\x00' t
  | plus {c : Char} {x : ℕ} {t : CStr} (hc : hexDigit c = some x) : LooseByte ('+' :: c :: t) (Char.ofNat x) t
  | minus {c : Char} {x : ℕ} {t : CStr} (hc : hexDigit c = some x) :
      LooseByte ('-' :: c :: t) (Char.ofNat ((256 - x) % 256)) t

/-- Several bytes, one after the other. -/
inductive LooseBytes : ℕ → CStr → CStr → CStr → Prop
  | done {s : CStr} : LooseBytes 0 s [] s
  | next {n : ℕ} {s t u bs : CStr} {b : Char} (hs : LooseByte s b t) (ht : LooseBytes n t bs u) :
      LooseBytes (n + 1) s (b :: bs) u

/-- Texts of the length of a GUID in which `sscanf` finds its bytes; the end of the text does not matter. -/
def IsLooseGuid (s bin : CStr) : Prop :=
  s.length = 36 ∧ ∃ t₁ t₂ t₃ t₄ t₅ b₁ b₂ b₃ b₄ b₅, LooseBytes 4 s b₁ ('-' :: t₁) ∧ LooseBytes 2 t₁ b₂ ('-' :: t₂) ∧
    LooseBytes 2 t₂ b₃ ('-' :: t₃) ∧ LooseBytes 2 t₃ b₄ ('-' :: t₄) ∧ LooseBytes 6 t₄ b₅ t₅ ∧
    bin = b₁ ++ b₂ ++ b₃ ++ b₄ ++ b₅

/-! ## One byte -/

lemma hexDigit_facts {c : Char} {x : ℕ} (h : hexDigit c = some x) :
    x < 16 ∧ isSpace c = false ∧ c ≠ '-' ∧ c ≠ '+' := by
  obtain ⟨hminus, hplus, -, -⟩ := digitOf_signs (b := 16) (by omega)
  refine ⟨?_, isSpace_of_digit (b := 16) (by omega) (by rw [← hexDigit, h]; rfl), ?_, ?_⟩
  · rw [hexDigit, digitOf, Option.ite_none_right_eq_some] at h
    rw [← Option.some.inj h.2]
    exact h.1
  · rintro rfl
    cases hminus.symm.trans h
  · rintro rfl
    cases hplus.symm.trans h

lemma scanHexByte_blank {c : Char} (h : isSpace c = true) (s : CStr) : scanHexByte (c :: s) = scanHexByte s := by
  rw [scanHexByte, List.dropWhile_cons_of_pos h]
  rfl

section

variable {c d : Char} {x y : ℕ} {t : CStr}

lemma hexDigit_zero : hexDigit '0' = some 0 := by decide

/-- Blanks and a sign are told apart from what is read as a digit. -/
lemma dropWhile_digit (hspace : isSpace c = false) : (c :: t).dropWhile isSpace = c :: t :=
  List.dropWhile_cons_of_neg (by simp [hspace])

lemma scanHexByte_pair (hc : hexDigit c = some x) (hd : hexDigit d = some y) :
    scanHexByte (c :: d :: t) = some (Char.ofNat (x * 16 + y), t) := by
  obtain ⟨hx, hspace, hminus, hplus⟩ := hexDigit_facts hc
  obtain ⟨hy, -, -, -⟩ := hexDigit_facts hd
  have hmark : d ≠ 'x' ∧ d ≠ 'X' := by
    obtain ⟨-, -, hx, hX⟩ := digitOf_signs (b := 16) (by omega)
    refine ⟨?_, ?_⟩ <;> rintro rfl
    · cases hx.symm.trans hd
    · cases hX.symm.trans hd
  have hbyte : (((x : ℤ) * 16 + y) % 256).toNat = x * 16 + y := by omega
  rw [scanHexByte, dropWhile_digit hspace]
  by_cases hzero : c = '0'
  · subst hzero
    obtain rfl : x = 0 := Option.some.inj (hc.symm.trans hexDigit_zero)
    have hbyte : ((y : ℤ) % 256).toNat = y := by omega
    simp [hmark, hd, hbyte]
  · simp [hminus, hplus, hc, hd, hbyte, hzero]

lemma scanHexByte_single (hc : hexDigit c = some x)
    (ht : ∀ d, t.head? = some d → hexDigit d = none ∧ ¬ (c = '0' ∧ (d = 'x' ∨ d = 'X'))) :
    scanHexByte (c :: t) = some (Char.ofNat x, t) := by
  obtain ⟨hx, hspace, hminus, hplus⟩ := hexDigit_facts hc
  have hbyte : ((x : ℤ) % 256).toNat = x := by omega
  rw [scanHexByte, dropWhile_digit hspace]
  cases t with
  | nil => simp [hminus, hplus, hc, hbyte]
  | cons d t =>
    obtain ⟨hd, hmark⟩ := ht d rfl
    by_cases hzero : c = '0'
    · subst hzero
      obtain rfl : x = 0 := Option.some.inj (hc.symm.trans hexDigit_zero)
      have hd' : ¬ (d = 'x' ∨ d = 'X') := fun h => hmark ⟨rfl, h⟩
      simp [hd', hd]
    · simp [hminus, hplus, hc, hd, hbyte, hzero]

lemma scanHexByte_mark (hd : d = 'x' ∨ d = 'X') : scanHexByte ('0' :: d :: t) = some ('\x00', t) := by
  rw [scanHexByte, dropWhile_digit (by decide)]
  simp [hd]

/-- A sign leaves one character for the digit. -/
lemma scanHexByte_plus (hc : hexDigit c = some x) : scanHexByte ('+' :: c :: t) = some (Char.ofNat x, t) := by
  have hbyte : ((x : ℤ) % 256).toNat = x := by
    have := (hexDigit_facts hc).1
    omega
  rw [scanHexByte, dropWhile_digit (by decide)]
  simp [hc, hbyte]

lemma scanHexByte_minus (hc : hexDigit c = some x) :
    scanHexByte ('-' :: c :: t) = some (Char.ofNat ((256 - x) % 256), t) := by
  have hbyte : (-(x : ℤ) % 256).toNat = (256 - x) % 256 := by
    have := (hexDigit_facts hc).1
    omega
  rw [scanHexByte, dropWhile_digit (by decide)]
  simp [hc, hbyte]

/-- A sign and a character that is no digit. -/
lemma scanHexByte_sign_none (hc : c = '-' ∨ c = '+') (ht : t.head?.bind hexDigit = none) :
    scanHexByte (c :: t) = none := by
  have hspace : isSpace c = false := by rcases hc with rfl | rfl <;> decide
  rw [scanHexByte, dropWhile_digit hspace]
  cases t with
  | nil => simp [hc]
  | cons d t =>
    have hd : hexDigit d = none := by simpa using ht
    simp [hc, hd]

lemma scanHexByte_none (hspace : isSpace c = false) (hminus : c ≠ '-') (hplus : c ≠ '+') (hc : hexDigit c = none) :
    scanHexByte (c :: t) = none := by
  have hzero : c ≠ '0' := by
    rintro rfl
    cases hc.symm.trans hexDigit_zero
  rw [scanHexByte, dropWhile_digit hspace]
  cases t <;> simp [hminus, hplus, hc, hzero]

/-- What the conversion reads. -/
lemma LooseByte.scan {s : CStr} {b : Char} (h : LooseByte s b t) : scanHexByte s = some (b, t) := by
  induction h with
  | blank hc hs ih => rw [scanHexByte_blank hc, ih]
  | pair hc hd => exact scanHexByte_pair hc hd
  | single hc ht => exact scanHexByte_single hc ht
  | mark hd => exact scanHexByte_mark hd
  | plus hc => exact scanHexByte_plus hc
  | minus hc => exact scanHexByte_minus hc

/-- It reads nothing else. -/
lemma looseByte_or_none (s : CStr) : (∃ b t, LooseByte s b t) ∨ scanHexByte s = none := by
  induction s with
  | nil => exact .inr rfl
  | cons c s ih =>
    by_cases hspace : isSpace c = true
    · rw [scanHexByte_blank hspace]
      refine ih.imp ?_ id
      rintro ⟨b, t, h⟩
      exact ⟨b, t, .blank hspace h⟩
    rw [Bool.not_eq_true] at hspace
    -- a sign takes one of the two characters
    by_cases hsign : c = '-' ∨ c = '+'
    · cases hdigit : s.head?.bind hexDigit with
      | none => exact .inr (scanHexByte_sign_none hsign hdigit)
      | some x =>
        obtain ⟨d, hd, hx⟩ := Option.bind_eq_some_iff.mp hdigit
        obtain ⟨t, rfl⟩ := List.head?_eq_some_iff.mp hd
        rcases hsign with rfl | rfl
        · exact .inl ⟨_, _, .minus hx⟩
        · exact .inl ⟨_, _, .plus hx⟩
    rw [not_or] at hsign
    cases hc : hexDigit c with
    | none => exact .inr (scanHexByte_none hspace hsign.1 hsign.2 hc)
    | some x =>
      left
      cases s with
      | nil => exact ⟨_, _, .single hc (by simp)⟩
      | cons d t =>
        cases hd : hexDigit d with
        | some y => exact ⟨_, _, .pair hc hd⟩
        | none =>
          -- the mark `0x` is read over, and its value is that of its zero
          by_cases hmark : c = '0' ∧ (d = 'x' ∨ d = 'X')
          · obtain ⟨rfl, hmark⟩ := hmark
            exact ⟨_, _, .mark hmark⟩
          · refine ⟨_, _, .single hc fun d' hd' => ?_⟩
            obtain rfl := Option.some.inj hd'
            exact ⟨hd, hmark⟩

lemma scanHexByte_iff {s : CStr} {b : Char} : scanHexByte s = some (b, t) ↔ LooseByte s b t := by
  refine ⟨fun h => ?_, LooseByte.scan⟩
  rcases looseByte_or_none s with ⟨b', t', hloose⟩ | hnone
  · cases h.symm.trans hloose.scan
    exact hloose
  · cases h.symm.trans hnone

end

/-! ## All bytes -/

section

variable {s bs : CStr} {n k : ℕ}

lemma scanGuid_eq (s : CStr) (n : ℕ) : scanGuid s (n + 1) =
    (if 15 - n ∈ guidDashes then
      match s with
      | '-' :: t => some t
      | _ => none
    else some s).bind fun s =>
      (scanHexByte s).bind fun bt => (scanGuid bt.2 n).bind fun bs => some (bt.1 :: bs) := by
  rw [scanGuid.eq_def]
  by_cases h : 15 - n ∈ guidDashes
  · simp only [if_pos h]
    cases s with
    | nil => rfl
    | cons c t =>
      by_cases hc : c = '-'
      · subst hc
        rfl
      · simp [hc]
  · simp only [if_neg h]
    rfl

lemma scanGuid_succ (h : 15 - n ∉ guidDashes) : scanGuid s (n + 1) = some bs ↔
    ∃ b t bs', LooseByte s b t ∧ scanGuid t n = some bs' ∧ bs = b :: bs' := by
  rw [scanGuid_eq, if_neg h, Option.bind_some, Option.bind_eq_some_iff]
  constructor
  · rintro ⟨⟨b, t⟩, hb, hscan⟩
    obtain ⟨bs', hbs, hpure⟩ := Option.bind_eq_some_iff.mp hscan
    exact ⟨b, t, bs', scanHexByte_iff.mp hb, hbs, (Option.some.inj hpure).symm⟩
  · rintro ⟨b, t, bs', hb, hbs, rfl⟩
    exact ⟨(b, t), hb.scan, Option.bind_eq_some_iff.mpr ⟨bs', hbs, rfl⟩⟩

/-- Where the format has a dash, the text has to have one. -/
lemma scanGuid_dash (h : 15 - n ∈ guidDashes) : scanGuid s (n + 1) = some bs ↔
    ∃ s' b t bs', s = '-' :: s' ∧ LooseByte s' b t ∧ scanGuid t n = some bs' ∧ bs = b :: bs' := by
  rw [scanGuid_eq, if_pos h, Option.bind_eq_some_iff]
  constructor
  · rintro ⟨s', hs, hscan⟩
    have hdash : s = '-' :: s' := by
      split at hs
      · cases hs
        rfl
      · cases hs
    obtain ⟨⟨b, t⟩, hb, hscan⟩ := Option.bind_eq_some_iff.mp hscan
    obtain ⟨bs', hbs, hpure⟩ := Option.bind_eq_some_iff.mp hscan
    exact ⟨s', b, t, bs', hdash, scanHexByte_iff.mp hb, hbs, (Option.some.inj hpure).symm⟩
  · rintro ⟨s', b, t, bs', rfl, hb, hbs, rfl⟩
    exact ⟨s', rfl, Option.bind_eq_some_iff.mpr ⟨(b, t), hb.scan, Option.bind_eq_some_iff.mpr ⟨bs', hbs, rfl⟩⟩⟩

/-- Bytes between which the format has no dash. -/
lemma scanGuid_run (h : ∀ i < k, 15 - (n + i) ∉ guidDashes) : scanGuid s (n + k) = some bs ↔
    ∃ bs₁ t bs₂, LooseBytes k s bs₁ t ∧ scanGuid t n = some bs₂ ∧ bs = bs₁ ++ bs₂ := by
  induction k generalizing s bs with
  | zero =>
    constructor
    · exact fun hscan => ⟨[], s, bs, .done, hscan, rfl⟩
    · rintro ⟨bs₁, t, bs₂, hbytes, hscan, rfl⟩
      cases hbytes
      exact hscan
  | succ k ih =>
    rw [← Nat.add_assoc, scanGuid_succ (h k (by omega))]
    constructor
    · rintro ⟨b, t, bs', hb, hscan, rfl⟩
      obtain ⟨bs₁, u, bs₂, hbytes, hrest, rfl⟩ := (ih fun i hi => h i (by omega)).mp hscan
      exact ⟨b :: bs₁, u, bs₂, .next hb hbytes, hrest, rfl⟩
    · rintro ⟨bs₁, u, bs₂, hbytes, hscan, rfl⟩
      cases hbytes with
      | next hb hbytes =>
        exact ⟨_, _, _, hb, (ih fun i hi => h i (by omega)).mpr ⟨_, _, _, hbytes, hscan, rfl⟩, rfl⟩

/-- A group behind a dash. -/
lemma scanGuid_group (hdash : 15 - (n + k) ∈ guidDashes) (h : ∀ i < k, 15 - (n + i) ∉ guidDashes) :
    scanGuid s (n + k + 1) = some bs ↔
      ∃ s' bs₁ t bs₂, s = '-' :: s' ∧ LooseBytes (k + 1) s' bs₁ t ∧ scanGuid t n = some bs₂ ∧ bs = bs₁ ++ bs₂ := by
  rw [scanGuid_dash hdash]
  constructor
  · rintro ⟨s', b, t, bs', rfl, hb, hscan, rfl⟩
    obtain ⟨bs₁, u, bs₂, hbytes, hrest, rfl⟩ := (scanGuid_run h).mp hscan
    exact ⟨s', b :: bs₁, u, bs₂, rfl, .next hb hbytes, hrest, rfl⟩
  · rintro ⟨s', bs₁, u, bs₂, rfl, hbytes, hscan, rfl⟩
    cases hbytes with
    | next hb hbytes => exact ⟨s', _, _, _, rfl, hb, (scanGuid_run h).mpr ⟨_, _, _, hbytes, hscan, rfl⟩, rfl⟩

/-- What the format of a GUID reads. -/
lemma scanGuid_iff (hlen : s.length = 36) : scanGuid s 16 = some bs ↔ IsLooseGuid s bs := by
  have h₁ := @scanGuid_run s bs 12 4 (by decide)
  have hgroup : ∀ {s bs : CStr} (n k : ℕ) (_ : 15 - (n + k) ∈ guidDashes) (_ : ∀ i < k, 15 - (n + i) ∉ guidDashes),
      scanGuid s (n + k + 1) = some bs ↔ ∃ s' bs₁ t bs₂, s = '-' :: s' ∧ LooseBytes (k + 1) s' bs₁ t ∧
        scanGuid t n = some bs₂ ∧ bs = bs₁ ++ bs₂ := fun n k => scanGuid_group
  rw [IsLooseGuid, h₁]
  constructor
  · rintro ⟨b₁, t₁, c₁, hb₁, hscan₁, rfl⟩
    obtain ⟨t₁, b₂, t₂, c₂, rfl, hb₂, hscan₂, rfl⟩ := (hgroup 10 1 (by decide) (by decide)).mp hscan₁
    obtain ⟨t₂, b₃, t₃, c₃, rfl, hb₃, hscan₃, rfl⟩ := (hgroup 8 1 (by decide) (by decide)).mp hscan₂
    obtain ⟨t₃, b₄, t₄, c₄, rfl, hb₄, hscan₄, rfl⟩ := (hgroup 6 1 (by decide) (by decide)).mp hscan₃
    obtain ⟨t₄, b₅, t₅, c₅, rfl, hb₅, hscan₅, rfl⟩ := (hgroup 0 5 (by decide) (by decide)).mp hscan₄
    obtain rfl : [] = c₅ := Option.some.inj hscan₅
    exact ⟨hlen, t₁, t₂, t₃, t₄, t₅, b₁, b₂, b₃, b₄, b₅, hb₁, hb₂, hb₃, hb₄, hb₅, by simp⟩
  · rintro ⟨-, t₁, t₂, t₃, t₄, t₅, b₁, b₂, b₃, b₄, b₅, hb₁, hb₂, hb₃, hb₄, hb₅, rfl⟩
    have h₅ := (hgroup 0 5 (by decide) (by decide)).mpr ⟨t₄, b₅, t₅, [], rfl, hb₅, rfl, rfl⟩
    have h₄ := (hgroup 6 1 (by decide) (by decide)).mpr ⟨t₃, b₄, _, _, rfl, hb₄, h₅, rfl⟩
    have h₃ := (hgroup 8 1 (by decide) (by decide)).mpr ⟨t₂, b₃, _, _, rfl, hb₃, h₄, rfl⟩
    have h₂ := (hgroup 10 1 (by decide) (by decide)).mpr ⟨t₁, b₂, _, _, rfl, hb₂, h₃, rfl⟩
    exact ⟨b₁, _, _, hb₁, h₂, by simp⟩

end

/-! ## The texts that are written -/

section

variable {s t bin : CStr} {n : ℕ}

/-- Digits in pairs are read as they are meant. -/
lemma HexPairs.loose (h : HexPairs s bin) (t : CStr) : LooseBytes bin.length (s ++ t) bin t := by
  induction h with
  | nil => exact .done
  | cons hc hd _ ih => exact .next (.pair hc hd) ih

/-- Digits are in pairs when their number is even. -/
lemma HexPairs.split {s₁ s₂ : CStr} (h : HexPairs (s₁ ++ s₂) bin) (hlen : s₁.length = 2 * n) :
    ∃ b₁ b₂, bin = b₁ ++ b₂ ∧ b₁.length = n ∧ HexPairs s₁ b₁ ∧ HexPairs s₂ b₂ := by
  induction n generalizing s₁ bin with
  | zero =>
    obtain rfl := List.length_eq_zero_iff.mp hlen
    exact ⟨[], bin, rfl, rfl, .nil, h⟩
  | succ n ih =>
    obtain ⟨c, s₁, rfl⟩ := List.exists_cons_of_length_pos (l := s₁) (by omega)
    rw [List.length_cons] at hlen
    obtain ⟨d, s₁, rfl⟩ := List.exists_cons_of_length_pos (l := s₁) (by omega)
    cases h with
    | cons hc hd h =>
      obtain ⟨b₁, b₂, rfl, hlen', h₁, h₂⟩ := ih h (by simp only [List.length_cons] at hlen; omega)
      exact ⟨_ :: b₁, b₂, rfl, by simp [hlen'], .cons hc hd h₁, h₂⟩

lemma HexPairs.length (h : HexPairs s bin) : s.length = 2 * bin.length := by
  induction h with
  | nil => rfl
  | cons _ _ _ ih => simp only [List.length_cons]; omega

lemma IsGuid.loose (h : IsGuid s bin) : IsLooseGuid s bin := by
  obtain ⟨g₁, g₂, g₃, g₄, g₅, hlens, rfl, hpairs⟩ := h
  simp only [List.map_cons, List.map_nil, List.cons.injEq, and_true] at hlens
  obtain ⟨h₁, h₂, h₃, h₄, h₅⟩ := hlens
  simp only [List.append_assoc] at hpairs
  obtain ⟨b₁, r₁, rfl, hb₁, hp₁, hpairs⟩ := hpairs.split (n := 4) h₁
  obtain ⟨b₂, r₂, rfl, hb₂, hp₂, hpairs⟩ := hpairs.split (n := 2) h₂
  obtain ⟨b₃, r₃, rfl, hb₃, hp₃, hpairs⟩ := hpairs.split (n := 2) h₃
  obtain ⟨b₄, r₄, rfl, hb₄, hp₄, hp₅⟩ := hpairs.split (n := 2) h₄
  have hb₅ : r₄.length = 6 := by
    have := hp₅.length
    omega
  refine ⟨by simp only [List.length_append, List.length_cons]; omega, _, _, _, _, [], b₁, b₂, b₃, b₄, r₄, hb₁ ▸ hp₁.loose _,
    hb₂ ▸ hp₂.loose _, hb₃ ▸ hp₃.loose _, hb₄ ▸ hp₄.loose _, ?_, by simp⟩
  have hlast := hp₅.loose []
  rwa [hb₅, List.append_nil] at hlast

end

/-- A text is taken for a GUID exactly when it is one, and then its bytes are written. -/
def GuidGrammar (s : CStr) : Prop :=
  ∀ (κ : Type) (K : Kernel κ) (path : Path) (name file : CStr),
    (∀ bin, IsGuid s bin → usbgWriteGuid K path name file (some s) = usbgWriteBuf K path name file bin) ∧
      ((¬ ∃ bin, IsGuid s bin) → usbgWriteGuid K path name file (some s) = fail .invalidParam)

section

variable {κ : Type} {K : Kernel κ} {path : Path} {name file s bin : CStr}

/-- The bytes of a loose text are written. -/
lemma usbgWriteGuid_loose (h : IsLooseGuid s bin) :
    usbgWriteGuid K path name file (some s) = usbgWriteBuf K path name file bin := by
  rw [usbgWriteGuid, deref_some, pure_bind, require_of h.1, pure_bind, (scanGuid_iff h.1).mpr h]

/-- Any other text is refused. -/
lemma usbgWriteGuid_refused (h : ¬ ∃ bin, IsLooseGuid s bin) :
    usbgWriteGuid K path name file (some s) = fail .invalidParam := by
  rw [usbgWriteGuid, deref_some, pure_bind]
  by_cases hlen : s.length = 36
  · rw [require_of hlen, pure_bind]
    cases hscan : scanGuid s 16 with
    | none => rfl
    | some bin => exact absurd ⟨bin, (scanGuid_iff hlen).mp hscan⟩ h
  · rw [require_of_not hlen, fail_bind]

end

/-- The texts that are no GUIDs are told apart except for those that `sscanf` can read all the same. -/
theorem guidGrammar_iff (s : CStr) : GuidGrammar s ↔ (∃ bin, IsGuid s bin) ∨ ¬ ∃ bin, IsLooseGuid s bin := by
  constructor
  · intro h
    by_contra hneither
    rw [not_or, not_not] at hneither
    obtain ⟨hguid, bin, hloose⟩ := hneither
    have hrefused := (h Unit (oneFile [] []) [] [] []).2 hguid
    rw [usbgWriteGuid_loose hloose] at hrefused
    -- a kernel that lets everything be written
    have hrun := congrFun hrefused ⟨(), 0⟩
    rw [usbgWriteBuf, require_of (by decide), pure_bind] at hrun
    cases hrun
  · intro h κ K path name file
    refine ⟨fun bin hguid => usbgWriteGuid_loose hguid.loose, fun hguid => usbgWriteGuid_refused ?_⟩
    rcases h with h | h
    · exact absurd h hguid
    · exact h

/-- The text of a GUID has digits and dashes in it and nothing else. -/
lemma IsGuid.chars {s bin : CStr} (h : IsGuid s bin) : ∀ c ∈ s, c = '-' ∨ (hexDigit c).isSome = true := by
  have hpairs : ∀ {s bin : CStr}, HexPairs s bin → ∀ c ∈ s, (hexDigit c).isSome = true := by
    intro s bin h
    induction h with
    | nil => simp
    | cons hc hd _ ih =>
      intro e he
      rcases List.mem_cons.mp he with rfl | he
      · rw [hc]
        rfl
      rcases List.mem_cons.mp he with rfl | he
      · rw [hd]
        rfl
      · exact ih e he
  obtain ⟨g₁, g₂, g₃, g₄, g₅, -, rfl, h⟩ := h
  have hdigits := hpairs h
  intro c hc
  simp only [List.mem_append, List.mem_cons] at hc
  by_cases hdash : c = '-'
  · exact .inl hdash
  · refine .inr (hdigits c ?_)
    simp only [List.mem_append]
    tauto

/-- The last byte of this text has one digit, and a character that is none ends it. -/
theorem guidGrammar_fails : ¬ GuidGrammar "12345678-1234-1234-1234-12345678909z".toList := by
  intro h
  have hguid : ¬ ∃ bin, IsGuid "12345678-1234-1234-1234-12345678909z".toList bin := by
    rintro ⟨bin, hbin⟩
    have hz := hbin.chars 'z' (by decide)
    revert hz
    decide
  have hrefused := congrFun ((h Unit (oneFile [] []) [] [] []).2 hguid) ⟨(), 0⟩
  have hwritten : (usbgWriteGuid (oneFile [] []) [] [] [] (some "12345678-1234-1234-1234-12345678909z".toList)
      ⟨(), 0⟩).1 = .ok () := by
    decide +kernel
  rw [hrefused] at hwritten
  cases hwritten

/-! ## Bytes -/

/-- The entry of `uvc_format_attr` for the GUID. -/
def uvcGuidFormat : Attr := .rw "guidFormat" .guid

/-- The string in a block of memory, for `strlen` and `sscanf`: it ends at a NUL, and what is behind the
block is not theirs to read. -/
def blockString {κ : Type} (block : CStr) : Io κ CStr := if '\x00' ∈ block then pure (ofBuffer block) else undef

/-- Hand what `usbg_f_uvc_get_format_attr_val` gives for the GUID to `usbg_f_uvc_set_format_attr_val`. -/
def handGuidOn {κ : Type} (K : Kernel κ) (f : Func) (format : Path) : Io κ Unit := do
  match ← usbgFUvcGetFormatAttrVal K f format uvcGuidFormat with
  | .string (some block) =>
    let s ← blockString block
    usbgFUvcSetFormatAttrVal K f format uvcGuidFormat (.string (some s))
  | _ => undef

/-- What has been exported can be imported, and the same bytes are written. -/
def GuidExported (bin : CStr) : Prop :=
  ∀ (root : Members) (name : CStr), name ∉ root.map Prod.fst → ∃ root' s,
    usbgSetConfigNodeGuid root name bin = .ok root' ∧ usbgGetConfigNodeString (.group root') name = .ok (some s) ∧
      ∀ (κ : Type) (K : Kernel κ) (path : Path) (dir file : CStr),
        usbgWriteGuid K path dir file (some s) = usbgWriteBuf K path dir file bin

/-- The bytes in the file of a format survive an export and an import, and a call of the getter and the
setter. -/
structure GuidSurvives (M : Machine) (w : World Fs) (f : Func) (format : Path) (bin : CStr) : Prop where
  exported : GuidExported bin
  handed : ∃ w', handGuidOn M.kernel f format w = (.ok (), w') ∧
    w'.tree.get (uvcFormatPath f format ++ [[], uvcGuidFormat.name]).resolve = some (.file bin)

/-- A byte is printed as a pair of digits. -/
lemma printHex_byte {n : ℕ} (h : n < 256) :
    ∃ c d x y, printHex 2 n = [c, d] ∧ hexDigit c = some x ∧ hexDigit d = some y ∧ n = x * 16 + y := by
  have hprint : printHex 2 n = List.replicate (2 - (Nat.toDigits 16 n).length) '0' ++ Nat.toDigits 16 n := by
    rw [printHex, Int.emod_eq_of_lt (by omega) (by omega), Int.toNat_natCast]
  have hlow : hexDigit (n % 16).digitChar = some (n % 16) := digitOf_digitChar (by omega) (Nat.mod_lt _ (by omega))
  by_cases hsmall : n < 16
  · refine ⟨'0', n.digitChar, 0, n, ?_, hexDigit_zero, digitOf_digitChar (by omega) hsmall, by omega⟩
    rw [hprint, Nat.toDigits_of_lt_base hsmall]
    rfl
  · refine ⟨(n / 16).digitChar, (n % 16).digitChar, n / 16, n % 16, ?_, digitOf_digitChar (by omega) (by omega), hlow,
      by omega⟩
    rw [hprint, Nat.toDigits_of_base_le (by omega) (by omega), Nat.toDigits_of_lt_base (by omega)]
    rfl

section

variable {bin : CStr}

lemma hexPairs_printed (h : ∀ c ∈ bin, c.toNat < 256) : HexPairs (bin.flatMap fun c => printHex 2 c.toNat) bin := by
  induction bin with
  | nil => exact .nil
  | cons b bin ih =>
    obtain ⟨c, d, x, y, hprint, hc, hd, hb⟩ := printHex_byte (h b (by simp))
    have hrest := ih fun c hc => h c (by simp [hc])
    have hbyte : b = Char.ofNat (x * 16 + y) := by rw [← hb, Char.ofNat_toNat]
    rw [List.flatMap_cons, hprint, hbyte]
    exact .cons hc hd hrest

/-- The text that an export prints for the bytes. -/
def guidText (bin : CStr) : CStr :=
  let digits := fun n m => ((bin.drop n).take m).flatMap fun c => printHex 2 c.toNat
  digits 0 4 ++ '-' :: (digits 4 2 ++ '-' :: (digits 6 2 ++ '-' :: (digits 8 2 ++ '-' :: digits 10 6)))

lemma isGuid_guidText (hlen : bin.length = 16) (h : ∀ c ∈ bin, c.toNat < 256) : IsGuid (guidText bin) bin := by
  have hpairs := hexPairs_printed h
  have hgroup : ∀ n m, n + m ≤ 16 → (((bin.drop n).take m).flatMap fun c => printHex 2 c.toNat).length = 2 * m := by
    intro n m hnm
    have hbytes : ∀ c ∈ (bin.drop n).take m, c.toNat < 256 := fun c hc =>
      h c (List.mem_of_mem_drop (List.mem_of_mem_take hc))
    rw [(hexPairs_printed hbytes).length, List.length_take, List.length_drop]
    omega
  have hsplit : bin = (bin.drop 0).take 4 ++ (bin.drop 4).take 2 ++ (bin.drop 6).take 2 ++ (bin.drop 8).take 2 ++
      (bin.drop 10).take 6 := by
    have hjoin : ∀ n m, bin.take (n + m) = bin.take n ++ (bin.drop n).take m := fun n m => List.take_add
    rw [List.drop_zero, ← hjoin 4 2, ← hjoin 6 2, ← hjoin 8 2, ← hjoin 10 6, List.take_of_length_le (by omega)]
  refine ⟨_, _, _, _, _, ?_, rfl, ?_⟩
  · simp only [List.map_cons, List.map_nil, hgroup 0 4 (by omega), hgroup 4 2 (by omega), hgroup 6 2 (by omega),
      hgroup 8 2 (by omega), hgroup 10 6 (by omega)]
  · rw [← List.flatMap_append, ← List.flatMap_append, ← List.flatMap_append, ← List.flatMap_append, ← hsplit]
    exact hpairs

/-- An export and an import keep the bytes. -/
lemma guidExported (hlen : bin.length = 16) (h : ∀ c ∈ bin, c.toNat < 256) : GuidExported bin := by
  intro root name hname
  refine ⟨root ++ [(name, .string (guidText bin))], guidText bin, ?_, ?_, fun κ K path dir file =>
    usbgWriteGuid_loose (isGuid_guidText hlen h).loose⟩
  · rw [usbgSetConfigNodeGuid, usbgSetConfigNodeString, configSettingAdd_ok hname]
    simp [guidText, List.intercalate]
  · rw [usbgGetConfigNodeString, prefix_getMember root hname List.prefix_rfl]

/-- The bytes in a block are fewer than the characters of a text. -/
lemma not_handGuidOn {κ : Type} {K : Kernel κ} {w : World κ} {f : Func} {format : Path} :
    Ends (fun _ _ => False) (fun _ _ => True) True (handGuidOn K f format w) := by
  have hget : Ends (fun val _ => ∃ block : CStr, val = .string (some block) ∧ block.length = 16) (fun _ _ => True) True
      (usbgFUvcGetFormatAttrVal K f format uvcGuidFormat w) := by
    refine Ends.require_bind (fun _ => ?_) fun _ => trivial
    refine Ends.bind (R := fun bin _ => bin.length = 16) ?_ fun bin w' hbin => ⟨bin, rfl, hbin⟩
    refine Ends.bind (R := fun _ _ => True) (.intro (fun _ _ _ => trivial) (fun _ _ _ => trivial) fun _ _ => trivial) ?_
    exact fun buf w' _ => Ends.ite (fun _ => trivial) fun _ => Ends.require_bind (fun hlen => hlen) fun _ => trivial
  refine Ends.bind hget ?_
  rintro _ w' ⟨block, rfl, hlen⟩
  refine Ends.bind (R := fun s _ => s.length ≠ 36) ?_ fun s w'' hs => ?_
  · refine Ends.ite (fun _ => ?_) fun _ => trivial
    have hshort : (ofBuffer block).length ≤ block.length := (List.takeWhile_sublist _).length_le
    show (ofBuffer block).length ≠ 36
    omega
  · refine Ends.require_bind (fun _ => ?_) fun _ => trivial
    have hrefused : usbgWriteGuid K (uvcFormatPath f format) [] uvcGuidFormat.name (some s) = fail .invalidParam := by
      rw [usbgWriteGuid, deref_some, pure_bind, require_of_not hs, fail_bind]
    show Ends _ _ _ (usbgWriteGuid K (uvcFormatPath f format) [] uvcGuidFormat.name (some s) w'')
    rw [hrefused]
    trivial

end

/-- An export keeps the bytes of a GUID, but what the getter gives the setter never takes. -/
theorem guidSurvives_never (M : Machine) (w : World Fs) (f : Func) (format : Path) (bin : CStr)
    (hlen : bin.length = 16) (hbytes : ∀ c ∈ bin, c.toNat < 256) :
    GuidExported bin ∧ ¬ GuidSurvives M w f format bin := by
  refine ⟨guidExported hlen hbytes, fun h => ?_⟩
  obtain ⟨w', hrun, -⟩ := h.handed
  have hends : Ends (fun _ _ => False) (fun _ _ => True) True (handGuidOn M.kernel f format w) := not_handGuidOn
  rw [hrun] at hends
  exact hends

/-- A video function, and the file with the GUID of its first format. -/
def guidFunc : Func := plainFunc .uvc

@[inherit_doc guidFunc]
def guidTree (bin : CStr) : Tree :=
  ⟨[((uvcFormatPath guidFunc uvcPathStreamingMjpeg ++ [[], uvcGuidFormat.name]).resolve, .file bin)],
    List.nodup_singleton _⟩

/-- A GUID without a zero byte. -/
theorem guidSurvives_letters :
    GuidExported "sixteen letters.".toList ∧ ¬ GuidSurvives willing (worldOf (guidTree "sixteen letters.".toList))
      guidFunc uvcPathStreamingMjpeg "sixteen letters.".toList :=
  guidSurvives_never willing _ _ _ "sixteen letters.".toList (by decide) (by simp)

/-- The setter refuses a GUID with a zero byte. -/
theorem guidSurvives_fails : ¬ GuidSurvives willing (worldOf (guidTree (List.replicate 16 '\x00'))) guidFunc
    uvcPathStreamingMjpeg (List.replicate 16 '\x00') := by
  intro h
  obtain ⟨w', hrun, -⟩ := h.handed
  have hrefused : (handGuidOn willing.kernel guidFunc uvcPathStreamingMjpeg
      (worldOf (guidTree (List.replicate 16 '\x00')))).1 = .fail .invalidParam := by
    decide +kernel
  rw [hrun] at hrefused
  cases hrefused

end Libusbgx
