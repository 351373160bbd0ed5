import Libusbgx.Attributes.Files

/-!
# Reading integers

`usbg_read_int` hands a buffer without a terminator to `strtol`, and takes whatever `strtol` makes of
it for the value.
-/

namespace Libusbgx

open Prog

variable {κ : Type} {K : Kernel κ} {base : ℕ} {content num rest blanks : CStr} {v : ℤ}

/-! ## What a file says -/

/-- The content starts, behind blanks, with a numeral that fits in an `int`; what follows the numeral is
`rest`. -/
structure StartsWith (base : ℕ) (content rest : CStr) (v : ℤ) : Prop where
  split : ∃ blanks num, content = blanks ++ (num ++ rest) ∧ (∀ c ∈ blanks, isSpace c = true) ∧ IsNumeral base num v
  fits : -2 ^ 31 ≤ v ∧ v < 2 ^ 31

/-- A number ends in front of the character. -/
def EndsNumber (c : Char) : Prop := c = '\x00' ∨ isSpace c = true

instance (c : Char) : Decidable (EndsNumber c) := inferInstanceAs (Decidable (_ ∨ _))

/-- The content is a numeral that fits in an `int`, up to the end of the content, a NUL or a blank. -/
def ParsesTo (base : ℕ) (content : CStr) (v : ℤ) : Prop :=
  ∃ rest, StartsWith base content rest v ∧ ∀ c, rest.head? = some c → EndsNumber c

/-- The content has a NUL or a blank behind a numeral that fits in an `int`. -/
def Terminated (base : ℕ) (content : CStr) : Prop :=
  ∃ v c rest, StartsWith base content (c :: rest) v ∧ EndsNumber c

/-- What is said of `usbg_read_int` and a content: it gives the number that the content is, or an error
where it is none, and what is on the stack does not matter. -/
structure ReadIntLaw (base : ℕ) (content : CStr) : Prop where
  parses : ∀ (κ : Type) (K : Kernel κ) (w : World κ) (path : Path) (name file : CStr),
    (path ++ [name, file]).Fits → (K.call (.read (path ++ [name, file])) w.sys).1 = .ok content →
      match (usbgReadInt K path name file base w).1 with
      | .ok v => ParsesTo base content v
      | .fail _ => ∀ v, ¬ ParsesTo base content v
      | .undef => False
  stable : ∀ (κ κ' : Type) (K : Kernel κ) (K' : Kernel κ') (w : World κ) (w' : World κ') (path : Path)
    (name file : CStr), (path ++ [name, file]).Fits →
      (K.call (.read (path ++ [name, file])) w.sys).1 = .ok content →
      (K'.call (.read (path ++ [name, file])) w'.sys).1 = .ok content →
        (usbgReadInt K path name file base w).1 = (usbgReadInt K' path name file base w').1

/-! ## What is read -/

/-- The value of a buffer, in which other bytes follow the content. -/
def bufferValue (base : ℕ) (content stale : CStr) : ℤ := toInt (strtol base (ofBuffer (content ++ stale))).value

/-- The function always returns a number. -/
lemma usbgReadInt_of_read {w : World κ} {path : Path} {name file : CStr} (hlen : content.length ≤ usbgMaxStrLength)
    (hfits : (path ++ [name, file]).Fits)
    (hread : (K.call (.read (path ++ [name, file])) w.sys).1 = .ok content) :
    (usbgReadInt K path name file base w).1 =
      .ok (bufferValue base content (K.stale (K.call (.read (path ++ [name, file])) w.sys).2)) := by
  have hbuf : usbgReadBuf K path name file w =
      (.ok content, { w with sys := (K.call (.read (path ++ [name, file])) w.sys).2 }) := by
    rw [usbgReadBuf, usbgReadBufLimited, require_of hfits, pure_bind, bind_ok (call_of_ok K hread), List.take_of_length_le hlen]
    rfl
  rw [usbgReadInt, bind_ok hbuf]
  rfl

/-- The string in a buffer goes on behind what has no NUL. -/
lemma ofBuffer_append {s t : CStr} (h : ∀ c ∈ s, c ≠ '\x00') : ofBuffer (s ++ t) = s ++ ofBuffer t := by
  rw [ofBuffer, List.takeWhile_append_of_pos (by simpa using h)]
  rfl

/-- There is no NUL in a numeral. -/
lemma IsNumeral.no_nul (hbase : base ≤ 16) (h : IsNumeral base num v) : ∀ c ∈ num, c ≠ '\x00' := by
  obtain ⟨pre, ds, hpre, hds, hcases⟩ := h
  have hnul : digitOf base '\x00' = none := by
    have key : ∀ b ≤ 16, digitOf b '\x00' = none := by decide
    exact key base hbase
  have hbody : ∀ c ∈ pre ++ ds, c ≠ '\x00' := by
    intro c hc
    rcases List.mem_append.mp hc with hc | hc
    · rcases hpre with rfl | ⟨-, rfl | rfl⟩
      · cases hc
      · have key : ∀ c ∈ ['0', 'x'], c ≠ '\x00' := by simp
        exact key c hc
      · have key : ∀ c ∈ ['0', 'X'], c ≠ '\x00' := by simp
        exact key c hc
    · rintro rfl
      have hdigit := hds.digits _ hc
      rw [hnul] at hdigit
      cases hdigit
  have hsigned : ∀ sign : Char, sign ≠ '\x00' → ∀ c ∈ sign :: (pre ++ ds), c ≠ '\x00' := by
    intro sign hsign c hc
    rcases List.mem_cons.mp hc with rfl | hc
    · exact hsign
    · exact hbody c hc
  rcases hcases with ⟨rfl | rfl, -⟩ | ⟨rfl, -⟩
  · exact hbody
  · exact hsigned '+' (by decide)
  · exact hsigned '-' (by decide)

lemma isSpace_ne_nul {c : Char} (h : isSpace c = true) : c ≠ '\x00' := by
  rintro rfl
  revert h
  decide

/-- The string in a buffer that starts with blanks and a numeral. -/
lemma ofBuffer_numeral (hbase : base ≤ 16) (hblanks : ∀ c ∈ blanks, isSpace c = true) (hnum : IsNumeral base num v)
    (t : CStr) : ofBuffer (blanks ++ (num ++ t)) = blanks ++ (num ++ ofBuffer t) := by
  rw [ofBuffer_append fun c hc => isSpace_ne_nul (hblanks c hc), ofBuffer_append (hnum.no_nul hbase)]

/-- Nothing behind a NUL or a blank is read. -/
lemma bufferValue_terminated (hbase : base ≤ 16) {c : Char} (h : StartsWith base content (c :: rest) v)
    (hc : EndsNumber c) (stale : CStr) : bufferValue base content stale = v := by
  obtain ⟨⟨blanks, num, rfl, hblanks, hnum⟩, hfits⟩ := h
  have hbuf : ofBuffer (blanks ++ (num ++ c :: rest) ++ stale) = blanks ++ (num ++ ofBuffer (c :: (rest ++ stale))) := by
    rw [← ofBuffer_numeral hbase hblanks hnum]
    simp
  have hstop : (ofBuffer (c :: (rest ++ stale))).head?.bind (digitOf base) = none ∧
      (ofBuffer (c :: (rest ++ stale))).head? ≠ some 'x' ∧ (ofBuffer (c :: (rest ++ stale))).head? ≠ some 'X' := by
    rcases hc with rfl | hspace
    · exact ⟨rfl, by simp [ofBuffer], by simp [ofBuffer]⟩
    · have hhead : (ofBuffer (c :: (rest ++ stale))).head? = some c := by
        rw [ofBuffer, List.takeWhile_cons_of_pos (by simpa using isSpace_ne_nul hspace)]
        rfl
      rw [hhead]
      refine ⟨digitOf_of_isSpace hbase hspace, ?_, ?_⟩ <;> rintro heq <;> obtain rfl := Option.some.inj heq <;>
        revert hspace <;> decide
  rw [bufferValue, hbuf, strtol_numeral hbase hblanks hnum hstop.1 hstop.2, clampLong_of_fits (by omega)]
  exact toInt_of_fits hfits

/-- A digit on the stack makes a number longer that nothing ends. -/
lemma bufferValue_digit (hbase : base = 10 ∨ base = 16) (h : StartsWith base content [] v) {c : Char} {d : ℕ}
    (hd : d < 2) (hc : digitOf base c = some d) :
    bufferValue base content [c] = toInt (v * base + d) ∨ bufferValue base content [c] = toInt (v * base - d) := by
  obtain ⟨⟨blanks, num, rfl, hblanks, hnum⟩, hfits⟩ := h
  have hle : base ≤ 16 := by omega
  have hbuf : ofBuffer (blanks ++ (num ++ []) ++ [c]) = blanks ++ (num ++ [c] ++ []) := by
    have hne : c ≠ '\x00' := by
      rintro rfl
      have key : ∀ b ≤ 16, digitOf b '\x00' = none := by decide
      rw [key base hle] at hc
      cases hc
    have hc' : ofBuffer [c] = [c] := by simp [ofBuffer, hne]
    have hsplit := ofBuffer_numeral hle hblanks hnum [c]
    rw [hc'] at hsplit
    simpa using hsplit
  have hread : ∀ v', IsNumeral base (num ++ [c]) v' → -2 ^ 63 ≤ v' ∧ v' < 2 ^ 63 →
      bufferValue base (blanks ++ (num ++ [])) [c] = toInt v' := by
    intro v' hnum' hv'
    rw [bufferValue, hbuf, strtol_numeral hle hblanks hnum' rfl (by simp), clampLong_of_fits hv']
  rcases hnum.concat hc with hnum' | hnum'
  · exact .inl (hread _ hnum' (by rcases hbase with rfl | rfl <;> omega))
  · exact .inr (hread _ hnum' (by rcases hbase with rfl | rfl <;> omega))

/-- So the value depends on what is on the stack. -/
lemma bufferValue_ne (hbase : base = 10 ∨ base = 16) (h : StartsWith base content [] v) :
    bufferValue base content ['0'] ≠ bufferValue base content ['1'] := by
  have hdigits : digitOf base '0' = some 0 ∧ digitOf base '1' = some 1 := by
    rcases hbase with rfl | rfl <;> decide
  have h₀ := bufferValue_digit hbase h (by omega) hdigits.1
  have h₁ := bufferValue_digit hbase h (by omega) hdigits.2
  have hsucc : ∀ n : ℤ, toInt n ≠ toInt (n + 1) ∧ toInt n ≠ toInt (n - 1) := by
    intro n
    rw [toInt, toInt, toInt, Int.bmod_def, Int.bmod_def, Int.bmod_def]
    omega
  have hzero : bufferValue base content ['0'] = toInt (v * base) := by
    rcases h₀ with h₀ | h₀ <;> simpa using h₀
  rw [hzero]
  rcases h₁ with h₁ | h₁ <;> rw [h₁]
  · exact_mod_cast (hsucc (v * base)).1
  · exact_mod_cast (hsucc (v * base)).2

/-! ## The law -/

/-- A kernel with one file, and bytes on the stack. -/
def oneFile (content stale : CStr) : Kernel Unit where
  call c s :=
    (match c with
      | .scandir _ | .nftw _ => .ok []
      | .readlink _ => .ok []
      | .read _ => .ok content
      | .opendir _ | .write _ _ | .mkdir _ | .rmdir _ | .unlink _ | .symlink _ _ | .stat _ | .remove _ => .ok (), s)
  stale _ := stale

lemma usbgReadInt_oneFile (hlen : content.length ≤ usbgMaxStrLength) (stale : CStr) :
    (usbgReadInt (oneFile content stale) [] [] [] base ⟨(), 0⟩).1 = .ok (bufferValue base content stale) :=
  usbgReadInt_of_read hlen (by decide) rfl

/-- An integer is read as the file says, whatever is on the stack, exactly when a NUL or a blank ends the
number in the file. -/
theorem readIntLaw_iff (base : ℕ) (hbase : base = 10 ∨ base = 16) (content : CStr)
    (hlen : content.length ≤ usbgMaxStrLength) : ReadIntLaw base content ↔ Terminated base content := by
  have hle : base ≤ 16 := by omega
  constructor
  · intro hlaw
    have hfits : Path.Fits ([] ++ [[], []]) := by decide
    have hparses := hlaw.parses Unit (oneFile content []) ⟨(), 0⟩ [] [] [] hfits rfl
    rw [usbgReadInt_oneFile hlen] at hparses
    obtain ⟨rest, hstarts, hend⟩ := hparses
    cases rest with
    | cons c rest => exact ⟨_, c, rest, hstarts, hend c rfl⟩
    | nil =>
      -- two digits that may be on the stack
      have hstable := hlaw.stable Unit Unit (oneFile content ['0']) (oneFile content ['1']) ⟨(), 0⟩ ⟨(), 0⟩ [] [] []
        hfits rfl rfl
      rw [usbgReadInt_oneFile hlen, usbgReadInt_oneFile hlen] at hstable
      exact absurd (Outcome.ok.inj hstable) (bufferValue_ne hbase hstarts)
  · rintro ⟨v, c, rest, hstarts, hc⟩
    refine ⟨fun κ K w path name file hfits hread => ?_, fun κ κ' K K' w w' path name file hfits hread hread' => ?_⟩
    · rw [usbgReadInt_of_read hlen hfits hread, bufferValue_terminated hle hstarts hc]
      refine ⟨c :: rest, hstarts, fun c' hc' => ?_⟩
      obtain rfl := Option.some.inj hc'
      exact hc
    · rw [usbgReadInt_of_read hlen hfits hread, usbgReadInt_of_read hlen hfits hread',
        bufferValue_terminated hle hstarts hc, bufferValue_terminated hle hstarts hc]

/-- A number that a newline ends. -/
theorem readIntLaw_newline : ReadIntLaw 10 "12\n".toList :=
  (readIntLaw_iff 10 (.inl rfl) "12\n".toList (by decide)).mpr
    ⟨12, '\n', [], ⟨⟨[], "12".toList, rfl, by simp, [], "12".toList, .inl rfl, ⟨by decide, by simp [digitOf]⟩,
      .inl ⟨.inl rfl, by decide⟩⟩, by decide⟩, by decide⟩

/-- The empty file is read as a number, and a file without a newline is read with what is on the stack. -/
theorem readIntLaw_fails : ¬ ReadIntLaw 10 [] ∧ ¬ ReadIntLaw 10 "12".toList := by
  have hfits : Path.Fits ([] ++ [[], []]) := by decide
  constructor
  · intro hlaw
    have hparses := hlaw.parses Unit (oneFile [] []) ⟨(), 0⟩ [] [] [] hfits rfl
    rw [usbgReadInt_oneFile (by decide)] at hparses
    obtain ⟨rest, ⟨⟨blanks, num, hsplit, -, pre, ds, -, hds, hcases⟩, -⟩, -⟩ := hparses
    have hnum : num = [] := by
      have happend := (List.append_eq_nil_iff.mp hsplit.symm).2
      exact (List.append_eq_nil_iff.mp happend).1
    subst hnum
    rcases hcases with ⟨hnil | hnil, -⟩ | ⟨hnil, -⟩
    · exact hds.ne_nil (List.append_eq_nil_iff.mp hnil.symm).2
    · cases hnil
    · cases hnil
  · intro hlaw
    have hstable := hlaw.stable Unit Unit (oneFile "12".toList []) (oneFile "12".toList ['3']) ⟨(), 0⟩ ⟨(), 0⟩
      [] [] [] hfits rfl rfl
    rw [usbgReadInt_oneFile (by decide), usbgReadInt_oneFile (by decide)] at hstable
    have hvalues : bufferValue 10 "12".toList [] = 12 ∧ bufferValue 10 "12".toList ['3'] = 123 := by
      decide +kernel
    rw [hvalues.1, hvalues.2] at hstable
    cases hstable

end Libusbgx
