import Libusbgx.Attributes.Buffer
import Libusbgx.Source.Returns

/-!
# Returned numbers

A function of the library returns 0 or the number of an error, and its callers pass this number on.  The
readers of strings and truth values do so on every file; the reader of a fixed number of bytes returns the
number of bytes it has found when these are too few.
-/

namespace Libusbgx

open Prog

lemma UsbgError.code_neg (e : UsbgError) : e.code < 0 := by
  cases e <;> decide

/-- A function that stores a value through a pointer returns 0 or the number of an error; it stores a value
only when it returns 0, and then one as it is promised. -/
structure Convention {α : Type} (promised : α → Prop) (r : ℤ × Option α) : Prop where
  ret : r.1 = 0 ∨ ∃ e : UsbgError, r.1 = e.code
  stored : ∀ a, r.2 = some a → r.1 = 0
  kept : r.1 = 0 → ∃ a, r.2 = some a ∧ promised a

namespace Convention

variable {α : Type} {promised : α → Prop} {r : ℤ × Option α}

lemma nonpos (h : Convention promised r) : r.1 ≤ 0 := by
  rcases h.ret with hret | ⟨e, hret⟩
  · exact hret.le
  · exact hret.trans_le e.code_neg.le

lemma of_stored {a : α} (ha : promised a) : Convention promised (0, some a) where
  ret := .inl rfl
  stored _ _ := rfl
  kept _ := ⟨a, rfl, ha⟩

lemma of_error (promised : α → Prop) (e : UsbgError) : Convention promised (e.code, none) where
  ret := .inr ⟨e, rfl⟩
  stored _ h := by cases h
  kept h := absurd h e.code_neg.ne

end Convention

namespace Surroundings

/-- The bytes of a file before its first newline or NUL, as many of them as a string of the library takes. -/
def IsLine (S : Surroundings) (p : Path) (s : CStr) : Prop :=
  ∃ content broken, S.fopen p = .opened content broken ∧
    s = (content.takeWhile fun c => c ≠ '\x00' ∧ c ≠ '\n').take (usbgMaxFileSize - 1)

/-- The first `len` bytes of a file that has as many. -/
def IsFront (S : Surroundings) (p : Path) (len : ℕ) (bin : CStr) : Prop :=
  ∃ content broken, S.fopen p = .opened content broken ∧ bin = content.take len ∧ bin.length = len

/-- The file is read to its end, which comes before `len` bytes. -/
def ShortRead (S : Surroundings) (p : Path) (len : ℕ) : Prop :=
  p.Fits ∧ ∃ content, S.fopen p = .opened content false ∧ content.length < len

end Surroundings

namespace Raw

variable {S : Surroundings} {path : Path} {name file : CStr} {len : ℕ}

/-! ## The readers -/

/-- The lower reader reports an error, or the number of bytes it has read; then the file has no more, or
the buffer is full. -/
lemma usbgReadBufLimited_cases (S : Surroundings) (path : Path) (name file : CStr) (len : ℕ) :
    (∃ (e : UsbgError) (buf : CStr), usbgReadBufLimited S path name file len = (e.code, buf) ∧
      ¬ S.ShortRead (path ++ [name, file]) len) ∨
    ∃ content broken, S.fopen (path ++ [name, file]) = .opened content broken ∧
      usbgReadBufLimited S path name file len = (((content.take len).length : ℤ), content.take len) ∧
      (S.ShortRead (path ++ [name, file]) len ↔ content.length < len) := by
  rw [usbgReadBufLimited]
  by_cases hfits : (path ++ [name, file]).Fits
  · rw [if_pos hfits]
    cases hopen : S.fopen (path ++ [name, file]) with
    | refused e =>
      refine .inl ⟨usbgTranslateError e, [], rfl, ?_⟩
      rintro ⟨-, content, hcontent, -⟩
      cases hopen.symm.trans hcontent
    | opened content broken =>
      by_cases hbroken : (content.take len).length < len ∧ broken
      · refine .inl ⟨.io, content.take len, if_pos hbroken, ?_⟩
        rintro ⟨-, content', hcontent, -⟩
        cases hopen.symm.trans hcontent
        exact absurd hbroken.2 (by decide)
      · refine .inr ⟨content, broken, rfl, if_neg hbroken, ?_⟩
        constructor
        · rintro ⟨-, content', hcontent, hshort⟩
          cases hopen.symm.trans hcontent
          exact hshort
        · intro hshort
          have hlength : (content.take len).length < len := by
            rw [List.length_take]
            omega
          cases broken with
          | false => exact ⟨hfits, content, hopen, hshort⟩
          | true => exact absurd ⟨hlength, rfl⟩ hbroken
  · exact .inl ⟨.pathTooLong, [], if_neg hfits, fun h => hfits h.1⟩

/-- The string in a buffer that has been filled with the front of a file. -/
lemma line_take (content : CStr) (n : ℕ) : untilNewline (ofBuffer (content.take n)) =
    (content.takeWhile fun c => c ≠ '\x00' ∧ c ≠ '\n').take n := by
  have hboth : firstLine content = content.takeWhile fun c => c ≠ '\x00' ∧ c ≠ '\n' := by
    rw [firstLine, untilNewline, ofBuffer, List.takeWhile_takeWhile]
    congr 1
    funext c
    simp [and_comm]
  rw [firstLine_take, hboth]

/-- Where the buffer is terminated, all is kept that it can hold. -/
lemma take_terminated (content : CStr) (hlen : 1 ≤ len) :
    (content.take len).take (if ((content.take len).length : ℤ) < len - 1 then
      ((content.take len).length : ℤ).toNat else len - 1) = content.take (len - 1) := by
  split
  · next hless =>
    rw [List.length_take] at hless
    rw [Int.toNat_natCast, List.take_length, List.take_of_length_le (by omega), List.take_of_length_le (by omega)]
  · rw [List.take_take, min_eq_left (by omega)]

lemma usbgReadStringAlloc_convention (S : Surroundings) (path : Path) (name file : CStr) :
    Convention (S.IsLine (path ++ [name, file])) (usbgReadStringAlloc S path name file) := by
  rw [usbgReadStringAlloc, usbgReadStringLimited]
  obtain ⟨e, buf, hread, -⟩ | ⟨content, broken, hopen, hread, -⟩ :=
    usbgReadBufLimited_cases S path name file usbgMaxFileSize
  · rw [hread]
    have hneg : ¬ 0 ≤ e.code := not_le.mpr e.code_neg
    simp only [hneg, if_false, e.code_neg.ne, ne_eq, not_false_eq_true, if_true]
    exact .of_error _ e
  · rw [hread]
    simp only [Int.natCast_nonneg, if_true, ne_eq, not_true_eq_false, if_false]
    split
    · refine .of_stored ⟨content, broken, hopen, ?_⟩
      rw [take_terminated content (by decide), line_take]
    · exact .of_error _ .noMem

lemma usbgReadInt_convention (S : Surroundings) (path : Path) (name file : CStr) (base : ℕ) :
    Convention (fun _ => True) (usbgReadInt S path name file base) := by
  rw [usbgReadInt, usbgReadBuf]
  obtain ⟨e, buf, hread, -⟩ | ⟨content, broken, hopen, hread, -⟩ :=
    usbgReadBufLimited_cases S path name file usbgMaxStrLength
  · rw [hread]
    have hneg : ¬ 0 ≤ e.code := not_le.mpr e.code_neg
    simp only [hneg, if_false]
    exact .of_error _ e
  · rw [hread]
    simp only [Int.natCast_nonneg, if_true]
    exact .of_stored trivial

lemma usbgReadBool_convention (S : Surroundings) (path : Path) (name file : CStr) :
    Convention (fun _ => True) (usbgReadBool S path name file) := by
  have hint := usbgReadInt_convention S path name file 10
  rw [usbgReadBool, usbgReadDec]
  by_cases hret : (usbgReadInt S path name file 10).1 = 0
  · obtain ⟨v, hv, -⟩ := hint.kept hret
    simp only [hret, hv, ne_eq, not_true_eq_false, if_false, Option.map_some]
    exact .of_stored trivial
  · obtain ⟨e, he⟩ := hint.ret.resolve_left hret
    simp only [he, e.code_neg.ne, ne_eq, not_false_eq_true, if_true]
    exact .of_error _ e

/-- The reader of a fixed number of bytes keeps the convention where the file has them. -/
lemma usbgReadBufAlloc_convention_iff :
    Convention (S.IsFront (path ++ [name, file]) len) (usbgReadBufAlloc S path name file len) ↔
      ¬ S.ShortRead (path ++ [name, file]) len := by
  rw [usbgReadBufAlloc]
  obtain ⟨e, buf, hread, hfull⟩ | ⟨content, broken, hopen, hread, hshort⟩ :=
    usbgReadBufLimited_cases S path name file len
  · have hne : e.code ≠ len := by
      have := e.code_neg
      omega
    simp only [hread, hne, ne_eq, not_false_eq_true, if_true, hfull, iff_true]
    exact .of_error _ e
  · rw [hread, hshort, not_lt]
    constructor
    · intro h
      by_contra hless
      have hlength : (content.take len).length = content.length := by
        rw [List.length_take]
        omega
      have hne : (content.length : ℤ) ≠ len := by omega
      simp only [hlength, hne, ne_eq, not_false_eq_true, if_true] at h
      -- no error is positive, and after 0 something would have been stored
      have hzero : (content.length : ℤ) = 0 := le_antisymm h.nonpos (by omega)
      obtain ⟨a, ha, -⟩ := h.kept hzero
      cases ha
    · intro hle
      have hlength : (content.take len).length = len := by
        rw [List.length_take]
        omega
      simp only [hlength, ne_eq, not_true_eq_false, if_false, List.take_take, min_self]
      split
      · exact .of_stored ⟨content, broken, hopen, rfl, hlength⟩
      · exact .of_error _ .noMem

/-- The readers keep the convention exactly where the file is not too short for the length asked for. -/
theorem readers_convention_iff (S : Surroundings) (path : Path) (name file : CStr) (len : ℕ) :
    (Convention (S.IsLine (path ++ [name, file])) (usbgReadStringAlloc S path name file) ∧
      Convention (fun _ => True) (usbgReadBool S path name file) ∧
      Convention (S.IsFront (path ++ [name, file]) len) (usbgReadBufAlloc S path name file len)) ↔
    ¬ S.ShortRead (path ++ [name, file]) len := by
  constructor
  · rintro ⟨-, -, h⟩
    exact usbgReadBufAlloc_convention_iff.mp h
  · intro h
    exact ⟨usbgReadStringAlloc_convention S path name file, usbgReadBool_convention S path name file,
      usbgReadBufAlloc_convention_iff.mpr h⟩

/-- A file of a GUID that has some of its bytes only. -/
def shortGuid (content : CStr) : Surroundings := ⟨fun _ => .opened content false, true, []⟩

/-- Of two bytes the reader returns the number; of none it returns 0, and has stored nothing. -/
theorem readers_convention_short :
    ¬ (∀ (S : Surroundings) (path : Path) (name file : CStr) (len : ℕ), len ≤ usbgMaxFileSize →
      Convention (S.IsLine (path ++ [name, file])) (usbgReadStringAlloc S path name file) ∧
        Convention (fun _ => True) (usbgReadBool S path name file) ∧
        Convention (S.IsFront (path ++ [name, file]) len) (usbgReadBufAlloc S path name file len)) ∧
    usbgReadBufAlloc (shortGuid "ab".toList) ["u".toList] [] "guidFormat".toList guidBinLength = (2, none) ∧
    usbgReadBufAlloc (shortGuid []) ["u".toList] [] "guidFormat".toList guidBinLength = (0, none) := by
  refine ⟨fun h => ?_, by decide +kernel, by decide +kernel⟩
  have htwo := (h (shortGuid "ab".toList) ["u".toList] [] "guidFormat".toList guidBinLength (by decide)).2.2.nonpos
  revert htwo
  decide +kernel

/-! ## The attributes of a format -/

lemma firstNonzero_eq_zero_or {α : Type} (ret : α → ℤ) (l : List α) :
    firstNonzero ret l = 0 ∨ ∃ a ∈ l, firstNonzero ret l = ret a := by
  induction l with
  | nil => exact .inl rfl
  | cons a l ih =>
    rw [firstNonzero]
    split
    · exact .inr ⟨a, List.mem_cons_self, rfl⟩
    · refine ih.imp id ?_
      rintro ⟨b, hb, hret⟩
      exact ⟨b, List.mem_cons_of_mem a hb, hret⟩

/-- What the getter of an attribute returns is passed on: where the GUID is not too short, 0 or an error. -/
theorem usbgFUvcGetFormatAttrs_code (S : Surroundings) (f : Func) (format : Path)
    (hguid : ¬ S.ShortRead (uvcFormatPath f format ++ [[], "guidFormat".toList]) guidBinLength) :
    usbgFUvcGetFormatAttrs S f format = 0 ∨ ∃ e : UsbgError, usbgFUvcGetFormatAttrs S f format = e.code := by
  have hattr : ∀ a ∈ uvcFormatAttr, (usbgFUvcGetFormatAttrVal S f format a).1 = 0 ∨
      ∃ e : UsbgError, (usbgFUvcGetFormatAttrVal S f format a).1 = e.code := by
    intro a ha
    rw [usbgFUvcGetFormatAttrVal]
    split
    · split
      · next hkind =>
        have hname : ∀ a ∈ uvcFormatAttr, a.kind = .guid → a.name = "guidFormat".toList := by decide
        rw [hname a ha hkind]
        exact (usbgReadBufAlloc_convention_iff.mpr hguid).ret
      · exact (usbgReadInt_convention S _ _ _ 10).ret
    · exact .inr ⟨.pathTooLong, rfl⟩
  rw [usbgFUvcGetFormatAttrs]
  rcases firstNonzero_eq_zero_or (fun a => (usbgFUvcGetFormatAttrVal S f format a).1) uvcFormatAttr with hret | ⟨a, ha, hret⟩
  · exact .inl hret
  · rw [hret]
    exact hattr a ha

example : usbgFUvcGetFormatAttrs (shortGuid "ab".toList) (plainFunc .uvc) uvcPathStreamingMjpeg = 2 := by
  decide +kernel

end Raw

/-! ## What the callers see -/

/-- What a function returns that ends so, and what it has stored. -/
def report {α : Type} : Outcome UsbgError α → ℤ × Option α
  | .ok a => (0, some a)
  | .fail e => (e.code, none)
  | .undef => (0, none)

/-- The answer to a read of a file that needs `len` bytes of it. -/
def Stream.answer (len : ℕ) : Stream → Except Errno CStr
  | .refused e => .error e
  | .opened content broken => if content.length < len ∧ broken then .error .eio else .ok content

section

variable {κ : Type} {K : Kernel κ} {S : Surroundings} {path : Path} {name file : CStr} {len : ℕ} {w : World κ}

/-- The lower reader, and the call that stands for it. -/
lemma usbgReadBufLimited_report
    (hread : (K.call (.read (path ++ [name, file])) w.sys).1 = (S.fopen (path ++ [name, file])).answer len) :
    (∃ e buf w', Raw.usbgReadBufLimited S path name file len = (e.code, buf) ∧
      usbgReadBufLimited K path name file len w = (.fail e, w')) ∨
    ∃ buf, Raw.usbgReadBufLimited S path name file len = ((buf.length : ℤ), buf) ∧ buf.length ≤ len ∧
      usbgReadBufLimited K path name file len w =
        (.ok buf, { w with sys := (K.call (.read (path ++ [name, file])) w.sys).2 }) := by
  rw [usbgReadBufLimited, Raw.usbgReadBufLimited]
  by_cases hfits : (path ++ [name, file]).Fits
  · rw [if_pos hfits, require_of hfits, pure_bind]
    cases hopen : S.fopen (path ++ [name, file]) with
    | refused e =>
      rw [hopen] at hread
      exact .inl ⟨usbgTranslateError e, [], _, rfl, bind_fail (call_of_error K hread)⟩
    | opened content broken =>
      rw [hopen, Stream.answer] at hread
      have hlength : (content.take len).length < len ↔ content.length < len := by
        rw [List.length_take]
        omega
      by_cases hbroken : content.length < len ∧ broken
      · rw [if_pos hbroken] at hread
        exact .inl ⟨.io, _, _, if_pos ⟨hlength.mpr hbroken.1, hbroken.2⟩, bind_fail (call_of_error K hread)⟩
      · rw [if_neg hbroken] at hread
        refine .inr ⟨content.take len, if_neg fun h => hbroken ⟨hlength.mp h.1, h.2⟩, List.length_take_le _ _, ?_⟩
        exact (bind_ok (call_of_ok K hread)).trans (pure_apply _ _)
  · rw [if_neg hfits, require_of_not hfits]
    exact .inl ⟨.pathTooLong, [], w, rfl, rfl⟩

/-- A string is stored, and an error reported, as the model of the callers has it. -/
theorem usbgReadStringAlloc_report (hmem : S.mem = true)
    (hread : (K.call (.read (path ++ [name, file])) w.sys).1 =
      (S.fopen (path ++ [name, file])).answer usbgMaxFileSize) :
    Raw.usbgReadStringAlloc S path name file = report (usbgReadStringAlloc K path name file w).1 := by
  rw [Raw.usbgReadStringAlloc, Raw.usbgReadStringLimited, usbgReadStringAlloc, usbgReadStringLimited]
  obtain ⟨e, buf, w', hraw, hrun⟩ | ⟨buf, hraw, hle, hrun⟩ := usbgReadBufLimited_report hread
  · rw [hraw, bind_fail hrun]
    have hneg : ¬ 0 ≤ e.code := not_le.mpr e.code_neg
    simp only [hneg, if_false, e.code_neg.ne, ne_eq, not_false_eq_true, if_true]
    rfl
  · rw [hraw, bind_ok hrun]
    have htake := @Raw.take_terminated usbgMaxFileSize buf (by decide)
    rw [List.take_of_length_le hle] at htake
    simp only [Int.natCast_nonneg, if_true, ne_eq, not_true_eq_false, if_false, hmem, htake]
    rfl

theorem usbgReadBool_report (hstale : S.stale = K.stale (K.call (.read (path ++ [name, file])) w.sys).2)
    (hread : (K.call (.read (path ++ [name, file])) w.sys).1 =
      (S.fopen (path ++ [name, file])).answer usbgMaxStrLength) :
    Raw.usbgReadBool S path name file = report (usbgReadBool K path name file w).1 := by
  rw [Raw.usbgReadBool, Raw.usbgReadDec, Raw.usbgReadInt, Raw.usbgReadBuf, usbgReadBool, usbgReadDec, usbgReadInt, usbgReadBuf]
  obtain ⟨e, buf, w', hraw, hrun⟩ | ⟨buf, hraw, -, hrun⟩ := usbgReadBufLimited_report hread
  · rw [hraw, bind_fail (bind_fail hrun)]
    have hneg : ¬ 0 ≤ e.code := not_le.mpr e.code_neg
    simp only [hneg, if_false, e.code_neg.ne, ne_eq, not_false_eq_true, if_true]
    rfl
  · rw [hraw, Prog.bind_assoc, bind_ok hrun]
    simp only [Int.natCast_nonneg, if_true, ne_eq, not_true_eq_false, if_false, hstale]
    rfl

/-- The callers of the last reader take a positive number for an error, and the model has one in its place. -/
theorem usbgGetGuid_report (hmem : S.mem = true)
    (hread : (K.call (.read (path ++ [name, file])) w.sys).1 =
      (S.fopen (path ++ [name, file])).answer guidBinLength) :
    report (usbgGetGuid K path name file w).1 =
      if 0 < (Raw.usbgGetGuid S path name file).1 then (UsbgError.otherError.code, none)
      else Raw.usbgGetGuid S path name file := by
  rw [Raw.usbgGetGuid, Raw.usbgReadBufAlloc, usbgGetGuid]
  obtain ⟨e, buf, w', hraw, hrun⟩ | ⟨buf, hraw, hle, hrun⟩ := usbgReadBufLimited_report hread
  · rw [hraw, bind_fail hrun]
    have hneg := e.code_neg
    have hne : e.code ≠ guidBinLength := by
      have := Int.natCast_nonneg guidBinLength
      omega
    simp only [hne, ne_eq, not_false_eq_true, if_true, hneg.not_gt, if_false]
    rfl
  · rw [hraw, bind_ok hrun]
    by_cases hempty : buf = []
    · subst hempty
      rfl
    · rw [if_neg hempty]
      have hpos := List.length_pos_iff.mpr hempty
      by_cases hlen : buf.length = guidBinLength
      · rw [require_of hlen]
        simp [hlen, hmem, List.take_of_length_le hle, report]
      · have hne : (buf.length : ℤ) ≠ guidBinLength := by omega
        rw [require_of_not hlen]
        simp [hne, hpos, report]

end

end Libusbgx
