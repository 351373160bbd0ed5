import Libusbgx.Attributes.Files
import Libusbgx.Source.Function.Buffer

/-!
# Getters with a buffer

A getter with a buffer is documented to return the length of the whole string, as `snprintf` does.  The
four of them return the length of what is in the buffer, and one reads a file of another name.
-/

namespace Libusbgx

open Prog Machine

/-- The string attributes that can be read into a buffer. -/
inductive StringAttr where
  | lunFile (lunId : ℤ)
  | netIfname
  | midiId
  | phonetIfname
deriving DecidableEq, Repr

namespace StringAttr

/-- The getter that allocates memory. -/
def getAlloc {κ : Type} (K : Kernel κ) : StringAttr → On κ Func AttrVal
  | .lunFile lunId => usbgFMsGetLunFile K lunId
  | .netIfname => do
    let f ← self
    io (usbgFNetGetIfname K f (.string none))
  | .midiId => do
    let f ← self
    io (usbgFMidiGetId K f)
  | .phonetIfname => do
    let f ← self
    let s ← io (usbgFPhonetGetIfname K f)
    pure (.string (some s))

/-- The getter with a buffer of `len` bytes. -/
def getBuffer {κ : Type} (K : Kernel κ) (len : ℕ) : StringAttr → On κ Func (CStr × ℕ)
  | .lunFile lunId => usbgFMsGetLunFileS K lunId len
  | .netIfname => do
    let f ← self
    io (usbgFNetGetIfnameS K f len)
  | .midiId => do
    let f ← self
    io (usbgFMidiGetIdS K f len)
  | .phonetIfname => do
    let f ← self
    io (usbgFPhonetGetIfnameS K f len)

/-- The path of the file that the getter without a buffer reads. -/
def file (f : Func) : StringAttr → Path
  | .lunFile lunId => lunPath f lunId ++ [[], msLunFile.name]
  | .netIfname | .phonetIfname => f.path ++ [f.name, "ifname".toList]
  | .midiId => f.path ++ [f.name, "id".toList]

end StringAttr

/-- What the two getters should have in common: they end in the same state, having made the same calls; the
one with a buffer stores as much of the string of the other as there is room for, and returns the length
of the string, or the same error. -/
def SameString {σ : Type} (len : ℕ) (buffer : Outcome UsbgError (CStr × ℕ) × σ) (alloc : Outcome UsbgError AttrVal × σ) :
    Prop :=
  buffer.2 = alloc.2 ∧
    match alloc.1 with
    | .ok (.string (some s)) => buffer.1 = .ok (s.take (min (len - 1) s.length), s.length)
    | .fail e => buffer.1 = .fail e
    | _ => False

/-- Started in the same state, the two getters of an attribute agree. -/
def StringAttr.Agree (a : StringAttr) (M : Machine) (len : ℕ) (w : World Fs) (f : Func) : Prop :=
  SameString len (a.getBuffer M.kernel len (w, f)) (a.getAlloc M.kernel (w, f))


/-- The string in a file, however long it is. -/
def firstLine (content : CStr) : CStr := untilNewline (ofBuffer content)

/-- A buffer of the length takes the string of the file, and so does the one of the library; or the two are
of the same length. -/
def RoomFor (len : ℕ) (content : CStr) : Prop :=
  (firstLine content).length < usbgMaxFileSize ∧ (firstLine content).length < len ∨ len = usbgMaxFileSize

/-- When the two getters of an attribute agree. -/
def StringAttr.Fine (a : StringAttr) (M : Machine) (len : ℕ) (w : World Fs) (f : Func) : Prop :=
  (a.file f).Fits → (∀ lunId, a ≠ .lunFile lunId) ∧
    ∀ content, (M.kernel.call (.read (a.file f)) w.sys).1 = .ok content → RoomFor len content

/-! ## Reading a string -/

section

variable {κ : Type} {K : Kernel κ} {path : Path} {name file content : CStr} {len : ℕ} {w : World κ}

lemma firstLine_take (content : CStr) (n : ℕ) :
    untilNewline (ofBuffer (content.take n)) = (firstLine content).take n := by
  rw [firstLine, untilNewline, untilNewline, ofBuffer, ofBuffer, List.take_takeWhile, List.take_takeWhile]

/-- Cut after `n` characters, and then after `m`. -/
lemma firstLine_min (content : CStr) (hlen : 1 ≤ len) : untilNewline (ofBuffer ((content.take len).take (len - 1))) =
    (firstLine content).take (len - 1) := by
  rw [List.take_take, min_eq_left (by omega), firstLine_take]

/-- How a string is read into a buffer: the call and its answer do not depend on the size of the buffer. -/
lemma usbgReadStringLimited_eq (path : Path) (name file : CStr) (hlen : 1 ≤ len) : usbgReadStringLimited K path name file len w =
    if (path ++ [name, file]).Fits then
      (match (K.call (.read (path ++ [name, file])) w.sys).1 with
        | .ok content => .ok ((firstLine content).take (len - 1))
        | .error e => .fail (usbgTranslateError e),
        { w with sys := (K.call (.read (path ++ [name, file])) w.sys).2 })
    else (.fail .pathTooLong, w) := by
  rw [usbgReadStringLimited, usbgReadBufLimited]
  split
  · next hfits =>
    rw [require_of hfits, pure_bind, Prog.bind_assoc]
    cases hread : (K.call (.read (path ++ [name, file])) w.sys).1 with
    | ok content =>
      refine (bind_ok (call_of_ok K hread)).trans ?_
      rw [pure_bind, pure_apply, firstLine_min content hlen]
    | error e =>
      exact bind_fail (call_of_error K hread)
  · next hfits =>
    rw [require_of_not hfits]
    rfl

/-- What a buffer holds of a line is as much as there is room for, of the line that the library holds. -/
lemma take_eq_iff (line : CStr) (hlen : 1 ≤ len) :
    (line.take (len - 1), (line.take (len - 1)).length) =
        ((line.take (usbgMaxFileSize - 1)).take (min (len - 1) (line.take (usbgMaxFileSize - 1)).length),
          (line.take (usbgMaxFileSize - 1)).length) ↔
      line.length < usbgMaxFileSize ∧ line.length < len ∨ len = usbgMaxFileSize := by
  have hpos : 1 ≤ usbgMaxFileSize := by decide
  constructor
  · intro h
    have hlength := congrArg Prod.snd h
    simp only [List.length_take] at hlength
    omega
  · rintro (⟨hfile, hbuf⟩ | rfl)
    · rw [List.take_of_length_le (l := line) (i := len - 1) (by omega),
        List.take_of_length_le (l := line) (i := usbgMaxFileSize - 1) (by omega), min_eq_right (by omega), List.take_length]
    · rw [List.take_of_length_le (l := line.take (usbgMaxFileSize - 1))]
      rw [List.length_take]
      omega

end

/-! ## The four getters -/

namespace StringAttr

variable {a : StringAttr} {M : Machine} {w : World Fs} {f : Func} {len : ℕ}

/-- The two getters of a file in the directory of the function. -/
lemma agree_iff {path : Path} {name file : CStr} (hlen : 1 ≤ len)
    (halloc : a.getAlloc M.kernel (w, f) =
      (io (usbgReadStringAlloc M.kernel path name file) >>= fun s => pure (.string (some s))) (w, f))
    (hbuffer : a.getBuffer M.kernel len (w, f) = io (readIntoBuffer M.kernel path name file len) (w, f)) :
    a.Agree M len w f ↔ ((path ++ [name, file]).Fits → ∀ content,
      (M.kernel.call (.read (path ++ [name, file])) w.sys).1 = .ok content → RoomFor len content) := by
  have hmax : 1 ≤ usbgMaxFileSize := by decide
  have hshort := usbgReadStringLimited_eq (K := M.kernel) (w := w) path name file hlen
  have hlong : usbgReadStringAlloc M.kernel path name file w = _ := usbgReadStringLimited_eq path name file hmax
  -- both end in the same way where the file cannot be read
  have hfailed : ∀ e w', usbgReadStringLimited M.kernel path name file len w = (.fail e, w') →
      usbgReadStringAlloc M.kernel path name file w = (.fail e, w') → a.Agree M len w f := by
    intro e w' hshort hlong
    have hb : a.getBuffer M.kernel len (w, f) = (.fail e, (w', f)) := hbuffer.trans (io_fail (bind_fail hshort))
    have ha : a.getAlloc M.kernel (w, f) = (.fail e, (w', f)) := halloc.trans (bind_fail (io_fail hlong))
    rw [Agree, hb, ha]
    exact ⟨rfl, rfl⟩
  by_cases hfits : (path ++ [name, file]).Fits
  · rw [if_pos hfits] at hshort hlong
    cases hread : (M.kernel.call (.read (path ++ [name, file])) w.sys).1 with
    | error e =>
      rw [hread] at hshort hlong
      exact ⟨fun _ _ content hcontent => (by cases hcontent), fun _ => hfailed _ _ hshort hlong⟩
    | ok content =>
      rw [hread] at hshort hlong
      have hb := hbuffer.trans (io_ok (s := (w, f)) (bind_ok hshort))
      have ha := halloc.trans ((bind_ok (io_ok (s := (w, f)) hlong)).trans (pure_apply _ _))
      have hroom := take_eq_iff (firstLine content) hlen
      rw [Agree, hb, ha]
      constructor
      · intro h _ content' hcontent
        obtain rfl := Except.ok.inj hcontent
        exact hroom.mp (Outcome.ok.inj h.2)
      · exact fun h => ⟨rfl, congrArg Outcome.ok (hroom.mpr (h hfits content rfl))⟩
  · rw [if_neg hfits] at hshort hlong
    exact ⟨fun _ h => absurd h hfits, fun _ => hfailed _ _ hshort hlong⟩

/-- What is made of a value leaves the state as it is. -/
lemma snd_bind_pure {σ α β : Type} (m : Prog UsbgError σ α) (g : α → β) (s : σ) :
    ((m >>= fun a => pure (g a)) s).2 = (m s).2 := by
  rw [bind_apply]
  rcases m s with ⟨_ | _ | _, t⟩ <;> rfl

/-- The two getters of the file behind a unit read different files. -/
lemma agree_lunFile (hlen : 1 ≤ len) (lunId : ℤ) :
    (lunFile lunId).Agree M len w f ↔ ¬ (lunPath f lunId ++ [[], msLunFile.name]).Fits := by
  have hmax : 1 ≤ usbgMaxFileSize := by decide
  have hbuffer : (lunFile lunId).getBuffer M.kernel len (w, f) = (require (lunPath f lunId).Fits .pathTooLong >>= fun _ =>
      io (readIntoBuffer M.kernel (lunPath f lunId) [] "filename".toList len)) (w, f) := rfl
  have halloc : (lunFile lunId).getAlloc M.kernel (w, f) = (require (lunPath f lunId).Fits .pathTooLong >>= fun _ =>
      io (usbgReadStringAlloc M.kernel (lunPath f lunId) [] msLunFile.name) >>= fun s => pure (.string (some s)))
      (w, f) := rfl
  have hlonger : (lunPath f lunId ++ [[], "filename".toList]).Fits → (lunPath f lunId ++ [[], msLunFile.name]).Fits := by
    intro h
    refine lt_of_le_of_lt ?_ h
    simp [Path.len, msLunFile, Attr.rw]
  rw [Agree, hbuffer, halloc]
  constructor
  · -- the two calls read different files, which the log shows
    rintro ⟨hstate, -⟩ hfits
    have hlun : (lunPath f lunId).Fits := prefix_fits (List.prefix_append ..) hfits
    rw [require_of hlun, pure_bind, pure_bind, snd_bind_pure, io_apply, io_apply] at hstate
    have hlog : (readIntoBuffer M.kernel (lunPath f lunId) [] "filename".toList len w).2.sys.log =
        (usbgReadStringLimited M.kernel (lunPath f lunId) [] msLunFile.name usbgMaxFileSize w).2.sys.log :=
      congrArg (fun s : World Fs × Func => s.1.sys.log) hstate
    rw [readIntoBuffer, snd_bind_pure, usbgReadStringLimited_eq _ _ _ hlen, usbgReadStringLimited_eq _ _ _ hmax,
      if_pos hfits] at hlog
    dsimp only at hlog
    rw [log_kernel] at hlog
    split at hlog
    · dsimp only at hlog
      rw [log_kernel, List.cons.injEq, Syscall.read.injEq] at hlog
      have hname := List.append_cancel_left hlog.1
      revert hname
      decide
    · exact absurd (congrArg List.length hlog) (by simp)
  · intro hfits
    by_cases hlun : (lunPath f lunId).Fits
    · rw [require_of hlun, pure_bind, pure_bind]
      have hshort := usbgReadStringLimited_eq (K := M.kernel) (w := w) (lunPath f lunId) [] "filename".toList hlen
      have hlong : usbgReadStringAlloc M.kernel (lunPath f lunId) [] msLunFile.name w = _ :=
        usbgReadStringLimited_eq (lunPath f lunId) [] msLunFile.name hmax
      rw [if_neg fun h => hfits (hlonger h)] at hshort
      rw [if_neg hfits] at hlong
      have hb : io (readIntoBuffer M.kernel (lunPath f lunId) [] "filename".toList len) (w, f) =
          (.fail .pathTooLong, (w, f)) := io_fail (bind_fail hshort)
      rw [hb, bind_fail (io_fail (s := (w, f)) hlong)]
      exact ⟨rfl, rfl⟩
    · rw [require_of_not hlun, fail_bind, fail_bind]
      exact ⟨rfl, rfl⟩

end StringAttr

/-- The getters with a buffer agree with the others exactly when there is room for the whole string; that
of a unit agrees only where neither can read anything. -/
theorem stringGetters_iff (a : StringAttr) (M : Machine) (len : ℕ) (hlen : 1 ≤ len) (w : World Fs) (f : Func) :
    a.Agree M len w f ↔ a.Fine M len w f := by
  have hjoin : ∀ (path : Path) (name file : CStr), io (κ := Fs) (τ := Func) (do
      let s ← usbgReadStringAlloc M.kernel path name file
      pure (AttrVal.string (some s))) (w, f) =
        (io (usbgReadStringAlloc M.kernel path name file) >>= fun s => pure (.string (some s))) (w, f) := by
    intro path name file
    rw [io_apply, bind_apply, bind_apply, io_apply]
    rcases usbgReadStringAlloc M.kernel path name file w with ⟨_ | _ | _, w'⟩ <;> rfl
  cases a with
  | lunFile lunId =>
    rw [StringAttr.agree_lunFile hlen]
    exact ⟨fun h hfits => absurd hfits h, fun h hfits => (h hfits).1 lunId rfl⟩
  | netIfname =>
    have halloc : StringAttr.netIfname.getAlloc M.kernel (w, f) = _ := hjoin f.path f.name _
    rw [StringAttr.agree_iff hlen halloc rfl]
    exact ⟨fun h hfits => ⟨by simp, h hfits⟩, fun h hfits => (h hfits).2⟩
  | midiId =>
    have halloc : StringAttr.midiId.getAlloc M.kernel (w, f) = _ := hjoin f.path f.name _
    rw [StringAttr.agree_iff hlen halloc rfl]
    exact ⟨fun h hfits => ⟨by simp, h hfits⟩, fun h hfits => (h hfits).2⟩
  | phonetIfname =>
    have hbuffer : StringAttr.phonetIfname.getBuffer M.kernel len (w, f) =
        io (readIntoBuffer M.kernel f.path f.name "ifname".toList len) (w, f) := rfl
    rw [StringAttr.agree_iff hlen rfl hbuffer]
    exact ⟨fun h hfits => ⟨by simp, h hfits⟩, fun h hfits => (h hfits).2⟩
/-- The file that names the interface of a function, or is behind its first unit. -/
def stringTree (a : StringAttr) (type : FunctionType) (content : CStr) : Tree :=
  ⟨[((a.file (plainFunc type)).resolve, .file content)], List.nodup_singleton _⟩

/-- The name of an interface in a buffer that is large enough. -/
theorem stringGetters_phonet : StringAttr.phonetIfname.Agree willing 16
    (worldOf (stringTree .phonetIfname .phonet "upnlink0\n".toList)) (plainFunc .phonet) := by
  refine (stringGetters_iff .phonetIfname willing 16 (by decide) _ _).mpr fun _ => ⟨by simp, fun content hread => ?_⟩
  have hcontent : (willing.kernel.call (.read (StringAttr.phonetIfname.file (plainFunc .phonet)))
      (worldOf (stringTree .phonetIfname .phonet "upnlink0\n".toList)).sys).1 = .ok "upnlink0\n".toList := rfl
  obtain rfl := Except.ok.inj (hcontent.symm.trans hread)
  exact .inl (by decide)

/-- A buffer of four bytes has no room for this name, and its length is not reported; the file behind a
unit is not read at all. -/
theorem stringGetters_fail :
    ¬ StringAttr.netIfname.Agree willing 4 (worldOf (stringTree .netIfname .ecm "usb0\n".toList)) (plainFunc .ecm) ∧
      ¬ (StringAttr.lunFile 0).Agree willing 256 (worldOf (stringTree (.lunFile 0) .massStorage "disk\n".toList))
        (plainFunc .massStorage) := by
  constructor
  · intro h
    have halloc : (StringAttr.netIfname.getAlloc willing.kernel
        (worldOf (stringTree .netIfname .ecm "usb0\n".toList), plainFunc .ecm)).1 =
        .ok (.string (some "usb0".toList)) := by
      decide +kernel
    have hbuffer : (StringAttr.netIfname.getBuffer willing.kernel 4
        (worldOf (stringTree .netIfname .ecm "usb0\n".toList), plainFunc .ecm)).1 = .ok ("usb".toList, 3) := by
      decide +kernel
    have hsame := h.2
    rw [halloc, hbuffer] at hsame
    revert hsame
    decide
  · intro h
    have halloc : ((StringAttr.lunFile 0).getAlloc willing.kernel
        (worldOf (stringTree (.lunFile 0) .massStorage "disk\n".toList), plainFunc .massStorage)).1 =
        .ok (.string (some "disk".toList)) := by
      decide +kernel
    have hbuffer : ((StringAttr.lunFile 0).getBuffer willing.kernel 256
        (worldOf (stringTree (.lunFile 0) .massStorage "disk\n".toList), plainFunc .massStorage)).1 = .fail .notFound := by
      decide +kernel
    have hsame := h.2
    rw [halloc, hbuffer] at hsame
    cases hsame


end Libusbgx
