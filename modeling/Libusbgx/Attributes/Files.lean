import Libusbgx.Configfs.Calls
import Libusbgx.Source.Function.Export
import Mathlib.Data.List.TakeWhile

/-!
# Attribute files

What an attribute file holds, what `get` makes of it, and what a loop over a table does to the
files and to the nodes of a scheme.
-/

namespace Libusbgx

open Prog Machine

/-! ## Contents -/

/-- The content of a file stands for the value, whatever the bytes behind it in the buffer are. -/
def AttrVal.HeldBy (content : CStr) : AttrVal → Prop
  | .int v => ∀ stale,
      toInt (strtol 10 (ofBuffer (content.take usbgMaxStrLength ++ stale))).value = v
  | .bool b => ∀ stale,
      decide (toInt (strtol 10 (ofBuffer (content.take usbgMaxStrLength ++ stale))).value ≠ 0) = b
  | .string s => s = some (untilNewline (ofBuffer (content.take (usbgMaxFileSize - 1))))
  | .etherAddr o =>
      etherAton (untilNewline (ofBuffer (content.take (usbgMaxStrLength - 1)))) = some o
  | .reportDesc d => d = content.take usbgMaxStrLength

/-- What is written for a value. -/
def AttrVal.rendered : AttrVal → CStr
  | .int v => printDec v ++ ['\n']
  | .bool b => printDec (if b then 1 else 0) ++ ['\n']
  | .string s => s.getD []
  | .etherAddr o => usbgEtherNtoa o
  | .reportDesc d => if d = [] then ['\x00'] else d

/-- The union holds a value of the type that the callbacks take. -/
def AttrKind.takes : AttrKind → AttrVal → Bool
  | .dec, .int _ => true
  | .bool, .bool _ => true
  | .string, .string (some _) => true
  | .etherAddr, .etherAddr _ => true
  | .reportDesc, .reportDesc _ => true
  | _, _ => false

@[inherit_doc AttrKind.takes]
def AttrKind.Takes (kind : AttrKind) (val : AttrVal) : Prop := kind.takes val = true

instance (kind : AttrKind) (val : AttrVal) : Decidable (kind.Takes val) :=
  inferInstanceAs (Decidable (_ = true))

/-- The node of a value. -/
def AttrVal.node : AttrVal → Setting
  | .int v => .int v
  | .bool b => .bool b
  | .string s => .string (s.getD [])
  | .etherAddr o => .string (usbgEtherNtoa o)
  | .reportDesc d => .list (d.map fun c => .int (charToInt c))

lemma mem_takeWhile {p : Char → Bool} {s : CStr} {c : Char} (h : c ∈ s.takeWhile p) : p c = true := by
  have hall := List.all_takeWhile (p := p) (l := s)
  exact List.all_eq_true.mp hall c h

/-- A string that has been read has no NUL, no newline, and fits in the buffer. -/
lemma untilNewline_read {s : CStr} {n : ℕ} :
    untilNewline (ofBuffer ((untilNewline (ofBuffer (s.take n))).take n)) =
      untilNewline (ofBuffer (s.take n)) := by
  obtain ⟨t, ht⟩ : ∃ t, untilNewline (ofBuffer (s.take n)) = t := ⟨_, rfl⟩
  have hlen : t.length ≤ n := by
    rw [← ht, untilNewline, ofBuffer]
    calc ((s.take n).takeWhile (· ≠ '\x00') |>.takeWhile (· ≠ '\n')).length
        ≤ ((s.take n).takeWhile (· ≠ '\x00')).length := (List.takeWhile_sublist _).length_le
      _ ≤ (s.take n).length := (List.takeWhile_sublist _).length_le
      _ ≤ n := by simp
  have hnl : ∀ c ∈ t, decide (c ≠ '\n') = true := by
    intro c hc
    rw [← ht] at hc
    exact mem_takeWhile hc
  have hnul : ∀ c ∈ t, decide (c ≠ '\x00') = true := by
    intro c hc
    rw [← ht] at hc
    exact mem_takeWhile ((List.takeWhile_sublist _).subset hc)
  rw [ht, List.take_of_length_le hlen, ofBuffer, List.takeWhile_eq_self_iff.mpr hnul, untilNewline,
    List.takeWhile_eq_self_iff.mpr hnl]

/-- A printed `int` is short and has no NUL in it. -/
lemma printDec_facts {v : ℤ} (hv : -2 ^ 31 ≤ v ∧ v < 2 ^ 31) :
    (printDec v).length ≤ 11 ∧ ∀ c ∈ printDec v, c ≠ '\x00' := by
  have hlen : (Nat.toDigits 10 v.natAbs).length ≤ 10 :=
    (Nat.length_toDigits_le_iff (by omega) (by omega)).mpr (by omega)
  have hdigit : ∀ c ∈ Nat.toDigits 10 v.natAbs, c ≠ '\x00' := by
    rintro c hc rfl
    have hisDigit := Nat.isDigit_of_mem_toDigits (by omega) (by omega) hc
    revert hisDigit
    decide
  rw [printDec]
  split
  · refine ⟨by rw [List.length_cons]; omega, fun c hc => ?_⟩
    rcases List.mem_cons.mp hc with rfl | hc
    · decide
    · exact hdigit c hc
  · exact ⟨by omega, hdigit⟩

/-- A short line in a buffer, whatever follows it there. -/
lemma ofBuffer_line {text : CStr} (hlen : text.length < usbgMaxStrLength) (hnul : ∀ c ∈ text, c ≠ '\x00')
    (stale : CStr) :
    ofBuffer ((text ++ ['\n']).take usbgMaxStrLength ++ stale) = text ++ '\n' :: ofBuffer stale := by
  have htake : (text ++ ['\n']).take usbgMaxStrLength = text ++ ['\n'] := by
    refine List.take_of_length_le ?_
    rw [List.length_append, List.length_singleton]
    omega
  rw [htake, ofBuffer, List.append_assoc, List.takeWhile_append_of_pos (by simpa using hnul)]
  rfl

/-- A number that was written is read back, whatever follows it in the buffer. -/
lemma strtol_written {v : ℤ} (hv : -2 ^ 31 ≤ v ∧ v < 2 ^ 31) (stale : CStr) :
    toInt (strtol 10 (ofBuffer ((printDec v ++ ['\n']).take usbgMaxStrLength ++ stale))).value = v := by
  obtain ⟨hlen, hnul⟩ := printDec_facts hv
  rw [ofBuffer_line (by rw [usbgMaxStrLength]; omega) hnul, strtol_printDec_append (by omega) rfl]
  exact toInt_of_fits hv

/-- So is a hexadecimal number. -/
lemma strtol_writtenHex {w : ℕ} (hw : w ≤ 8) {v : ℤ} (hv : -2 ^ 31 ≤ v ∧ v < 2 ^ 31) (stale : CStr) :
    toInt (strtol 16 (ofBuffer (("0x".toList ++ printHex w v ++ ['\n']).take usbgMaxStrLength ++ stale))).value = v := by
  obtain ⟨hlen, hnul⟩ := printHex_facts hw v
  have hzerox : ∀ c ∈ "0x".toList, c ≠ '\x00' := by simp
  have hline : ∀ c ∈ "0x".toList ++ printHex w v, c ≠ '\x00' := fun c hc =>
    (List.mem_append.mp hc).elim (hzerox c) (hnul c)
  have hshort : ("0x".toList ++ printHex w v).length < usbgMaxStrLength := by
    rw [List.length_append, usbgMaxStrLength]
    have : "0x".toList.length = 2 := rfl
    omega
  rw [ofBuffer_line hshort hline, List.append_assoc]
  exact strtol_printHex_append hv rfl

/-- A value that can be written and read back: an `int`, a boolean, or a string that is not cut. -/
def AttrVal.Plain : AttrVal → Prop
  | .int v => -2 ^ 31 ≤ v ∧ v < 2 ^ 31
  | .bool _ => True
  | .string s => s = some (untilNewline (ofBuffer ((s.getD []).take (usbgMaxFileSize - 1))))
  | _ => False

instance (v : AttrVal) : Decidable v.Plain :=
  match v with
  | .int _ => inferInstanceAs (Decidable (_ ∧ _))
  | .bool _ => isTrue trivial
  | .string _ => inferInstanceAs (Decidable (_ = _))
  | .etherAddr _ | .reportDesc _ => isFalse fun h => h

/-- A value that has been read can be written and read back. -/
lemma AttrVal.HeldBy.plain {content : CStr} {val : AttrVal} (h : val.HeldBy content)
    (hkind : AttrKind.dec.Takes val ∨ AttrKind.bool.Takes val ∨ AttrKind.string.Takes val) : val.Plain := by
  cases val with
  | int v =>
    rw [AttrVal.Plain, ← h []]
    exact toInt_fits _
  | bool b => trivial
  | string s =>
    rw [AttrVal.HeldBy] at h
    subst h
    rw [AttrVal.Plain, Option.getD_some, untilNewline_read]
  | etherAddr o => rcases hkind with h | h | h <;> cases h
  | reportDesc d => rcases hkind with h | h | h <;> cases h

lemma AttrVal.Plain.heldBy {v : AttrVal} (h : v.Plain) : v.HeldBy v.rendered := by
  cases v with
  | int v => exact strtol_written h
  | bool b =>
    intro stale
    have hwritten := strtol_written (v := if b then 1 else 0) (by cases b <;> decide) stale
    rw [AttrVal.rendered, hwritten]
    cases b <;> rfl
  | string s => exact h
  | etherAddr o => exact h.elim
  | reportDesc d => exact h.elim

/-- A file holds one value of a type. -/
lemma AttrVal.HeldBy.unique {content : CStr} (kind : AttrKind) {val val' : AttrVal}
    (h : val.HeldBy content) (h' : val'.HeldBy content) (ht : kind.Takes val) (ht' : kind.Takes val') :
    val = val' := by
  -- the kind fixes the type of both values
  cases kind <;> cases val <;> first
    | exact Bool.noConfusion ht
    | cases val' <;> first
      | exact Bool.noConfusion ht'
      | skip
  case dec.int.int v v' => rw [← h [], ← h' []]
  case bool.bool.bool b b' => rw [← h [], ← h' []]
  case string.string.string s s' => rw [h, h']
  case etherAddr.etherAddr.etherAddr o o' => rw [Option.some.inj (h.symm.trans h')]
  case reportDesc.reportDesc.reportDesc d d' => rw [h, h']

/-! ## Reading and writing a file -/

section Files

variable {M : Machine} {w : World Fs} {path : Path} {name file content data : CStr} {kind : AttrKind}
  {val : AttrVal}

lemma exists_file_of_any {o : Option (Node CStr CStr)} (h : o.any Node.isFile = true) :
    ∃ content, o = some (.file content) := by
  rcases o with _ | (_ | content | _)
  · cases h
  · cases h
  · exact ⟨content, rfl⟩
  · cases h

/-- `set` writes the value as it is rendered. -/
lemma AttrKind.Takes.set_eq {κ : Type} {K : Kernel κ} (h : kind.Takes val) :
    kind.set K path name file val = usbgWriteBuf K path name file val.rendered := by
  cases kind <;> cases val <;> first
    | exact Bool.noConfusion h
    | rfl
    | skip
  case string.string s =>
    obtain _ | s := s
    · exact Bool.noConfusion h
    · rfl

/-- Writing a file that can be written. -/
lemma usbgWriteBuf_ok (hfits : (path ++ [name, file]).Fits)
    (hgrants : M.Grants (.write (path ++ [name, file]) data))
    (hfile : w.tree.get (path ++ [name, file]).resolve = some (.file content)) :
    ∃ w', usbgWriteBuf M.kernel path name file data w = (.ok (), w') ∧
      w'.tree = w.tree.replace (path ++ [name, file]).resolve (.file data) := by
  have hexec : M.exec (.write (path ++ [name, file]) data) w.tree =
      .ok ((), w.tree.replace (path ++ [name, file]).resolve (.file data)) :=
    exec_write.mpr (writeFile_eq_ok.mpr ⟨⟨content, hfile⟩, rfl⟩)
  obtain ⟨w', hcall, ht, -⟩ := call_ok hgrants hexec
  refine ⟨w', ?_, ht⟩
  rw [usbgWriteBuf, require_of hfits, pure_bind]
  exact hcall

/-- The union holds a value for which `set` is defined. -/
def AttrKind.Fed (kind : AttrKind) (val : AttrVal) : Prop :=
  kind.Takes val ∨ kind = .guid ∧ ∃ s, val = .string (some s)

/-- What is imported can be set. -/
lemma AttrKind.fed_of_imprt {root : Setting} {member : CStr}
    (h : kind.imprt root member = .ok (some val)) : kind.Fed val := by
  cases kind <;> obtain ⟨o, -, ho⟩ := map_eq_ok.mp h <;> obtain ⟨v, -, rfl⟩ := Option.map_eq_some_iff.mp ho <;>
    first
    | exact .inr ⟨rfl, _, rfl⟩
    | exact .inl rfl

/-- `set` writes the file, if it does anything. -/
lemma ends_set {Q : Unit → World Fs → Prop} {E : UsbgError → World Fs → Prop} {U : Prop}
    (hok : ∀ data w', (∃ content, w.tree.get (path ++ [name, file]).resolve = some (.file content)) →
      w'.tree = w.tree.replace (path ++ [name, file]).resolve (.file data) → Q () w')
    (hfail : ∀ e w', w'.tree = w.tree → E e w') (hundef : ¬ kind.Fed val → U) :
    Ends Q E U (kind.set M.kernel path name file val w) := by
  have hbuf : ∀ data, Ends Q E U (usbgWriteBuf M.kernel path name file data w) := fun data =>
    ends_usbgWriteBuf (fun w' hfile ht _ => hok data w' hfile ht) fun e w' ht _ => hfail e w' ht
  have hstring : ∀ s, Ends Q E U (usbgWriteString M.kernel path name file s w) := by
    intro s
    cases s with
    | none => exact hfail _ _ rfl
    | some s => exact hbuf s
  cases kind <;> cases val <;> first
    | exact hbuf _
    | exact hstring _
    | (refine hundef ?_; rintro (h | ⟨hk, s, h⟩) <;> first | (cases h; done) | cases hk)
    | skip
  case guid.string s =>
    refine Ends.deref_bind (fun buf _ => Ends.require_bind (fun _ => ?_) fun _ => hfail _ _ rfl) ?_
    swap
    · rintro rfl
      refine hundef ?_
      rintro (h | ⟨-, s, h⟩) <;> cases h
    cases scanGuid buf 16 with
    | none => exact hfail _ _ rfl
    | some bin => exact hbuf bin

/-- An import over a table, where every `set` keeps `I`. -/
lemma importTable_ends {I : World Fs → Prop} {E : UsbgError → World Fs → Prop} {U : Prop} {table : List Attr}
    {set : Attr → AttrVal → Io Fs Unit} {root : Setting} (hE : ∀ e w, I w → E e w)
    (hset : ∀ a val w, a.kind.Fed val → I w → Ends (fun _ => I) E U (set a val w)) (hw : I w) :
    Ends (fun _ => I) E U (importTable table set root w) := by
  refine Ends.forEach (fun a _ w hw => Ends.when (fun _ => ?_) fun _ => hw) hw
  cases himport : a.kind.imprt root a.name with
  | error e => exact hE e w hw
  | ok found =>
    cases found with
    | none => exact hw
    | some val => exact hset a val w (AttrKind.fed_of_imprt himport) hw

/-- `get` reads the file and changes nothing. -/
lemma get_ends :
    Ends (fun _ w' => w'.tree = w.tree ∧ ∃ content,
        w.tree.get (path ++ [name, file]).resolve = some (.file content))
      (fun _ w' => w'.tree = w.tree) True (kind.get M.kernel path name file w) := by
  -- every reader ends where the buffer has been read
  obtain ⟨Q, hQ⟩ : ∃ Q : World Fs → Prop, Q = fun w' => w'.tree = w.tree ∧ ∃ content,
    w.tree.get (path ++ [name, file]).resolve = some (.file content) := ⟨_, rfl⟩
  have htree : ∀ {w'}, Q w' → w'.tree = w.tree := fun h => by
    rw [hQ] at h
    exact h.1
  have hread : ∀ len, Ends (fun _ => Q) (fun _ w' => w'.tree = w.tree) True
      (usbgReadBufLimited M.kernel path name file len w) := by
    intro len
    refine usbgReadBufLimited_ends.mono_undef ?_ (fun _ _ ht => ht) False.elim
    rintro buf w' ⟨-, ht, content, hfile, -⟩
    rw [hQ]
    exact ⟨ht, content, hfile⟩
  have hint : Ends (fun _ => Q) (fun _ w' => w'.tree = w.tree) True
      (usbgReadDec M.kernel path name file w) := Ends.bind (hread _) fun _ _ h => h
  have hbool : Ends (fun _ => Q) (fun _ w' => w'.tree = w.tree) True
      (usbgReadBool M.kernel path name file w) := Ends.bind hint fun _ _ h => h
  have hstring : ∀ len, Ends (fun _ => Q) (fun _ w' => w'.tree = w.tree) True
      (usbgReadStringLimited M.kernel path name file len w) := fun len => Ends.bind (hread _) fun _ _ h => h
  rw [← hQ]
  cases kind with
  | dec => exact Ends.bind hint fun _ _ h => h
  | bool => exact Ends.bind hbool fun _ _ h => h
  | string => exact Ends.bind (hstring usbgMaxFileSize) fun _ _ h => h
  | etherAddr =>
    have hether : Ends (fun _ => Q) (fun _ w' => w'.tree = w.tree) True
        (usbgGetEtherAddr M.kernel path name file w) := by
      refine Ends.bind (hstring usbgMaxStrLength) fun s w' h => ?_
      cases etherAton s with
      | none => exact htree h
      | some o => exact h
    exact Ends.bind hether fun _ _ h => h
  | reportDesc => exact Ends.bind (hread usbgMaxStrLength) fun _ _ h => h
  | guid =>
    have hguid : Ends (fun _ => Q) (fun _ w' => w'.tree = w.tree) True
        (usbgGetGuid M.kernel path name file w) :=
      Ends.bind (hread guidBinLength) fun buf w' h =>
        Ends.ite (fun _ => trivial) fun _ => Ends.require_bind (fun _ => h) fun _ => htree h
    exact Ends.bind hguid fun _ _ h => h

/-- Reading a file whose content the kernel answers with. -/
lemma usbgReadBufLimited_of_read {κ : Type} {K : Kernel κ} {w : World κ} (len : ℕ)
    (hfits : (path ++ [name, file]).Fits)
    (hread : (K.call (.read (path ++ [name, file])) w.sys).1 = .ok content) :
    (usbgReadBufLimited K path name file len w).1 = .ok (content.take len) := by
  rw [usbgReadBufLimited, require_of hfits, pure_bind, bind_ok (call_of_ok K hread)]
  rfl

/-- Reading a file that can be read. -/
lemma usbgReadBufLimited_ok (len : ℕ) (hfits : (path ++ [name, file]).Fits)
    (hgrants : M.Grants (.read (path ++ [name, file])))
    (hfile : w.tree.get (path ++ [name, file]).resolve = some (.file content)) :
    ∃ w', usbgReadBufLimited M.kernel path name file len w = (.ok (content.take len), w') ∧
      w'.tree = w.tree := by
  have hexec : M.exec (.read (path ++ [name, file])) w.tree = .ok (content, w.tree) :=
    exec_read.mpr ⟨readFile_eq_ok.mpr hfile, rfl⟩
  obtain ⟨w', hcall, ht, -⟩ := call_ok hgrants hexec
  refine ⟨w', ?_, ht⟩
  rw [usbgReadBufLimited, require_of hfits, pure_bind, bind_ok hcall]
  rfl

/-- `get` returns what the file holds. -/
lemma AttrKind.Takes.get_ok (h : kind.Takes val) (hfits : (path ++ [name, file]).Fits)
    (hgrants : M.Grants (.read (path ++ [name, file])))
    (hfile : w.tree.get (path ++ [name, file]).resolve = some (.file content))
    (hheld : val.HeldBy content) :
    ∃ w', kind.get M.kernel path name file w = (.ok val, w') ∧ w'.tree = w.tree := by
  have hdec : ∃ w', w'.tree = w.tree ∧ usbgReadDec M.kernel path name file w =
      (.ok (toInt (strtol 10 (ofBuffer (content.take usbgMaxStrLength ++ M.kernel.stale w'.sys))).value), w') := by
    obtain ⟨w', hread, ht⟩ := usbgReadBufLimited_ok usbgMaxStrLength hfits hgrants hfile
    refine ⟨w', ht, ?_⟩
    rw [usbgReadDec, usbgReadInt, usbgReadBuf, bind_ok hread]
    rfl
  have hstring : ∀ len, ∃ w', w'.tree = w.tree ∧ usbgReadStringLimited M.kernel path name file len w =
      (.ok (untilNewline (ofBuffer (content.take (len - 1)))), w') := by
    intro len
    obtain ⟨w', hread, ht⟩ := usbgReadBufLimited_ok len hfits hgrants hfile
    refine ⟨w', ht, ?_⟩
    rw [usbgReadStringLimited, bind_ok hread, List.take_take, Nat.min_eq_left (Nat.sub_le _ _)]
    rfl
  -- a value of another kind is not taken
  cases kind <;> cases val <;> first
    | exact Bool.noConfusion h
    | skip
  case dec.int v =>
    obtain ⟨w', ht, hread⟩ := hdec
    rw [hheld] at hread
    exact ⟨w', by rw [AttrKind.get, bind_ok hread]; rfl, ht⟩
  case bool.bool b =>
    obtain ⟨w', ht, hread⟩ := hdec
    refine ⟨w', ?_, ht⟩
    rw [AttrKind.get, usbgReadBool, Prog.bind_assoc, bind_ok hread, pure_bind, hheld]
    rfl
  case string.string s =>
    obtain ⟨w', ht, hread⟩ := hstring usbgMaxFileSize
    rw [AttrVal.HeldBy] at hheld
    subst hheld
    exact ⟨w', by rw [AttrKind.get, usbgReadStringAlloc, bind_ok hread]; rfl, ht⟩
  case etherAddr.etherAddr o =>
    obtain ⟨w', ht, hread⟩ := hstring usbgMaxStrLength
    rw [AttrVal.HeldBy] at hheld
    refine ⟨w', ?_, ht⟩
    rw [AttrKind.get, usbgGetEtherAddr, usbgReadString, Prog.bind_assoc, bind_ok hread, hheld]
    rfl
  case reportDesc.reportDesc d =>
    obtain ⟨w', hread, ht⟩ := usbgReadBufLimited_ok usbgMaxStrLength hfits hgrants hfile
    rw [AttrVal.HeldBy] at hheld
    subst hheld
    exact ⟨w', by rw [AttrKind.get, hidGetReport, usbgReadBuf, bind_ok hread]; rfl, ht⟩

lemma configSettingAdd_ok {root : Members} (hname : name ∉ root.map Prod.fst) (node : Setting) :
    configSettingAdd root name node = .ok (root ++ [(name, node)]) := by
  rw [configSettingAdd, Setting.addMember, if_neg hname]

/-- The node that has been added is found, also when others are added later. -/
lemma prefix_getMember (root : Members) {members : Members} {name : CStr} {node : Setting} (hname : name ∉ root.map Prod.fst)
    (h : root ++ [(name, node)] <+: members) : (Setting.group members).getMember name = some node := by
  obtain ⟨rest, rfl⟩ := h
  have hnone : root.find? (·.1 = name) = none := by
    rw [List.find?_eq_none]
    intro e he heq
    exact hname (List.mem_map.mpr ⟨e, he, by simpa using heq⟩)
  rw [Setting.getMember, Setting.members, List.append_assoc, List.find?_append, hnone]
  simp

/-- `export` only adds to the group. -/
lemma prefix_exprt {κ : Type} {w : World κ} (kind : AttrKind) (root : Members) (name : CStr) (val : AttrVal) :
    Ends (fun root' w' => w' = w ∧ root <+: root') (fun _ w' => w' = w) True (kind.exprt root name val w) := by
  have hadd : ∀ node, Ends (fun root' w' => w' = w ∧ root <+: root') (fun _ w' => w' = w) True
      ((Prog.ofExcept (configSettingAdd root name node) : Io κ Members) w) := by
    intro node
    rw [configSettingAdd, Setting.addMember]
    by_cases hname : name ∈ root.map Prod.fst
    · rw [if_pos hname]
      exact rfl
    · rw [if_neg hname]
      exact ⟨rfl, List.prefix_append ..⟩
  cases kind <;> rcases val with v | b | (_ | s) | o | desc <;> first
    | exact trivial
    | exact hadd _

/-- `export` adds the node of the value. -/
lemma AttrKind.Takes.exprt_ok {κ : Type} {w : World κ} {root : Members} (h : kind.Takes val)
    (hname : name ∉ root.map Prod.fst) :
    kind.exprt root name val w = (.ok (root ++ [(name, val.node)]), w) := by
  have hadd := configSettingAdd_ok hname
  cases kind <;> cases val <;> first
    | exact Bool.noConfusion h
    | skip
  case dec.int v => rw [AttrKind.exprt, usbgSetConfigNodeInt, hadd]; rfl
  case bool.bool b => rw [AttrKind.exprt, usbgSetConfigNodeBool, hadd]; rfl
  case string.string s =>
    obtain _ | s := s
    · exact Bool.noConfusion h
    · rw [AttrKind.exprt, usbgSetConfigNodeString, hadd]; rfl
  case etherAddr.etherAddr o =>
    rw [AttrKind.exprt, usbgSetConfigNodeEtherAddr, usbgSetConfigNodeString, hadd]; rfl
  case reportDesc.reportDesc d => rw [AttrKind.exprt, hidSetConfigNodeReport, hadd]; rfl

end Files

/-! ## Loops -/

section Loops

variable {σ β : Type} {T T' : Tree} {path : β → Path} {content : β → Option CStr} {l : List β} {b : β}

/-- The files of the elements hold what was written to them, and nothing else has changed.  An element
without a content has not been written. -/
structure Written (path : β → Path) (content : β → Option CStr) (l : List β) (T T' : Tree) : Prop where
  get : ∀ b ∈ l, T'.get (path b) = ((content b).map Node.file).or (T.get (path b))
  outside : ∀ q, (∀ b ∈ l, q ≠ path b) → T'.get q = T.get q

/-- What one round does. -/
def writeRound (path : β → Path) (content : β → Option CStr) (T : Tree) (b : β) : Tree :=
  match content b with
  | some t => T.replace (path b) (.file t)
  | none => T

lemma get_writeRound (h : ∃ c, T.get (path b) = some (.file c)) (q : Path) :
    (writeRound path content T b).get q =
      if q = path b then ((content b).map Node.file).or (T.get q) else T.get q := by
  obtain ⟨c, hc⟩ := h
  rw [writeRound]
  cases hcontent : content b with
  | none => simp
  | some t =>
    rw [FileTree.get_replace]
    by_cases hq : q = path b
    · rw [if_pos hq, if_pos hq, hq, hc]
      rfl
    · rw [if_neg hq, if_neg hq]

/-- A file that has been written is still a file. -/
lemma isFile_writeRound (h : ∃ c, T.get (path b) = some (.file c)) {q : Path}
    (hq : ∃ c, T.get q = some (.file c)) : ∃ c, (writeRound path content T b).get q = some (.file c) := by
  obtain ⟨c, hc⟩ := hq
  rw [get_writeRound h]
  by_cases hqb : q = path b
  · rw [if_pos hqb, hc]
    cases content b with
    | none => exact ⟨c, rfl⟩
    | some t => exact ⟨t, rfl⟩
  · rw [if_neg hqb]
    exact ⟨c, hc⟩

/-- A loop in which every round writes the file of its element. -/
lemma forEach_written (tree : σ → Tree) {round : β → Prog UsbgError σ Unit} {I : σ → Prop}
    (hnodup : (l.map path).Nodup)
    (hround : ∀ b ∈ l, ∀ s, I s → (∃ c, (tree s).get (path b) = some (.file c)) →
      ∃ s', round b s = (.ok (), s') ∧ I s' ∧ tree s' = writeRound path content (tree s) b)
    {s : σ} (hs : I s) (hfiles : ∀ b ∈ l, ∃ c, (tree s).get (path b) = some (.file c)) :
    ∃ s', forEach round l s = (.ok (), s') ∧ I s' ∧ Written path content l (tree s) (tree s') := by
  induction l generalizing s with
  | nil => exact ⟨s, rfl, hs, ⟨by simp, fun _ _ => rfl⟩⟩
  | cons b l ih =>
    obtain ⟨hfresh, hnodup⟩ := List.nodup_cons.mp hnodup
    have hb := hfiles b (List.mem_cons_self ..)
    obtain ⟨s₁, hrun₁, hs₁, ht₁⟩ := hround b (List.mem_cons_self ..) s hs hb
    have hfiles₁ : ∀ b' ∈ l, ∃ c, (tree s₁).get (path b') = some (.file c) := by
      intro b' hb'
      rw [ht₁]
      exact isFile_writeRound hb (hfiles b' (List.mem_cons_of_mem _ hb'))
    obtain ⟨s₂, hrun₂, hs₂, hwritten⟩ :=
      ih hnodup (fun b' hb' => hround b' (List.mem_cons_of_mem _ hb')) hs₁ hfiles₁
    refine ⟨s₂, by rw [forEach_cons, bind_ok hrun₁, hrun₂], hs₂, ?_, ?_⟩
    · intro b' hb'
      rcases List.mem_cons.mp hb' with rfl | hb'
      · -- the later rounds write other files
        have hother : ∀ b'' ∈ l, path b' ≠ path b'' := fun b'' hb'' heq =>
          hfresh (List.mem_map.mpr ⟨b'', hb'', heq.symm⟩)
        rw [hwritten.outside _ hother, ht₁, get_writeRound hb, if_pos rfl]
      · have hne : path b' ≠ path b := fun heq => hfresh (List.mem_map.mpr ⟨b', hb', heq⟩)
        rw [hwritten.get b' hb', ht₁, get_writeRound hb, if_neg hne]
    · intro q hq
      rw [hwritten.outside q fun b' hb' => hq b' (List.mem_cons_of_mem _ hb'), ht₁, get_writeRound hb,
        if_neg (hq b (List.mem_cons_self ..))]

/-- A loop in which every round adds a node to a group. -/
lemma foldlM_nodes {round : Members → β → Prog UsbgError σ Members} {node : β → CStr × Setting}
    {I : σ → Prop} {root : Members} (hnodup : ((root ++ l.map node).map Prod.fst).Nodup)
    (hround : ∀ b ∈ l, ∀ root s, I s → (node b).1 ∉ root.map Prod.fst →
      ∃ s', round root b s = (.ok (root ++ [node b]), s') ∧ I s') {s : σ} (hs : I s) :
    ∃ s', l.foldlM round root s = (.ok (root ++ l.map node), s') ∧ I s' := by
  induction l generalizing root s with
  | nil => exact ⟨s, by simp, hs⟩
  | cons b l ih =>
    have hsplit : root ++ (b :: l).map node = root ++ [node b] ++ l.map node := by simp
    rw [hsplit] at hnodup ⊢
    have hfresh : (node b).1 ∉ root.map Prod.fst := by
      have hsub := (List.map_append ▸ hnodup : (((root ++ [node b]).map Prod.fst) ++ _).Nodup).of_append_left
      rw [List.map_append, List.nodup_append] at hsub
      exact fun hmem => hsub.2.2 _ hmem _ (by simp) rfl
    obtain ⟨s₁, hrun₁, hs₁⟩ := hround b (List.mem_cons_self ..) root s hs hfresh
    obtain ⟨s₂, hrun₂, hs₂⟩ :=
      ih hnodup (fun b' hb' => hround b' (List.mem_cons_of_mem _ hb')) hs₁
    exact ⟨s₂, by rw [List.foldlM_cons, bind_ok hrun₁, hrun₂], hs₂⟩

/-- A loop in which every round adds something to a list. -/
lemma foldlM_appended {α : Type} {round : List α → β → Prog UsbgError σ (List α)} {out : β → List α}
    {I : σ → Prop} (hround : ∀ b ∈ l, ∀ acc s, I s → ∃ s', round acc b s = (.ok (acc ++ out b), s') ∧ I s')
    (acc : List α) {s : σ} (hs : I s) :
    ∃ s', l.foldlM round acc s = (.ok (acc ++ l.flatMap out), s') ∧ I s' := by
  induction l generalizing acc s with
  | nil => exact ⟨s, by simp, hs⟩
  | cons b l ih =>
    obtain ⟨s₁, hrun₁, hs₁⟩ := hround b (List.mem_cons_self ..) acc s hs
    obtain ⟨s₂, hrun₂, hs₂⟩ := ih (fun b' hb' => hround b' (List.mem_cons_of_mem _ hb')) (acc ++ out b) hs₁
    exact ⟨s₂, by rw [List.foldlM_cons, bind_ok hrun₁, hrun₂, List.flatMap_cons, List.append_assoc], hs₂⟩

end Loops

end Libusbgx
