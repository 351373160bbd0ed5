import Libusbgx.Configfs.Calls
import Libusbgx.Source.Function.Types
import Libusbgx.Source.Import
import Mathlib.Data.List.Infix

/-!
# The records of failed imports

A gadget keeps one file that could not be imported, and both kinds of import write it: the import of a
function and that of a configuration.  The getters of both kinds read it.  So a call for one kind
changes what the getters of the other kind say, unless they said the same already.
-/

namespace Libusbgx

open Prog

variable {κ : Type} (K : Kernel κ) (ops : FunctionType → FunctionOps κ)

/-! ## One call -/

/-- A call that imports a file into a gadget. -/
inductive ImportCall where
  | function (cfg : ConfigFile) (inst : CStr)
  | config (cfg : ConfigFile) (id : ℤ)

namespace ImportCall

/-- The call. -/
def run : ImportCall → On κ Gadget Addr
  | function cfg inst => usbgImportFunction K ops cfg inst
  | config cfg id => usbgImportConfig K ops cfg id

/-- What the call does when its file has been parsed. -/
def apply (root : Setting) : ImportCall → On κ Gadget Addr
  | function _ inst => usbgImportFunctionRun K ops root inst
  | config _ id => usbgImportConfigRun K ops root id

/-- The file of the call. -/
def file : ImportCall → ConfigFile
  | function cfg _ => cfg
  | config cfg _ => cfg

/-- The call is refused before anything is done: the number of the configuration is negative. -/
def Refused : ImportCall → Prop
  | function _ _ => False
  | config _ id => id < 0

instance : DecidablePred Refused := fun c =>
  match c with
  | function _ _ => isFalse id
  | config _ id => inferInstanceAs (Decidable (id < 0))

end ImportCall

/-- A gadget, and what its imports have come to: for each kind the file of the most recent call, if
that call has failed. -/
structure ImportState (κ : Type) where
  world : World κ
  gadget : Gadget
  func : Option ConfigFile
  config : Option ConfigFile

/-- Note how a call has ended. -/
def ImportState.note (c : ImportCall) (failed : Option ConfigFile) (s : ImportState κ) : ImportState κ :=
  if c.Refused then s
  else
    match c with
    | .function _ _ => { s with func := failed }
    | .config _ _ => { s with config := failed }

/-- One call, if it comes to an end. -/
def ImportCall.step (c : ImportCall) (s : ImportState κ) : Option (ImportState κ) :=
  match c.run K ops (s.world, s.gadget) with
  | (.ok _, t) => some (({ s with world := t.1, gadget := t.2 } : ImportState κ).note c none)
  | (.fail _, t) => some (({ s with world := t.1, gadget := t.2 } : ImportState κ).note c (some c.file))
  | (.undef, _) => none

/-- Several calls. -/
def runImports (cs : List ImportCall) (s : ImportState κ) : Option (ImportState κ) :=
  cs.foldlM (fun s c => c.step K ops s) s

/-! ## What the getters say -/

/-- Two records for which the getters return the same. -/
def SameReport (r r' : Option ConfigFile) : Prop :=
  importErrorText r = importErrorText r' ∧ importErrorLine r = importErrorLine r'

/-- The getters of each kind describe the most recent call of this kind. -/
structure ImportState.Described (s : ImportState κ) : Prop where
  funcText : usbgGetFuncImportErrorText s.gadget = importErrorText s.func
  funcLine : usbgGetFuncImportErrorLine s.gadget = importErrorLine s.func
  configText : usbgGetConfigImportErrorText s.gadget = importErrorText s.config
  configLine : usbgGetConfigImportErrorLine s.gadget = importErrorLine s.config

/-- The record of the kind that the call is not of. -/
def ImportState.other (s : ImportState κ) : ImportCall → Option ConfigFile
  | .function _ _ => s.config
  | .config _ _ => s.func

/-- The getters of the other kind say already what the call will make them say: the error of a file that
cannot be parsed; nothing, when the file can be applied; and the lack of an error in the text, when it can
be parsed but not applied. -/
def ImportCall.Harmless (c : ImportCall) (s : ImportState κ) : Prop :=
  c.Refused ∨
    match c.file with
    | .failed text line => importErrorText (s.other c) = some text ∧ importErrorLine (s.other c) = line
    | .parsed root =>
      match (c.apply K ops root (s.world, s.gadget)).1 with
      | .ok _ => importErrorText (s.other c) = none ∧ importErrorLine (s.other c) = -1
      | .fail _ => importErrorText (s.other c) = none ∧ importErrorLine (s.other c) = 0
      | .undef => True

variable {K ops} {c : ImportCall} {s t : ImportState κ}

namespace SameReport

lemma refl (r : Option ConfigFile) : SameReport r r := ⟨rfl, rfl⟩

lemma symm {r r' : Option ConfigFile} (h : SameReport r r') : SameReport r' r := ⟨h.1.symm, h.2.symm⟩

end SameReport

lemma ImportState.described_iff :
    s.Described ↔ SameReport s.gadget.lastFailedImport s.func ∧ SameReport s.gadget.lastFailedImport s.config :=
  ⟨fun h => ⟨⟨h.funcText, h.funcLine⟩, ⟨h.configText, h.configLine⟩⟩,
    fun h => ⟨h.1.1, h.1.2, h.2.1, h.2.2⟩⟩

/-! ## The step -/

/-- An import leaves the file in the record if and only if it fails. -/
lemma importFile_record {run : Setting → On κ Gadget Addr} (cfg : ConfigFile) (w : World κ) (g : Gadget) :
    Ends (fun _ t => t.2.lastFailedImport = none ∧ ∃ root a, cfg = .parsed root ∧ (run root (w, g)).1 = .ok a)
      (fun _ t => t.2.lastFailedImport = some cfg ∧
        ∀ root, cfg = .parsed root → ∃ e, (run root (w, g)).1 = .fail e)
      (∃ root, cfg = .parsed root ∧ (run root (w, g)).1 = .undef)
      (importFile Gadget.setFailedImport run cfg (w, g)) := by
  cases cfg with
  | failed text line => exact ⟨rfl, fun root h => by cases h⟩
  | parsed root =>
    rw [importFile]
    have hrun : Ends (fun a _ => (run root (w, g)).1 = .ok a) (fun e _ => (run root (w, g)).1 = .fail e)
        (∃ root', ConfigFile.parsed root = .parsed root' ∧ (run root' (w, g)).1 = .undef) (run root (w, g)) :=
      Ends.intro (fun a t h => by rw [h]) (fun e t h => by rw [h]) fun t h => ⟨root, rfl, by rw [h]⟩
    exact Ends.attempt_bind hrun (fun a t ht => ⟨rfl, root, a, rfl, ht⟩) fun e t ht =>
      ⟨rfl, fun root' h => ⟨e, by cases h; exact ht⟩⟩

/-- So does every call that is not refused. -/
lemma ImportCall.run_record (hc : ¬ c.Refused) (w : World κ) (g : Gadget) :
    Ends (fun _ t => t.2.lastFailedImport = none ∧ ∃ root a, c.file = .parsed root ∧
        (c.apply K ops root (w, g)).1 = .ok a)
      (fun _ t => t.2.lastFailedImport = some c.file ∧
        ∀ root, c.file = .parsed root → ∃ e, (c.apply K ops root (w, g)).1 = .fail e)
      (∃ root, c.file = .parsed root ∧ (c.apply K ops root (w, g)).1 = .undef) (c.run K ops (w, g)) := by
  cases c with
  | function cfg inst => exact importFile_record cfg w g
  | config cfg id =>
    have hid : 0 ≤ id := not_lt.mp hc
    rw [ImportCall.run, usbgImportConfig]
    exact Ends.require_bind (fun _ => importFile_record cfg w g) fun h => absurd hid h

/-- A call that is refused leaves the gadget as it was. -/
lemma ImportCall.run_refused (hc : c.Refused) (w : World κ) (g : Gadget) :
    c.run K ops (w, g) = (.fail .invalidParam, (w, g)) := by
  cases c with
  | function cfg inst => exact hc.elim
  | config cfg id =>
    rw [ImportCall.run, usbgImportConfig, require_of_not (not_le.mpr hc)]
    rfl

/-- After a call that is not refused both kinds are described if and only if the other kind is. -/
lemma ImportState.described_note {failed : Option ConfigFile} (hc : ¬ c.Refused)
    (hrecord : s.gadget.lastFailedImport = failed) :
    (s.note c failed).Described ↔ SameReport failed (s.other c) := by
  rw [described_iff, note.eq_def, if_neg hc]
  cases c with
  | function cfg inst =>
    rw [← hrecord]
    exact and_iff_right (.refl _)
  | config cfg id =>
    rw [← hrecord]
    exact and_iff_left (.refl _)

/-- After a call the getters describe both kinds if and only if the call is harmless. -/
lemma ImportCall.step_described (hs : s.Described) (h : c.step K ops s = some t) :
    t.Described ↔ c.Harmless K ops s := by
  by_cases hc : c.Refused
  · -- nothing has happened
    rw [step, run_refused hc] at h
    obtain rfl := Option.some.inj h
    rw [ImportState.note.eq_def, if_pos hc]
    exact iff_of_true hs (.inl hc)
  have hrecord : Ends _ _ _ (c.run K ops (s.world, s.gadget)) := c.run_record hc s.world s.gadget
  rw [step] at h
  rw [Harmless, or_iff_right hc]
  rcases hrun : c.run K ops (s.world, s.gadget) with ⟨a | e | _, w', g'⟩ <;> rw [hrun] at h hrecord
  · obtain ⟨hnone, root, a', hfile, happly⟩ := hrecord
    obtain rfl := Option.some.inj h
    rw [ImportState.described_note hc hnone, hfile]
    dsimp only
    rw [happly]
    exact ⟨fun h => ⟨h.1.symm, h.2.symm⟩, fun h => ⟨h.1.symm, h.2.symm⟩⟩
  · obtain ⟨hsome, happly⟩ := hrecord
    obtain rfl := Option.some.inj h
    rw [ImportState.described_note hc hsome]
    cases hfile : c.file with
    | failed text line => exact ⟨fun h => ⟨h.1.symm, h.2.symm⟩, fun h => ⟨h.1.symm, h.2.symm⟩⟩
    | parsed root =>
      obtain ⟨e', he'⟩ := happly root hfile
      dsimp only
      rw [he']
      exact ⟨fun h => ⟨h.1.symm, h.2.symm⟩, fun h => ⟨h.1.symm, h.2.symm⟩⟩
  · cases h

/-- A call that does not come to an end is harmless. -/
lemma ImportCall.harmless_of_step (h : c.step K ops s = none) : c.Harmless K ops s := by
  by_cases hc : c.Refused
  · exact .inl hc
  have hrecord : Ends _ _ _ (c.run K ops (s.world, s.gadget)) := c.run_record hc s.world s.gadget
  rw [step] at h
  rw [Harmless, or_iff_right hc]
  rcases hrun : c.run K ops (s.world, s.gadget) with ⟨a | e | _, w', g'⟩ <;> rw [hrun] at h hrecord
  · cases h
  · cases h
  · obtain ⟨root, hfile, happly⟩ := hrecord
    rw [hfile]
    dsimp only
    rw [happly]
    trivial

/-- A file that can be applied does no harm if the other kind has no record. -/
lemma ImportCall.harmless_of_ok {root : Setting} {a : Addr} (hfile : c.file = .parsed root)
    (hother : s.other c = none) (happly : (c.apply K ops root (s.world, s.gadget)).1 = .ok a) : c.Harmless K ops s := by
  refine .inr ?_
  rw [hfile]
  dsimp only
  rw [happly, hother]
  exact ⟨rfl, rfl⟩

/-! ## Runs -/

/-- A gadget into which nothing has been imported. -/
def importStart (w : World κ) (g : Gadget) : ImportState κ := { world := w, gadget := g, func := none, config := none }

/-- The getters describe both kinds after every call. -/
def RecordsDescribed (K : Kernel κ) (ops : FunctionType → FunctionOps κ) (cs : List ImportCall)
    (s : ImportState κ) : Prop :=
  ∀ pre t, pre <+: cs → runImports K ops pre s = some t → t.Described

/-- Every call is harmless in the state in which it is made. -/
def RecordsUndisturbed (K : Kernel κ) (ops : FunctionType → FunctionOps κ) (cs : List ImportCall)
    (s : ImportState κ) : Prop :=
  ∀ pre c t, pre ++ [c] <+: cs → runImports K ops pre s = some t → c.Harmless K ops t

lemma runImports_concat (cs : List ImportCall) (c : ImportCall) (s : ImportState κ) :
    runImports K ops (cs ++ [c]) s = (runImports K ops cs s).bind (c.step K ops) := by
  rw [runImports, List.foldlM_append]
  refine congrArg _ (funext fun t => ?_)
  rw [List.foldlM_cons]
  exact bind_pure _

lemma described_importStart (w : World κ) {g : Gadget} (hg : g.lastFailedImport = none) :
    (importStart w g).Described := by
  rw [ImportState.described_iff]
  show SameReport g.lastFailedImport none ∧ SameReport g.lastFailedImport none
  rw [hg]
  exact ⟨.refl _, .refl _⟩

/-- For every sequence of imports into a gadget: the getters describe the most recent calls of their own
kinds after every call, if and only if every call is harmless. -/
theorem recordsDescribed_iff (K : Kernel κ) (ops : FunctionType → FunctionOps κ) (w : World κ) (g : Gadget)
    (hg : g.lastFailedImport = none) (cs : List ImportCall) :
    RecordsDescribed K ops cs (importStart w g) ↔ RecordsUndisturbed K ops cs (importStart w g) := by
  constructor
  · intro hall pre c t hpre hrun
    have ht : t.Described := hall pre t ((List.prefix_append ..).trans hpre) hrun
    cases hstep : c.step K ops t with
    | none => exact ImportCall.harmless_of_step hstep
    | some u =>
      refine (ImportCall.step_described ht hstep).mp (hall (pre ++ [c]) u hpre ?_)
      rw [runImports_concat, hrun]
      exact hstep
  · intro hall pre
    -- the calls that have been made, from the last one
    induction pre using List.reverseRecOn with
    | nil =>
      intro t _ hrun
      obtain rfl := Option.some.inj hrun
      exact described_importStart w hg
    | append_singleton pre c ih =>
      intro u hpre hrun
      rw [runImports_concat] at hrun
      obtain ⟨t, hrun, hstep⟩ := Option.bind_eq_some_iff.mp hrun
      have ht : t.Described := ih t ((List.prefix_append ..).trans hpre) hrun
      exact (ImportCall.step_described ht hstep).mpr (hall pre c t hpre hrun)

/-! ## An example -/

/-- A kernel that refuses nothing. -/
def openMachine : Machine where
  groups _ := []
  fault _ _ := none
  stale _ := []

/-- One file, with a syntax error, is imported as a function. -/
def brokenImport : List ImportCall := [.function (.failed "syntax error".toList 1) "0".toList]

/-- A gadget in which a function and a configuration can be made. -/
def roomyTree : Tree :=
  FileTree.addAll .empty [(plainGadget.dir, .dir true), (plainGadget.dir ++ [functionsDir], .dir false),
    (plainGadget.dir ++ [configsDir], .dir false)]

def goodFunction : Setting := .group [("type".toList, .string "acm".toList)]

def goodConfig : Setting := .group [("name".toList, .string "c".toList), ("functions".toList, .list [])]

/-- Two files that can be applied. -/
def goodImports : List ImportCall := [.function (.parsed goodFunction) "0".toList, .config (.parsed goodConfig) 1]

lemma recordsUndisturbed_goodImports :
    RecordsUndisturbed openMachine.kernel (functionOps openMachine.kernel) goodImports
      (importStart (worldOf roomyTree) plainGadget) := by
  rintro pre c t ⟨post, hcs⟩ hrun
  rw [List.append_assoc, List.singleton_append] at hcs
  rcases pre with - | ⟨c', - | ⟨c'', pre⟩⟩
  · obtain rfl := Option.some.inj hrun
    obtain ⟨rfl, -⟩ := List.cons.inj hcs
    exact ImportCall.harmless_of_ok (a := 0) rfl rfl (by decide +kernel)
  · obtain ⟨rfl, hrest⟩ := List.cons.inj hcs
    obtain ⟨rfl, -⟩ := List.cons.inj hrest
    have hafter : (runImports openMachine.kernel (functionOps openMachine.kernel)
        [.function (.parsed goodFunction) "0".toList] (importStart (worldOf roomyTree) plainGadget)).map
          (fun t => (t.func.isNone, (ImportCall.apply openMachine.kernel (functionOps openMachine.kernel) goodConfig
            (.config (.parsed goodConfig) 1) (t.world, t.gadget)).1)) = some (true, .ok 1) := by decide +kernel
    rw [hrun] at hafter
    obtain ⟨hnone, happly⟩ := Prod.mk.inj (Option.some.inj hafter)
    exact ImportCall.harmless_of_ok rfl (Option.isNone_iff_eq_none.mp hnone) happly
  · have hlen := congrArg List.length hcs
    simp [goodImports] at hlen

/-- For the broken file, and for the two good ones. -/
theorem recordsDescribed_brokenImport :
    (RecordsDescribed openMachine.kernel (functionOps openMachine.kernel) brokenImport
        (importStart (worldOf ⟨[], List.nodup_nil⟩) plainGadget) ↔
      RecordsUndisturbed openMachine.kernel (functionOps openMachine.kernel) brokenImport
        (importStart (worldOf ⟨[], List.nodup_nil⟩) plainGadget)) ∧
    RecordsDescribed openMachine.kernel (functionOps openMachine.kernel) goodImports
      (importStart (worldOf roomyTree) plainGadget) :=
  ⟨recordsDescribed_iff openMachine.kernel (functionOps openMachine.kernel) (worldOf ⟨[], List.nodup_nil⟩) plainGadget
      rfl brokenImport,
    (recordsDescribed_iff openMachine.kernel (functionOps openMachine.kernel) (worldOf roomyTree) plainGadget rfl
      goodImports).mpr recordsUndisturbed_goodImports⟩

/-- No configuration has been imported, and yet the getter for configurations has the text of the syntax
error. -/
theorem recordsDescribed_fails :
    ¬ RecordsDescribed openMachine.kernel (functionOps openMachine.kernel) brokenImport
      (importStart (worldOf ⟨[], List.nodup_nil⟩) plainGadget) := by
  intro hall
  have htext := (hall brokenImport _ List.prefix_rfl rfl).configText
  cases htext

end Libusbgx
