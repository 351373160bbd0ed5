import Libusbgx.Base.Watched
import Libusbgx.Undo.Constructors

/-!
# The handles that constructors give out

Each constructor has an output pointer, into which it writes the new object as soon as it is allocated.
A step that fails after that releases the object.  Here the constructors are written down once more,
with what they write into the pointer and what they release.
-/

namespace Libusbgx

open Prog

variable {κ τ α : Type} (K : Kernel κ) (ops : FunctionType → FunctionOps κ)

/-! ## The constructors with their handles -/

/-- What a constructor does with the output pointer and with the objects. -/
inductive HandleEvent where
  /-- the pointer is written; `none` is the null pointer -/
  | write (v : Option Addr)
  /-- the object is released -/
  | free (a : Addr)
deriving DecidableEq, Repr

/-- A constructor that changes an object of type `τ`. -/
abbrev Handling (κ τ α : Type) : Type := Watched UsbgError (World κ × τ) HandleEvent α

open Watched in
/-- `usbg_create_empty_gadget`: the only one that takes the object back from the pointer. -/
def createEmptyGadgetHandling (name : CStr) : Handling κ State Gadget := do
  let s ← quiet self
  quiet (require (s.path ++ [name]).Fits .pathTooLong)
  let gad ← quiet (io (usbgAllocateGadget s.path name))
  access [.write (some gad.addr)] (pure ())
  let release : Handling κ State Unit := access [.free gad.addr, .write none] (pure ())
  onFail (quiet (io (call K (.mkdir (s.path ++ [name]))))) release
  let buf ← onFail (quiet (io (Prog.onFail (usbgReadString K gad.path gad.name udcFile)
    (tryCall K (.rmdir (s.path ++ [name])))))) release
  quiet (match (usbgGetUdc s buf).map Udc.addr with
    | some u => do
      update (State.setUdcGadget u (some gad.addr))
      pure { gad with udc := some u }
    | none => pure gad)

open Watched in
/-- What both constructors of gadgets do. -/
def createGadgetHandling (name : CStr) (setUp : Gadget → Io κ Unit) : Handling κ State Addr := do
  let s ← quiet self
  quiet (require (usbgGetGadget s name = none) .exist)
  let gad ← createEmptyGadgetHandling K name
  onFail (quiet (io (setUp gad))) (access [.free gad.addr] (io (usbgRmDir K gad.path gad.name)))
  quiet (do
    update fun s => { s with gadgets := insertSorted Gadget.name gad s.gadgets }
    pure gad.addr)

open Watched in
/-- `usbg_create_function` -/
def createFunctionHandling (type : FunctionType) (inst : CStr) (attrs : Option FunctionAttrs) :
    Handling κ Gadget Addr := do
  quiet (require (inst ≠ []) .invalidParam)
  let g ← quiet self
  quiet (require (usbgGetFunction g type inst = none) .exist)
  let fpath := g.path ++ [g.name, functionsDir]
  quiet (require fpath.Fits .pathTooLong)
  let func ← quiet (io (usbgAllocateFunction fpath type inst))
  access [.write (some func.addr)] (pure ())
  let release : Handling κ Gadget Unit := access [.free func.addr] (pure ())
  onFail (quiet (require (fpath ++ [func.name]).Fits .pathTooLong)) release
  onFail (quiet (io (call K (.mkdir (fpath ++ [func.name]))))) release
  let r ← onFail (quiet (io (functionSetUp ops attrs func)))
    (access [.free func.addr] (io (usbgRmDir K (fpath ++ [func.name]) [])))
  quiet (do
    update fun g => { g with functions := insertSorted Func.name r.2 g.functions }
    pure r.2.addr)

open Watched in
/-- `usbg_create_config` -/
def createConfigHandling (id : ℤ) (label : Option CStr) (attrs : Option ConfigAttrs) (strs : Option ConfigStrs) :
    Handling κ Gadget Addr := do
  quiet (require (0 < id ∧ id ≤ 255) .invalidParam)
  let g ← quiet self
  quiet (require (usbgGetConfig g id none = none) .exist)
  let cpath := g.path ++ [g.name, configsDir]
  quiet (require cpath.Fits .pathTooLong)
  let conf ← quiet (io (usbgAllocateConfig cpath (label.getD defaultConfigLabel) id))
  access [.write (some conf.addr)] (pure ())
  let release : Handling κ Gadget Unit := access [.free conf.addr] (pure ())
  onFail (quiet (require (cpath ++ [conf.name]).Fits .pathTooLong)) release
  onFail (quiet (io (call K (.mkdir (cpath ++ [conf.name]))))) release
  onFail (quiet (io (configSetUp K attrs strs conf)))
    (access [.free conf.addr] (io (tryCall K (.rmdir (cpath ++ [conf.name])))))
  quiet (do
    update fun g => { g with configs := insertSorted Config.name conf g.configs }
    pure conf.addr)

/-! ### They are the constructors -/

lemma run_createEmptyGadgetHandling (name : CStr) :
    (createEmptyGadgetHandling K name).run = usbgCreateEmptyGadget K name := by
  rw [createEmptyGadgetHandling]
  simp only [Watched.run_bind, Watched.run_quiet, Watched.run_access, Watched.run_onFail, onFail_pure, pure_bind]
  rfl

lemma run_createGadgetHandling (name : CStr) (setUp : Gadget → Io κ Unit) :
    (createGadgetHandling K name setUp).run = createGadgetWith K name setUp := by
  rw [createGadgetHandling, createGadgetWith]
  simp only [Watched.run_bind, Watched.run_quiet, Watched.run_access, Watched.run_onFail, io_onFail,
    run_createEmptyGadgetHandling]

lemma run_createFunctionHandling (type : FunctionType) (inst : CStr) (attrs : Option FunctionAttrs) :
    (createFunctionHandling K ops type inst attrs).run = usbgCreateFunction K ops type inst attrs := by
  rw [usbgCreateFunction_eq, createFunctionHandling, makeFunctionDir]
  simp only [Watched.run_bind, Watched.run_quiet, Watched.run_access, Watched.run_onFail, onFail_pure, io_onFail,
    Prog.bind_assoc, pure_bind]
  rfl

lemma run_createConfigHandling (id : ℤ) (label : Option CStr) (attrs : Option ConfigAttrs) (strs : Option ConfigStrs) :
    (createConfigHandling K id label attrs strs).run = usbgCreateConfig K id label attrs strs := by
  rw [createConfigHandling, usbgCreateConfig]
  simp only [Watched.run_bind, Watched.run_quiet, Watched.run_access, Watched.run_onFail, onFail_pure, pure_bind,
    io_onFail]
  rfl

/-! ## What may be left -/

/-- What is in the output pointer after the events, if it was `v` before. -/
def pointerAfter (v : Option Addr) : List HandleEvent → Option Addr
  | [] => v
  | .write v' :: l => pointerAfter v' l
  | .free _ :: l => pointerAfter v l

/-- The object that is released. -/
def HandleEvent.freed : HandleEvent → Option Addr
  | .write _ => none
  | .free a => some a

/-- The pointer is as it was or null, and neither it nor a controller leads to an object that has been
released. -/
structure NothingEscapes (v : Option Addr) (udcs : List Udc) (l : List HandleEvent) : Prop where
  pointer : pointerAfter v l = v ∨ pointerAfter v l = none
  handle : ∀ a ∈ l.filterMap HandleEvent.freed, pointerAfter v l ≠ some a
  controllers : ∀ a ∈ l.filterMap HandleEvent.freed, ∀ u ∈ udcs, u.gadget ≠ some a

/-- Whenever the constructor returns an error, nothing escapes. -/
def HandleSafe (m : On κ τ α) (events : World κ × τ → List HandleEvent) (udcs : τ → List Udc) (v : Option Addr)
    (s : World κ × τ) : Prop :=
  ∀ e t, m s = (.fail e, t) → NothingEscapes v (udcs t.2) (events s)

/-- The program returns an error. -/
def Fails {ε σ : Type} (m : Prog ε σ α) (s : σ) : Prop := ∃ e t, m s = (.fail e, t)

section Fails

variable {ε σ : Type} {m : Prog ε σ α} {s t : σ}

lemma not_fails_of_ok {a : α} (h : m s = (.ok a, t)) : ¬ Fails m s := by
  rintro ⟨e, t', h'⟩
  rw [h] at h'
  cases h'

lemma not_fails_of_undef (h : m s = (.undef, t)) : ¬ Fails m s := by
  rintro ⟨e, t', h'⟩
  rw [h] at h'
  cases h'

end Fails

section Events

variable {v : Option Addr} {udcs : List Udc} {a : Addr}

lemma nothingEscapes_nil : NothingEscapes v udcs [] where
  pointer := .inl rfl
  handle _ h := absurd h List.not_mem_nil
  controllers _ h := absurd h List.not_mem_nil

/-- An object that is released and stays in the pointer. -/
lemma not_nothingEscapes : ¬ NothingEscapes v udcs [.write (some a), .free a] := fun h =>
  h.handle a (by simp [HandleEvent.freed]) rfl

/-- An object that is released and taken out of the pointer. -/
lemma nothingEscapes_taken (h : ∀ u ∈ udcs, u.gadget ≠ some a) :
    NothingEscapes v udcs [.write (some a), .free a, .write none] where
  pointer := .inr rfl
  handle _ _ := by simp [pointerAfter]
  controllers a' ha' := by
    obtain rfl : a = a' := by simpa [HandleEvent.freed] using ha'
    exact h

end Events

/-- From what every failing run records. -/
lemma handleSafe_iff {m : Handling κ τ α} {udcs : τ → List Udc} {v : Option Addr} {s : World κ × τ} {C : Prop}
    (h : m.Records (fun _ _ _ => C) (fun _ t l => NothingEscapes v (udcs t.2) l ↔ C) C s) :
    HandleSafe m.run m.trace udcs v s ↔ C := by
  rw [Watched.Records] at h
  rw [HandleSafe]
  rcases hrun : m.run s with ⟨a | e | _, t⟩ <;> rw [hrun] at h
  · exact iff_of_true (fun e t heq => by cases heq) h
  · constructor
    · exact fun hall => h.mp (hall e t rfl)
    · rintro hC e' t' heq
      cases heq
      exact h.mpr hC
  · exact iff_of_true (fun e t heq => by cases heq) h

/-! ## After the allocation -/

section Steps

variable {K} {β γ : Type} {v : Option Addr} {a : Addr} {dir : Path} {e₀ : UsbgError} {setUp : Io κ β} {cleanUp : Io κ Unit}
  {finish : β → On κ τ γ}

open Watched in
/-- The steps that follow the allocation of a function or a configuration. -/
def stepsHandling (K : Kernel κ) (a : Addr) (dir : Path) (e₀ : UsbgError) (setUp : Io κ β) (cleanUp : Io κ Unit)
    (finish : β → On κ τ γ) : Handling κ τ γ := do
  onFail (quiet (require dir.Fits e₀)) (access [.free a] (pure ()))
  onFail (quiet (io (call K (.mkdir dir)))) (access [.free a] (pure ()))
  let b ← onFail (quiet (io setUp)) (access [.free a] (io cleanUp))
  quiet (finish b)

/-- They are safe if and only if none of them fails. -/
lemma records_steps (hclean : Defined cleanUp) (hfinish : ∀ b s, ∃ x u, finish b s = (.ok x, u)) {w : World κ} {t : τ} :
    (stepsHandling K a dir e₀ setUp cleanUp finish).Records
      (fun _ _ _ => dir.Fits ∧ ¬ Fails (call K (.mkdir dir) >>= fun _ => setUp) w)
      (fun _ _ l => NothingEscapes v [] (.write (some a) :: l) ↔
        dir.Fits ∧ ¬ Fails (call K (.mkdir dir) >>= fun _ => setUp) w)
      (dir.Fits ∧ ¬ Fails (call K (.mkdir dir) >>= fun _ => setUp) w) (w, t) := by
  -- after each of the three steps an error frees the object, which the caller still holds
  by_cases hfits : dir.Fits
  swap
  · refine .bind (.onFail (.quiet (.require (fun h => absurd h hfits) fun _ => ?_)))
    exact iff_of_false not_nothingEscapes fun h => hfits h.1
  refine .bind (.onFail (.quiet (.require (fun _ => ?_) fun h => absurd hfits h)))
  refine .bind (.onFail (.quiet (ends_io_run ?_ ?_ ?_)))
  · intro _ w₁ hmkdir
    refine .bind (.onFail (.quiet (ends_io_run ?_ ?_ ?_)))
    · intro b w₂ hsetUp
      obtain ⟨x, u, hx⟩ := hfinish b (w₂, t)
      refine .quiet ?_
      rw [hx]
      exact ⟨hfits, not_fails_of_ok ((bind_ok hmkdir).trans hsetUp)⟩
    · intro e w₂ hsetUp
      have hfails : Fails (call K (.mkdir dir) >>= fun _ => setUp) w := ⟨e, w₂, by rw [bind_ok hmkdir, hsetUp]⟩
      refine .access (ends_io_run ?_ ?_ ?_)
      · exact fun _ _ _ => iff_of_false not_nothingEscapes fun h => h.2 hfails
      · exact fun _ _ _ => iff_of_false not_nothingEscapes fun h => h.2 hfails
      · exact fun _ h => absurd (congrArg Prod.fst h) (hclean w₂)
    · intro w₂ hsetUp
      exact ⟨hfits, not_fails_of_undef ((bind_ok hmkdir).trans hsetUp)⟩
  · intro e w₁ hmkdir
    exact iff_of_false not_nothingEscapes fun h => h.2 ⟨e, w₁, bind_fail hmkdir⟩
  · intro w₁ hmkdir
    exact absurd (congrArg Prod.fst hmkdir) (defined_call (.mkdir dir) w)

end Steps

/-! ## Configurations -/

variable {K ops} {w : World κ} {g : Gadget} {s : State} {v : Option Addr}

/-- No step of `usbg_create_config` fails after the configuration has been allocated: its path fits, and its
directory is made and set up. -/
def ConfigStepsFine (K : Kernel κ) (id : ℤ) (label : Option CStr) (attrs : Option ConfigAttrs) (strs : Option ConfigStrs)
    (w : World κ) (g : Gadget) : Prop :=
  0 < id ∧ id ≤ 255 → usbgGetConfig g id none = none → (g.path ++ [g.name, configsDir]).Fits →
    (newConfig g id label w.next).dir.Fits ∧
      ¬ Fails (call K (.mkdir (newConfig g id label w.next).dir) >>= fun _ =>
        configSetUp K attrs strs (newConfig g id label w.next)) { w with next := w.next + 1 }

lemma handleSafe_usbgCreateConfig {id : ℤ} {label : Option CStr} {attrs : Option ConfigAttrs} {strs : Option ConfigStrs} :
    HandleSafe (usbgCreateConfig K id label attrs strs) (createConfigHandling K id label attrs strs).trace (fun _ => [])
      v (w, g) ↔ ConfigStepsFine K id label attrs strs w g := by
  rw [← run_createConfigHandling]
  refine handleSafe_iff ?_
  refine .bind_require (fun hid => .bind_quiet rfl (.bind_require (fun hnew => .bind_require (fun hfits => ?_) fun hfits => ?_)
    fun hnew => ?_)) fun hid => ?_
  · refine .bind_quiet rfl (.bind_access rfl ?_)
    have hsteps : ConfigStepsFine K id label attrs strs w g ↔ (newConfig g id label w.next).dir.Fits ∧
        ¬ Fails (call K (.mkdir (newConfig g id label w.next).dir) >>= fun _ =>
          configSetUp K attrs strs (newConfig g id label w.next)) { w with next := w.next + 1 } :=
      ⟨fun h => h hid hnew hfits, fun h _ _ _ => h⟩
    rw [hsteps]
    exact records_steps (fun _ => by simp [tryCall]) fun _ _ => ⟨_, _, rfl⟩
  · exact iff_of_true nothingEscapes_nil fun _ _ h => absurd h hfits
  · exact iff_of_true nothingEscapes_nil fun _ h => absurd h hnew
  · exact iff_of_true nothingEscapes_nil fun h => absurd h hid

/-! ## Functions -/

/-- No step of `usbg_create_function` fails after the function has been allocated. -/
def FunctionStepsFine (K : Kernel κ) (ops : FunctionType → FunctionOps κ) (type : FunctionType) (inst : CStr)
    (attrs : Option FunctionAttrs) (w : World κ) (g : Gadget) : Prop :=
  inst ≠ [] → usbgGetFunction g type inst = none → (g.path ++ [g.name, functionsDir]).Fits →
    (newFunction g type inst w.next).dir.Fits ∧
      ¬ Fails (call K (.mkdir (newFunction g type inst w.next).dir) >>= fun _ =>
        functionSetUp ops attrs (newFunction g type inst w.next)) { w with next := w.next + 1 }

lemma handleSafe_usbgCreateFunction {type : FunctionType} {inst : CStr} {attrs : Option FunctionAttrs} :
    HandleSafe (usbgCreateFunction K ops type inst attrs) (createFunctionHandling K ops type inst attrs).trace
      (fun _ => []) v (w, g) ↔ FunctionStepsFine K ops type inst attrs w g := by
  rw [← run_createFunctionHandling]
  refine handleSafe_iff ?_
  refine .bind_require (fun hinst => .bind_quiet rfl (.bind_require (fun hnew => .bind_require (fun hfits => ?_)
    fun hfits => ?_) fun hnew => ?_)) fun hinst => ?_
  · refine .bind_quiet rfl (.bind_access rfl ?_)
    have hsteps : FunctionStepsFine K ops type inst attrs w g ↔ (newFunction g type inst w.next).dir.Fits ∧
        ¬ Fails (call K (.mkdir (newFunction g type inst w.next).dir) >>= fun _ =>
          functionSetUp ops attrs (newFunction g type inst w.next)) { w with next := w.next + 1 } :=
      ⟨fun h => h hinst hnew hfits, fun h _ _ _ => h⟩
    rw [hsteps]
    exact records_steps defined_usbgRmDir fun _ _ => ⟨_, _, rfl⟩
  · exact iff_of_true nothingEscapes_nil fun _ _ h => absurd h hfits
  · exact iff_of_true nothingEscapes_nil fun _ h => absurd h hnew
  · exact iff_of_true nothingEscapes_nil fun h => absurd h hinst

/-! ## Gadgets -/

/-- No controller refers to an address that has not been handed out. -/
def ControllersKnown (w : World κ) (s : State) : Prop := ∀ u ∈ s.udcs, ∀ a, u.gadget = some a → a < w.next

/-- The set-up of the new gadget does not fail. -/
def GadgetStepsFine (K : Kernel κ) (name : CStr) (setUp : Gadget → Io κ Unit) (w : World κ) (s : State) : Prop :=
  ∀ gad t, makeGadgetDir K name (w, s) = (.ok gad, t) → ¬ Fails (setUp gad) t.1

lemma gadgetStepsFine_iff {name : CStr} {setUp : Gadget → Io κ Unit} {gad : Gadget} {t : World κ × State}
    (h : makeGadgetDir K name (w, s) = (.ok gad, t)) : GadgetStepsFine K name setUp w s ↔ ¬ Fails (setUp gad) t.1 := by
  refine ⟨fun hfine => hfine gad t h, fun hsetUp gad' t' h' => ?_⟩
  rw [h] at h'
  cases h'
  exact hsetUp

lemma gadgetStepsFine_of_ne_ok {name : CStr} {setUp : Gadget → Io κ Unit} {r : Outcome UsbgError Gadget}
    {t : World κ × State} (h : makeGadgetDir K name (w, s) = (r, t)) (hr : ∀ gad, r ≠ .ok gad) :
    GadgetStepsFine K name setUp w s := by
  intro gad t' h'
  rw [h] at h'
  cases h'
  exact absurd rfl (hr gad)

/-- A failure of `usbg_create_empty_gadget` leaves nothing behind. -/
lemma records_createEmptyGadgetHandling (hs : ControllersKnown w s) (name : CStr) :
    (createEmptyGadgetHandling K name).Records (fun gad _ l => l = [.write (some gad.addr)])
      (fun _ t l => NothingEscapes v t.2.udcs l) True (w, s) := by
  have hfree : ∀ u ∈ s.udcs, u.gadget ≠ some w.next := fun u hu heq => lt_irrefl _ (hs u hu _ heq)
  refine .bind_quiet rfl (.bind_require (fun _ => ?_) fun _ => nothingEscapes_nil)
  refine .bind_quiet rfl (.bind_access rfl ?_)
  refine .bind (.onFail (.quiet (ends_io_run ?_ ?_ fun _ _ => trivial)))
  · intro _ w₁ _
    refine .bind (.onFail (.quiet (ends_io_run ?_ ?_ fun _ _ => trivial)))
    · intro buf w₂ _
      refine .quiet ?_
      dsimp only
      cases (usbgGetUdc s buf).map Udc.addr with
      | none => rfl
      | some u => rfl
    · exact fun _ _ _ => nothingEscapes_taken hfree
  · exact fun _ _ _ => nothingEscapes_taken hfree

lemma handleSafe_createGadgetWith (hs : ControllersKnown w s) {name : CStr} {setUp : Gadget → Io κ Unit} :
    HandleSafe (createGadgetWith K name setUp) (createGadgetHandling K name setUp).trace State.udcs v (w, s) ↔
      GadgetStepsFine K name setUp w s := by
  rw [← run_createGadgetHandling]
  refine handleSafe_iff ?_
  refine .bind_quiet rfl (.bind_require (fun hnew => ?_) fun hnew => ?_)
  swap
  · refine iff_of_true nothingEscapes_nil (gadgetStepsFine_of_ne_ok (r := .fail .exist) (t := (w, s)) ?_ fun _ h => by cases h)
    rw [makeGadgetDir, self_bind_apply, require_of_not hnew]
    rfl
  have hmake : makeGadgetDir K name (w, s) = (createEmptyGadgetHandling K name).run (w, s) := by
    rw [makeGadgetDir, self_bind_apply, require_of hnew, pure_bind, run_createEmptyGadgetHandling]
  have hempty := records_createEmptyGadgetHandling (K := K) (v := v) hs name
  rw [Watched.Records] at hempty
  refine .bind_run (fun gad t hrun => ?_) (fun e t hrun => ?_) fun t hrun => ?_ <;> rw [hrun] at hempty hmake
  · have hevents : (createEmptyGadgetHandling K name).trace (w, s) = [.write (some gad.addr)] := hempty
    obtain ⟨w₁, s₁⟩ := t
    rw [hevents, gadgetStepsFine_iff hmake]
    refine .bind (.onFail (.quiet (ends_io_run ?_ ?_ ?_)))
    · exact fun _ w₂ hsetUp => .quiet (not_fails_of_ok hsetUp)
    · intro e w₂ hsetUp
      have hfails : ¬ ¬ Fails (setUp gad) w₁ := not_not.mpr ⟨e, w₂, hsetUp⟩
      refine .access (ends_io_run ?_ ?_ ?_)
      · exact fun _ _ _ => iff_of_false not_nothingEscapes hfails
      · exact fun _ _ _ => iff_of_false not_nothingEscapes hfails
      · exact fun w₃ h => absurd (congrArg Prod.fst h) (defined_usbgRmDir w₂)
    · exact fun w₂ hsetUp => not_fails_of_undef hsetUp
  · exact iff_of_true hempty (gadgetStepsFine_of_ne_ok hmake fun _ h => by cases h)
  · exact gadgetStepsFine_of_ne_ok hmake fun _ h => by cases h

/-- For every call of a constructor, on any system and whatever was in the output pointer: when it returns an error no
freed handle escapes, if and only if no step fails after the object has been allocated; for a gadget, if and only
if the set-up of the new gadget does not fail. -/
theorem handleSafe_constructors (K : Kernel κ) (ops : FunctionType → FunctionOps κ) (w : World κ) (v : Option Addr) (s : State)
    (hs : ControllersKnown w s) (g : Gadget) :
    (∀ name attrs strs, HandleSafe (usbgCreateGadget K name attrs strs)
        (createGadgetHandling K name (gadgetSetUp K attrs strs)).trace State.udcs v (w, s) ↔
      GadgetStepsFine K name (gadgetSetUp K attrs strs) w s) ∧
    (∀ name idVendor idProduct, HandleSafe (usbgCreateGadgetVidPid K name idVendor idProduct)
        (createGadgetHandling K name (idsSetUp K name idVendor idProduct)).trace State.udcs v (w, s) ↔
      GadgetStepsFine K name (idsSetUp K name idVendor idProduct) w s) ∧
    (∀ type inst attrs, HandleSafe (usbgCreateFunction K ops type inst attrs)
        (createFunctionHandling K ops type inst attrs).trace (fun _ => []) v (w, g) ↔
      FunctionStepsFine K ops type inst attrs w g) ∧
    (∀ id label attrs strs, HandleSafe (usbgCreateConfig K id label attrs strs)
        (createConfigHandling K id label attrs strs).trace (fun _ => []) v (w, g) ↔
      ConfigStepsFine K id label attrs strs w g) :=
  ⟨fun _ _ _ => handleSafe_createGadgetWith hs, fun _ _ _ => handleSafe_createGadgetWith hs,
    fun _ _ _ => handleSafe_usbgCreateFunction, fun _ _ _ _ => handleSafe_usbgCreateConfig⟩

/-! ## An example -/

/-- For a gadget that is created where there is none. -/
theorem handleSafe_noGadgets :
    HandleSafe (usbgCreateGadgetVidPid productFails.kernel "g".toList 1 2)
        (createGadgetHandling productFails.kernel "g".toList (idsSetUp productFails.kernel "g".toList 1 2)).trace State.udcs
        none (worldOf noGadgets, noGadgetsState) ↔
      GadgetStepsFine productFails.kernel "g".toList (idsSetUp productFails.kernel "g".toList 1 2) (worldOf noGadgets)
        noGadgetsState :=
  (handleSafe_constructors productFails.kernel (functionOps productFails.kernel) (worldOf noGadgets) none noGadgetsState
    (fun _ hu => absurd hu List.not_mem_nil) plainGadget).2.1 "g".toList 1 2

lemma lostConfig_fails : (usbgCreateConfig productFails.kernel 1 none none none (worldOf noGadgets, plainGadget)).1 =
    .fail .notFound := by
  decide +kernel

lemma lostConfig_events : (createConfigHandling productFails.kernel 1 none none none).trace
    (worldOf noGadgets, plainGadget) = [.write (some 0), .free 0] := by
  decide +kernel

/-- The directory of a configuration cannot be made, and the pointer keeps the configuration that has been released. -/
theorem handleSafe_fails :
    ¬ HandleSafe (usbgCreateConfig productFails.kernel 1 none none none)
      (createConfigHandling productFails.kernel 1 none none none).trace (fun _ => []) none
      (worldOf noGadgets, plainGadget) := by
  intro hsafe
  have hleft := hsafe .notFound _ (Prod.ext lostConfig_fails rfl)
  rw [lostConfig_events] at hleft
  exact not_nothingEscapes hleft

end Libusbgx
