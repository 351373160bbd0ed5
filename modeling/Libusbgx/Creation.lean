import Libusbgx.Frame

/-!
# What the constructors do to the lists

Each constructor either puts one new object, at a fresh address, into the list it belongs to, or
leaves the lists as they were.  What it does to the world is near the directory of the new
object.
-/

namespace Libusbgx

open Prog

variable {κ α β : Type} {K : Kernel κ} {p : Path} {I : World κ → Prop}

/-- A property that the first part of a sequence keeps, whatever it returns. -/
lemma Prog.Keeps.ends {ε σ : Type} {J : σ → Prop} {m : Prog ε σ α} (hm : Keeps J m) {s : σ}
    (hs : J s) : Ends (fun _ => J) (fun _ => J) True (m s) := by
  have h := hm s hs
  rcases hms : m s with ⟨_ | _ | _, t⟩
  · rw [hms] at h
    exact h
  · rw [hms] at h
    exact h
  · trivial

/-- Work on the world keeps the object at hand and every property of the world that it keeps. -/
lemma ends_io_of_keeps {τ : Type} {m : Io κ α} (hm : Keeps I m) {w : World κ} (hw : I w) (t : τ) :
    Ends (fun _ s => I s.1 ∧ s.2 = t) (fun _ s => I s.1 ∧ s.2 = t) True (io m (w, t)) :=
  ends_io ((hm.ends hw).mono (fun _ _ h => ⟨h, rfl⟩) fun _ _ h => ⟨h, rfl⟩)

/-- Addresses do not run backwards. -/
lemma Stable.and_next (h : Stable K p I) (n : Addr) :
    Stable K p fun w => I w ∧ n ≤ w.next where
  atCall c w hc hr hw := ⟨h.atCall c w hc hr hw.1, hw.2⟩
  atMalloc w hw := ⟨h.atMalloc w hw.1, Nat.le_succ_of_le hw.2⟩
  atRemoval c w hc hr hw := ⟨h.atRemoval c w hc hr hw.1, hw.2⟩

/-! ## Configurations -/

/-- The configuration that `usbg_create_config` allocates. -/
def newConfig (g : Gadget) (id : ℤ) (label : Option CStr) (a : Addr) : Config :=
  .allocated a (g.path ++ [g.name, configsDir]) (label.getD defaultConfigLabel) id

/-- The effect of `usbg_create_config`. -/
lemma usbgCreateConfig_ends (h : Stable K p I) {w : World κ} {g : Gadget} (hw : I w) {id : ℤ}
    {label : Option CStr} {attrs : Option ConfigAttrs} {strs : Option ConfigStrs}
    (hp : p <+: g.path ++ [g.name, configsDir] ++ [(newConfig g id label w.next).name]) :
    Ends (fun a t => I t.1 ∧ a = w.next ∧ w.next < t.1.next ∧
        t.2 = { g with configs := insertSorted Config.name (newConfig g id label w.next) g.configs })
      (fun _ t => I t.1 ∧ t.2 = g) True (usbgCreateConfig K id label attrs strs (w, g)) := by
  have hn := h.and_next (w.next + 1)
  rw [usbgCreateConfig]
  refine Ends.require_bind (fun _ => ?_) fun _ => ⟨hw, rfl⟩
  rw [self_bind_apply]
  refine Ends.require_bind (fun _ => ?_) fun _ => ⟨hw, rfl⟩
  refine Ends.require_bind (fun _ => ?_) fun _ => ⟨hw, rfl⟩
  have halloc : usbgAllocateConfig (g.path ++ [g.name, configsDir]) (label.getD defaultConfigLabel)
      id w = (.ok (newConfig g id label w.next), { w with next := w.next + 1 }) := rfl
  refine Ends.of_eq (bind_ok (io_ok halloc)) ?_
  have hw₁ := h.atMalloc w hw
  refine Ends.require_bind (fun _ => ?_) fun _ => ⟨hw₁, rfl⟩
  refine Ends.bind ((ends_io_of_keeps (hn.keeps_call (c := .mkdir _) hp) ⟨hw₁, le_refl _⟩ g).mono
    (fun _ _ ht => ht) fun _ _ ht => ⟨ht.1.1, ht.2⟩) ?_
  rintro _ ⟨w₂, g⟩ ⟨hw₂, rfl⟩
  refine Ends.bind ((ends_io_of_keeps (.onFail ?_ (hn.keeps_tryCall (c := .rmdir _) hp)) hw₂ g).mono
    (fun _ _ ht => ht) fun _ _ ht => ⟨ht.1.1, ht.2⟩) ?_
  · exact .bind (.whenSome fun _ _ => hn.keeps_usbgSetConfigAttrs hp) fun _ =>
      .whenSome fun _ _ => hn.keeps_usbgSetConfigString (below_cons hp _)
  · rintro _ ⟨w₃, g⟩ ⟨hw₃, rfl⟩
    exact ⟨hw₃.1, rfl, hw₃.2, rfl⟩

end Libusbgx
