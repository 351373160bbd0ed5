import Libusbgx.Mirror.Emptied

/-!
# Gadget imports that fail

When a section of a scheme cannot be imported, `usbg_import_gadget` removes the gadget that it has begun to make.
Wherever the import has stopped, the lists mirror the tree, so the removal finds all of it.
-/

namespace Libusbgx

open Prog Machine

variable {M : Machine} {cfg name : CStr} {N : Naming} {T T' : Tree} {w w' : World Fs} {g gad : Gadget} {s s' : State}
  {t t' : World Fs × State} {file : ConfigFile} {a : Addr} {α : Type}

/-! ## Names of controllers -/

/-- Every controller has a name. -/
def UdcsNamed (s : State) : Prop := ∀ u ∈ s.udcs, u.name ≠ []

lemma UdcsNamed.setUdcGadget (h : UdcsNamed s) (u : Addr) (v : Option Addr) : UdcsNamed (s.setUdcGadget u v) := by
  intro x hx
  obtain ⟨y, hy, rfl⟩ := List.mem_map.mp hx
  by_cases hyu : y.addr = u
  · rw [if_pos hyu]
    exact h y hy
  · rw [if_neg hyu]
    exact h y hy

/-- A directory has been made, and nothing in it. -/
structure JustMade (M : Machine) (cfg : CStr) (T : Tree) (name : CStr) (w : World Fs) : Prop where
  clean : Path.Clean [cfg, gadgetsDir, name]
  free : ∀ q, [cfg, gadgetsDir, name] <+: q → T.get q = none
  shaped : Shaped cfg w.tree
  made : w.tree = T.addAll (M.newDir [cfg, gadgetsDir, name])

/-- The directory can be removed, and then the tree is as it was. -/
lemma JustMade.rmdir (h : JustMade M cfg T name w) :
    Machine.rmdir w.tree [cfg, gadgetsDir, name] = .ok (w.tree.prune [cfg, gadgetsDir, name]) ∧
      (w.tree.prune [cfg, gadgetsDir, name]).Same T := by
  refine ⟨rmdir_eq_ok.mpr ⟨?_, fun hbelow => ?_, fun hpinned => ?_, rfl⟩, fun q => ?_⟩
  · rw [h.made]
    exact get_newDir_self (h.free _ List.prefix_rfl)
  · obtain ⟨q, n, hn, hq, hne, hmade⟩ := FileTree.madeBelow_iff.mp hbelow
    rw [h.made] at hn
    cases (h.free q hq).symm.trans (made_newDir hn hmade hne)
  · obtain ⟨q, text, hl⟩ := FileTree.pinned_iff.mp hpinned
    exact h.shaped.not_link (t := []) (fun y r hy => absurd hy (List.cons_ne_nil _ _).symm) hl
  · rw [FileTree.get_prune]
    by_cases hq : [cfg, gadgetsDir, name] <+: q
    · rw [if_pos hq, h.free q hq]
    · rw [if_neg hq, h.made, get_newDir_outside hq]

/-- The new gadget is put into the list. -/
lemma NewGadget.listed {w₀ : World Fs} {s₀ : State} (hnew : NewGadget cfg name t gad (w₀, t.2))
    (h : StateMirrored cfg N t) (hs₀ : s₀ = { t.2 with gadgets := insertSorted Gadget.name gad t.2.gadgets }) :
    StateMirrored cfg N (w₀, s₀) ∧ gad ∈ s₀.gadgets := by
  subst hs₀
  exact ⟨hnew.insert h, mem_insertSorted.mpr (.inl rfl)⟩

end Libusbgx
