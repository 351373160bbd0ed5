import Libusbgx.Configfs.Inside

/-!
# What the kernel puts into a directory

With the directory of a gadget the kernel makes others: for its functions, its configurations and its strings, and
the file with the name of its controller.  They stay as long as the directory does.
-/

namespace Libusbgx

open Prog Machine

variable {M : Machine} {cfg x c : CStr} {T T' : Tree} {w : World Fs} {r : Path} {n : Node CStr CStr}

/-- The entries that the kernel puts into a directory below that of a gadget; `true` stands for a directory. -/
def groupEntries : Path → List (CStr × Bool)
  | [] => [(functionsDir, true), (configsDir, true), (stringsDir, true), (osDescDir, true), (udcFile, false)]
  | [x, _] => if x = configsDir then [(stringsDir, true)] else []
  | _ => []

/-- A directory, or a file. -/
def IsGroup : Bool → Node CStr CStr → Prop
  | true, n => n.isDir = true
  | false, n => n.isFile = true

/-- The kernel puts them there. -/
def Machine.Stocks (M : Machine) (cfg : CStr) : Prop :=
  ∀ x r, ∀ e ∈ groupEntries r, ∃ c, ([e.1], c) ∈ M.groups ([cfg, gadgetsDir, x] ++ r) ∧ IsGroup e.2 (groupNode c)

/-- They are there. -/
def Stocked (cfg : CStr) (T : Tree) : Prop :=
  ∀ x r, T.get ([cfg, gadgetsDir, x] ++ r) ≠ none → ∀ e ∈ groupEntries r,
    ∃ n, T.get ([cfg, gadgetsDir, x] ++ (r ++ [e.1])) = some n ∧ IsGroup e.2 n

/-! ## Groups -/

lemma groupEntries_cases {e : CStr × Bool} (he : e ∈ groupEntries r) :
    r = [] ∨ ∃ c, r = [configsDir, c] ∧ e = (stringsDir, true) := by
  rcases r with - | ⟨y, - | ⟨c, - | ⟨_, _⟩⟩⟩
  · exact .inl rfl
  · cases he
  · rw [groupEntries] at he
    split at he
    · next hy =>
      rw [hy]
      exact .inr ⟨c, rfl, List.mem_singleton.mp he⟩
    · cases he
  · cases he

/-- The user makes directories where the kernel puts groups, … -/
lemma userPlace_of_groupEntries {e : CStr × Bool} (he : e ∈ groupEntries r) : UserPlace r := by
  rcases groupEntries_cases he with rfl | ⟨c, rfl, -⟩
  · trivial
  · exact .inr (.inl rfl)

/-- … but does not make the groups. -/
lemma not_made_group {e : CStr × Bool} (he : e ∈ groupEntries r) :
    ¬ (UserPlace (r ++ [e.1]) ∨ InFunction (r ++ [e.1])) := by
  rcases groupEntries_cases he with rfl | ⟨c, rfl, rfl⟩
  · rintro (h | h) <;> exact h
  · rintro (h | h)
    · exact h
    · exact absurd h.1.symm functionsDir_ne_configsDir

namespace Stocked

/-- No call takes away what the kernel has put into a directory, unless it takes away the directory. -/
lemma change (hM : Configfs M cfg) (hS : M.Stocks cfg) {c : Syscall} (hc : Change M T c T') (hs : Shaped cfg T)
    (h : Stocked cfg T) : Stocked cfg T' := by
  intro x r hx e he
  -- of the calls only `mkdir` can have made the directory, and then it is the one that was asked for
  obtain ⟨n', hn'⟩ := Option.ne_none_iff_exists'.mp hx
  obtain rfl := (hs.change hM hc).get_userPlace (userPlace_of_groupEntries he) hn'
  cases hc with
  | same => exact h x r hx e he
  | write p data content hfile =>
    have hx' : T.get ([cfg, gadgetsDir, x] ++ r) ≠ none := by
      intro hn
      rw [FileTree.get_replace, hn] at hx
      split at hx <;> exact hx rfl
    obtain ⟨n, hn, hgroup⟩ := h x r hx' e he
    rw [FileTree.get_replace]
    split
    · next heq =>
      rw [heq, hfile] at hn
      obtain rfl := Option.some.inj hn
      refine ⟨.file data, by rw [heq, hfile, Option.map_some], ?_⟩
      cases hb : e.2 with
      | true =>
        rw [hb] at hgroup
        cases hgroup
      | false => rfl
    · exact ⟨n, hn, hgroup⟩
  | mkdir p n hgranted hfree hparent hname =>
    cases hT : T.get ([cfg, gadgetsDir, x] ++ r) with
    | some n' =>
      obtain ⟨n, hn, hgroup⟩ := h x r (by rw [hT]; simp) e he
      exact ⟨n, get_newDir_of_get hn, hgroup⟩
    | none =>
      have hmem : ([cfg, gadgetsDir, x] ++ r, .dir true) ∈ M.newDir p.resolve := by
        rcases get_newDir_cases hn' with hn | ⟨-, hmem⟩
        · rw [hT] at hn
          cases hn
        · exact hmem
      rcases List.mem_cons.mp hmem with heq | hgroup
      · obtain ⟨hp, -⟩ := Prod.mk.inj heq
        obtain ⟨c, hc, hgroup⟩ := hS x r e he
        rw [← hp] at hfree hname ⊢
        rw [← List.append_assoc]
        exact ⟨groupNode c, get_newDir_group hM hs.parents hfree (List.cons_ne_nil _ _) hc, hgroup⟩
      · -- the kernel itself makes none where the user does
        obtain ⟨⟨q, c⟩, -, heq⟩ := List.mem_map.mp hgroup
        cases c <;> cases (Prod.mk.inj heq).2
  | symlink target p n hgranted hfree hparent hname htarget =>
    have hx' : T.get ([cfg, gadgetsDir, x] ++ r) ≠ none := by
      intro hn
      rw [FileTree.get_add, hn, Option.none_or] at hn'
      split at hn' <;> cases hn'
    obtain ⟨n, hn, hgroup⟩ := h x r hx' e he
    exact ⟨n, by rw [FileTree.get_add, hn, Option.some_or], hgroup⟩
  | rmdir c hc hdir =>
    rw [FileTree.get_prune] at hx
    split at hx
    · exact absurd rfl hx
    · next hpre =>
      obtain ⟨n, hn, hgroup⟩ := h x r hx e he
      refine ⟨n, ?_, hgroup⟩
      rw [FileTree.get_prune, if_neg, hn]
      -- what is removed has been made by the user
      intro hpre'
      have heq : c.path.resolve = [cfg, gadgetsDir, x] ++ (r ++ [e.1]) := by
        rw [← List.append_assoc] at hpre' ⊢
        exact (List.prefix_concat_iff.mp hpre').resolve_right hpre
      rw [heq] at hdir
      exact not_made_group he (hs.gadgetNode hdir)
  | unlink c hc text target hlink =>
    have hx' : T.get ([cfg, gadgetsDir, x] ++ r) ≠ none := by
      intro hn
      rw [FileTree.get_erase, hn] at hx
      split at hx <;> exact hx rfl
    obtain ⟨n, hn, hgroup⟩ := h x r hx' e he
    refine ⟨n, ?_, hgroup⟩
    rw [FileTree.get_erase, if_neg, hn]
    intro heq
    rw [heq, hlink] at hn
    obtain rfl := Option.some.inj hn
    cases hb : e.2 <;> rw [hb] at hgroup <;> cases hgroup

/-- A directory that the kernel has put there. -/
lemma get_dir (h : Stocked cfg T) (hs : Shaped cfg T) (hx : T.get ([cfg, gadgetsDir, x] ++ r) ≠ none) {z : CStr}
    (hz : (z, true) ∈ groupEntries r) : T.get ([cfg, gadgetsDir, x] ++ (r ++ [z])) = some (.dir false) := by
  obtain ⟨n, hn, hdir⟩ := h x r hx _ hz
  obtain ⟨made, rfl⟩ := Node.isDir_iff.mp (show n.isDir = true from hdir)
  cases made with
  | false => exact hn
  | true => exact absurd (hs.gadgetNode hn) (not_made_group hz)

end Stocked

lemma stable_stocked (hM : Configfs M cfg) (hS : M.Stocks cfg) (p : Path) :
    StableUp M.kernel p fun w => Shaped cfg w.tree ∧ Stocked cfg w.tree :=
  stableUp_of_change (P := fun T => Shaped cfg T ∧ Stocked cfg T) fun _ _ _ hc h =>
    ⟨h.1.change hM hc, h.2.change hM hS hc h.1⟩

end Libusbgx
