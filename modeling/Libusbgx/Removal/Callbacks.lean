import Libusbgx.MassStorage.Luns
import Libusbgx.Source.Function.Types

/-!
# The callbacks that remove what a function is composed of

`ms_remove` and `uvc_remove` do not look at the options they are given.  What is said here is when they
find something to remove, and that they remove it then.
-/

namespace Libusbgx

open Prog Machine

variable {M : Machine} {w : World Fs} {d p q : Path} {T T' T'' : Tree} {f f' : Func}

/-! ## What can be removed -/

/-- The kernel would remove what is at the path. -/
def CanGo (T : Tree) (p : Path) : Prop := ∃ T', Machine.remove T p = .ok T'

/-- Nothing is new, and nothing has changed but what is gone. -/
def Shrinks (T T' : Tree) : Prop := ∀ q, T'.get q = T.get q ∨ T'.get q = none

/-- Something that the user had made below the path is gone. -/
def Lost (p : Path) (T T' : Tree) : Prop :=
  ∃ q n, T.get q = some n ∧ n.made = true ∧ p <+: q ∧ q ≠ p ∧ T'.get q = none

lemma Shrinks.refl (T : Tree) : Shrinks T T := fun _ => .inl rfl

lemma Shrinks.trans (h : Shrinks T T') (h' : Shrinks T' T'') : Shrinks T T'' := by
  intro q
  rcases h' q with heq | hnone
  · rw [heq]
    exact h q
  · exact .inr hnone

lemma Lost.mono (h : Lost p T T') (h' : Shrinks T' T'') : Lost p T T'' := by
  obtain ⟨q, n, hn, hmade, hq, hne, hgone⟩ := h
  refine ⟨q, n, hn, hmade, hq, hne, ?_⟩
  rcases h' q with heq | hnone
  · rw [heq, hgone]
  · exact hnone

/-- What is lost was there. -/
lemma Lost.ne (h : Lost p T T') : T' ≠ T := by
  obtain ⟨q, n, hn, -, -, -, hgone⟩ := h
  rintro rfl
  rw [hgone] at hn
  cases hn

lemma Lost.madeBelow (h : Lost p T T') : T.MadeBelow p := by
  obtain ⟨q, n, hn, hmade, hq, hne, -⟩ := h
  exact FileTree.madeBelow_iff.mpr ⟨q, n, hn, hq, hne, hmade⟩

/-- What `remove` takes away the user had made. -/
lemma remove_eq_ok (h : Machine.remove T p = .ok T') :
    Shrinks T T' ∧ T'.get p = none ∧ ∃ n, T.get p = some n ∧ n.made = true := by
  rw [Machine.remove] at h
  split at h
  · next b hdir =>
    obtain ⟨hmade, -, -, rfl⟩ := rmdir_eq_ok.mp h
    refine ⟨fun q => ?_, ?_, _, hmade, rfl⟩
    · rw [FileTree.get_prune]
      by_cases hq : p <+: q
      · exact .inr (if_pos hq)
      · exact .inl (if_neg hq)
    · rw [FileTree.get_prune, if_pos List.prefix_rfl]
  · obtain ⟨⟨text, target, hlink⟩, rfl⟩ := unlink_eq_ok.mp h
    refine ⟨fun q => ?_, ?_, _, hlink, rfl⟩
    · rw [FileTree.get_erase]
      by_cases hq : q = p
      · exact .inr (if_pos hq)
      · exact .inl (if_neg hq)
    · rw [FileTree.get_erase, if_pos rfl]

/-! ## Directory walks -/

/-- Some paths have been given to `remove`: nothing has happened, because nothing could go, or something
that could go is gone. -/
structure Swept (M : Machine) (d : Path) (ps : List Path) (T T' : Tree) : Prop where
  shrinks : Shrinks T T'
  result : (T' = T ∧ ∀ p ∈ ps, M.Grants (.remove p) → ¬ CanGo T p.resolve) ∨
    Lost d T T' ∧ ∃ p ∈ ps, CanGo T p.resolve

lemma tryRemove_ends (p : Path) :
    Ends (fun _ w' => w'.tree = w.tree ∧ (M.Grants (.remove p) → ¬ CanGo w.tree p.resolve) ∨
        Machine.remove w.tree p.resolve = .ok w'.tree)
      (fun _ _ => False) False (tryCall M.kernel (.remove p) w) := by
  refine ends_tryCall (fun _ w' hexec => .inr ?_) fun w' hwhy ht => .inl ⟨ht, fun hg => ?_⟩
  · exact map_tree_eq_ok.mp hexec
  · rintro ⟨T', hok⟩
    obtain ⟨errno, herr⟩ := hwhy hg
    rw [exec, hok] at herr
    cases herr

/-- Removing what can be removed of a list of paths below `d`. -/
lemma sweep_ends (ps : List Path) (hps : ∀ p ∈ ps, d <+: p.resolve ∧ p.resolve ≠ d) :
    Ends (fun _ w' => Swept M d ps w.tree w'.tree) (fun _ _ => False) False
      (forEach (fun p => tryCall M.kernel (.remove p)) ps w) := by
  refine Ends.forEachDone (s := w) (fun (done : List Path) (w' : World Fs) =>
    Swept M d done w.tree w'.tree) ?_
    ⟨Shrinks.refl _, .inl ⟨rfl, by simp⟩⟩
  rintro done p w' hdone ⟨hshrinks, hresult⟩
  refine (tryRemove_ends p).mono ?_ fun _ _ h => h
  rintro - w'' (⟨ht, hstays⟩ | hok)
  · rw [ht]
    refine ⟨hshrinks, ?_⟩
    rcases hresult with ⟨hsame, hall⟩ | ⟨hlost, p', hp', hgo⟩
    · rw [hsame] at hstays ⊢
      refine .inl ⟨rfl, fun p' hp' => ?_⟩
      rcases List.mem_append.mp hp' with hp' | hp'
      · exact hall p' hp'
      · rw [List.mem_singleton.mp hp']
        exact hstays
    · exact .inr ⟨hlost, p', List.mem_append_left _ hp', hgo⟩
  · obtain ⟨hshrinks', hgone, n, hn, hmade⟩ := remove_eq_ok hok
    refine ⟨hshrinks.trans hshrinks', .inr ?_⟩
    rcases hresult with ⟨hsame, -⟩ | ⟨hlost, p', hp', hgo⟩
    · rw [hsame] at hok hn
      obtain ⟨hbelow, hne⟩ := hps p (hdone.subset (by simp))
      exact ⟨⟨_, n, hn, hmade, hbelow, hne, hgone⟩, p, by simp, _, hok⟩
    · exact ⟨hlost.mono hshrinks', p', List.mem_append_left _ hp', hgo⟩

/-- The names in the tree are not empty. -/
def Named (T : Tree) : Prop := ∀ e ∈ T.entries, ∀ name ∈ e.1, name ≠ []

instance (T : Tree) : Decidable (Named T) := inferInstanceAs (Decidable (∀ e ∈ T.entries, ∀ name ∈ e.1, name ≠ []))

lemma CanGo.get (h : CanGo T p) : ∃ n, T.get p = some n := by
  obtain ⟨T', hok⟩ := h
  obtain ⟨-, -, n, hn, -⟩ := remove_eq_ok hok
  exact ⟨n, hn⟩

/-- The walk over a directory: it fails when there is no directory, and what it gives is below it. -/
lemma nftw_ends (dir : Path) (hclean : dir.Clean) {Q : Except Errno (List Path) → World Fs → Prop}
    {E : UsbgError → World Fs → Prop} {U : Prop}
    (hok : ∀ ps w', w'.tree = w.tree → w.tree.get dir ≠ none → (∀ p, p ∈ ps ↔ ∃ n, w.tree.get (dir ++ p) = some n) →
      Q (.ok ps) w')
    (hfail : ∀ e w', w'.tree = w.tree → (M.Grants (.nftw dir) → w.tree.get dir = none) → Q (.error e) w') :
    Ends Q E U (rawCall M.kernel (.nftw dir) w) := by
  have hraw : rawCall M.kernel (.nftw dir) w =
      (.ok (M.kernel.call (.nftw dir) w.sys).1, { w with sys := (M.kernel.call (.nftw dir) w.sys).2 }) := rfl
  rw [hraw, kernel]
  dsimp only
  have htree : w.sys.tree = w.tree := rfl
  cases hfault : M.fault w.sys.log.length (.nftw dir) with
  | some e =>
    refine hfail e _ rfl fun hg => ?_
    rw [hg] at hfault
    cases hfault
  | none =>
    dsimp only
    rw [htree, exec, walk, hclean.2]
    -- a walk that is not refused finds everything at and below the directory
    cases hget : w.tree.get dir with
    | none => exact hfail _ _ rfl fun _ => hget
    | some n =>
      refine hok _ _ rfl (by rw [hget]; simp) fun p => ?_
      rw [List.mem_insertionSort, List.mem_map]
      constructor
      · rintro ⟨q, hq, rfl⟩
        obtain ⟨hq, hpre⟩ := List.mem_filter.mp hq
        obtain ⟨⟨q', n'⟩, he, rfl⟩ := List.mem_map.mp hq
        obtain ⟨r, hr⟩ := of_decide_eq_true hpre
        refine ⟨n', FileTree.get_eq_some.mpr ?_⟩
        dsimp only at hr ⊢
        rw [← hr, List.drop_left, hr]
        exact he
      · rintro ⟨n', hn'⟩
        refine ⟨dir ++ p, List.mem_filter.mpr ⟨List.mem_map.mpr ⟨_, FileTree.get_eq_some.mp hn', rfl⟩, ?_⟩, ?_⟩
        · exact decide_eq_true (List.prefix_append ..)
        · rw [List.drop_left]

/-- A directory has been swept, with the directory itself if `own` holds. -/
structure DirSwept (M : Machine) (d dir : Path) (own : Bool) (T T' : Tree) : Prop where
  shrinks : Shrinks T T'
  exist : T.get dir ≠ none
  result : (T' = T ∧ ((∀ c, M.Grants c) → ∀ q, dir <+: q → (own = true ∨ q ≠ dir) → ¬ CanGo T q)) ∨
    Lost d T T' ∧ ∃ q, dir <+: q ∧ (own = true ∨ q ≠ dir) ∧ CanGo T q

section Walks

variable {dir : Path} (hclean : dir.Clean) (hd : d <+: dir) (hne : dir ≠ d) (hnamed : Named w.tree)

include hclean hd hne hnamed

/-- Sweeping the nodes that a walk has found. -/
lemma sweepFound_ends (own : Bool) {ps : List Path}
    (hps : ∀ p, p ∈ ps ↔ (∃ n, w.tree.get (dir ++ p) = some n) ∧ (own = true ∨ p ≠ []))
    (hexist : w.tree.get dir ≠ none) :
    Ends (fun _ w' => DirSwept M d dir own w.tree w'.tree) (fun _ _ => False) False
      (forEach (fun p => tryCall M.kernel (.remove (dir ++ p))) ps w) := by
  -- no name in these paths is empty
  have hresolve : ∀ p ∈ ps, (dir ++ p).resolve = dir ++ p := by
    intro p hp
    obtain ⟨⟨n, hn⟩, -⟩ := (hps p).mp hp
    rw [hclean.resolve_append, List.filter_eq_self.mpr fun name hname => ?_]
    simpa using hnamed _ (FileTree.get_eq_some.mp hn) name (List.mem_append_right _ hname)
  rw [← forEach_map (fun p => tryCall M.kernel (.remove p))]
  refine (sweep_ends (d := d) (ps.map (dir ++ ·)) ?_).mono ?_ fun _ _ h => h
  · intro q hq
    obtain ⟨p, hp, rfl⟩ := List.mem_map.mp hq
    rw [hresolve p hp]
    refine ⟨hd.trans (List.prefix_append ..), fun heq => hne ?_⟩
    have hdir : dir <+: d := heq ▸ List.prefix_append ..
    exact hdir.eq_of_length_le hd.length_le
  · rintro - w' ⟨hshrinks, hresult⟩
    refine ⟨hshrinks, hexist, hresult.imp ?_ ?_⟩
    · rintro ⟨hsame, hall⟩
      refine ⟨hsame, fun hg q hq hself hgo => ?_⟩
      obtain ⟨p, rfl⟩ := hq
      have hp : p ∈ ps := (hps p).mpr ⟨hgo.get, hself.imp_right fun h hnil => h (by rw [hnil, List.append_nil])⟩
      refine hall (dir ++ p) (List.mem_map_of_mem hp) (hg _) ?_
      rw [hresolve p hp]
      exact hgo
    · rintro ⟨hlost, q, hq, hgo⟩
      obtain ⟨p, hp, rfl⟩ := List.mem_map.mp hq
      rw [hresolve p hp] at hgo
      refine ⟨hlost, dir ++ p, List.prefix_append .., ((hps p).mp hp).2.imp_right fun h heq => h ?_, hgo⟩
      simpa using heq

/-- `remove_dir_content` -/
lemma removeDirContent_ends :
    Ends (fun _ w' => DirSwept M d dir false w.tree w'.tree)
      (fun _ w' => w'.tree = w.tree ∧ (M.Grants (.nftw dir) → w.tree.get dir = none)) False
      (removeDirContent M.kernel dir w) := by
  rw [removeDirContent]
  refine Ends.bind_then (nftw_ends dir hclean (fun ps w' ht hexist hps => ?_) fun e w' ht hwhy => ⟨ht, hwhy⟩)
  rw [← ht] at hexist hps ⊢
  refine (sweepFound_ends hclean hd hne (by rwa [ht]) false (fun p => ?_) hexist).mono
    (fun _ _ h => h) fun _ _ h => h.elim
  rw [List.mem_filter, hps p]
  simp

/-- `remove_dir` -/
lemma removeDir_ends :
    Ends (fun _ w' => DirSwept M d dir true w.tree w'.tree)
      (fun _ w' => w'.tree = w.tree ∧ (M.Grants (.nftw dir) → w.tree.get dir = none)) False
      (removeDir M.kernel dir w) := by
  rw [removeDir]
  refine Ends.bind_then (nftw_ends dir hclean (fun ps w' ht hexist hps => ?_) fun e w' ht hwhy => ⟨ht, hwhy⟩)
  rw [← ht] at hexist hps ⊢
  refine (sweepFound_ends hclean hd hne (by rwa [ht]) true (fun p => ?_) hexist).mono
    (fun _ _ h => h) fun _ _ h => h.elim
  rw [hps p]
  simp

end Walks

lemma Named.shrinks (h : Named T) (hs : Shrinks T T') : Named T' := by
  rintro ⟨q, n⟩ he
  rcases hs q with heq | hnone
  · rw [FileTree.get_eq_some.mpr he] at heq
    exact h (q, n) (FileTree.get_eq_some.mp heq.symm)
  · rw [FileTree.get_eq_some.mpr he] at hnone
    cases hnone

/-- After some directories have been swept: nothing has happened, and `X` and, unless the kernel refuses a
call, `F` hold; or something is gone, and `P` does not hold. -/
structure SweepState (M : Machine) (d : Path) (T : Tree) (P X F : Prop) (T' : Tree) : Prop where
  shrinks : Shrinks T T'
  result : (T' = T ∧ X ∧ ((∀ c, M.Grants c) → F)) ∨ Lost d T T' ∧ ¬ P

/-- The end of all sweeps: nothing has happened, or something is gone. -/
def SweepEnd (M : Machine) (d : Path) (T : Tree) (P : Prop) (T' : Tree) : Prop :=
  (T' = T ∧ ((∀ c, M.Grants c) → P)) ∨ Lost d T T' ∧ ¬ P

namespace SweepState

variable {P X F : Prop} {dir : Path} {own : Bool}

lemma start (M : Machine) (d : Path) (T : Tree) (P : Prop) : SweepState M d T P True True T :=
  ⟨Shrinks.refl T, .inl ⟨rfl, trivial, fun _ => trivial⟩⟩

/-- The next directory has been swept. -/
lemma step (h : SweepState M d T P X F T') (hs : DirSwept M d dir own T' T'')
    (hP : X → T.get dir ≠ none → ∀ q, dir <+: q → (own = true ∨ q ≠ dir) → CanGo T q → ¬ P) :
    SweepState M d T P (X ∧ T.get dir ≠ none)
      (F ∧ ∀ q, dir <+: q → (own = true ∨ q ≠ dir) → ¬ CanGo T q) T'' := by
  refine ⟨h.shrinks.trans hs.shrinks, ?_⟩
  rcases h.result with ⟨rfl, hX, hF⟩ | ⟨hlost, hnot⟩
  · rcases hs.result with ⟨hsame, hall⟩ | ⟨hlost, q, hq, hown, hgo⟩
    · exact .inl ⟨hsame, ⟨hX, hs.exist⟩, fun hg => ⟨hF hg, hall hg⟩⟩
    · exact .inr ⟨hlost, hP hX hs.exist q hq hown hgo⟩
  · exact .inr ⟨hlost.mono hs.shrinks, hnot⟩

/-- The next directory cannot be walked. -/
lemma stop (h : SweepState M d T P X F T') (ht : T'' = T') (hwhy : M.Grants (.nftw dir) → T'.get dir = none)
    (hP : X → F → T.get dir = none → P) : SweepEnd M d T P T'' := by
  rw [ht]
  rcases h.result with ⟨hsame, hX, hF⟩ | hlost
  · rw [hsame] at hwhy ⊢
    exact .inl ⟨rfl, fun hg => hP hX (hF hg) (hwhy (hg _))⟩
  · exact .inr hlost

end SweepState

/-- Nothing below the directories `streaming` and `control` of the function can be removed, or it is not
found. -/
def UvcPlain (d : Path) (T : Tree) : Prop :=
  (d ++ [uvcPathStreaming]).Fits → (d ++ [uvcPathControl]).Fits → T.get (d ++ [uvcPathStreaming]) ≠ none →
    (∀ q, d ++ [uvcPathStreaming] <+: q → q ≠ d ++ [uvcPathStreaming] → ¬ CanGo T q) ∧
      (T.get (d ++ [uvcPathControl]) ≠ none →
        ∀ q, (d ++ [uvcPathStreaming] <+: q ∨ d ++ [uvcPathControl] <+: q) → ¬ CanGo T q)

/-- `uvc_remove` removes what can be removed, or nothing when there is nothing of this kind or the paths
are too long. -/
lemma uvcRemove_ends (hdir : f.dir = d) (hclean : d.Clean) (hnamed : Named w.tree) (opts : RmOpts) :
    Ends (fun _ s => s.2 = f ∧ SweepEnd M d w.tree (UvcPlain d w.tree) s.1.tree)
      (fun _ s => s.2 = f ∧ SweepEnd M d w.tree (UvcPlain d w.tree) s.1.tree) False
      (uvcRemove M.kernel opts (w, f)) := by
  have hdirs : ∀ name : CStr, name ≠ [] → (d ++ [name]).Clean ∧ d <+: d ++ [name] ∧ d ++ [name] ≠ d :=
    fun name hname => ⟨hclean.append (by simpa using hname), List.prefix_append .., by simp⟩
  obtain ⟨hs, hds, hnes⟩ := hdirs uvcPathStreaming (by decide)
  obtain ⟨hc, hdc, hnec⟩ := hdirs uvcPathControl (by decide)
  rw [uvcRemove, self_bind_apply]
  dsimp only
  rw [show f.path ++ [f.name] = d from hdir]
  refine ends_io ?_
  refine Ends.require_bind (fun _ => ?_) fun hd => ⟨rfl, .inl ⟨rfl, fun _ hfits => absurd ?_ hd⟩⟩
  swap
  · exact lt_of_le_of_lt (by simp [Path.len]; omega) hfits
  refine Ends.require_bind (fun hfs => ?_) fun hfs => ⟨rfl, .inl ⟨rfl, fun _ h => absurd h hfs⟩⟩
  refine Ends.require_bind (fun hfc => ?_) fun hfc => ⟨rfl, .inl ⟨rfl, fun _ _ h => absurd h hfc⟩⟩
  -- the contents of both directories
  have hstate := SweepState.start M d w.tree (UvcPlain d w.tree)
  refine Ends.bind ((removeDirContent_ends hs hds hnes hnamed).mono
    (fun _ _ hswept => hstate.step hswept ?_) fun _ w₁ hstop =>
      ⟨rfl, hstate.stop hstop.1 hstop.2 fun _ _ hnone _ _ hsome => absurd hnone hsome⟩) ?_
  · rintro - hexist q hq hown hgo hplain
    exact (hplain hfs hfc hexist).1 q hq (hown.resolve_left (by simp)) hgo
  rintro - w₁ hstate₁
  refine Ends.bind ((removeDirContent_ends hc hdc hnec (hnamed.shrinks hstate₁.shrinks)).mono
    (fun _ _ hswept => hstate₁.step hswept ?_) fun _ w₂ hstop =>
      ⟨rfl, hstate₁.stop hstop.1 hstop.2 ?_⟩) ?_
  · rintro ⟨-, hexist⟩ hexist' q hq - hgo hplain
    exact (hplain hfs hfc hexist).2 hexist' q (.inr hq) hgo
  · rintro - ⟨-, hfree⟩ hnone - - -
    exact ⟨fun q hq hne => hfree q hq (.inr hne), fun hsome => absurd hnone hsome⟩
  rintro - w₂ hstate₂
  -- and the directories themselves
  refine Ends.bind ((removeDir_ends hs hds hnes (hnamed.shrinks hstate₂.shrinks)).mono
    (fun _ _ hswept => hstate₂.step hswept ?_) fun _ w₃ hstop =>
      ⟨rfl, hstate₂.stop hstop.1 hstop.2 ?_⟩) ?_
  · rintro ⟨⟨-, hexist⟩, hexist'⟩ - q hq - hgo hplain
    exact (hplain hfs hfc hexist).2 hexist' q (.inl hq) hgo
  · rintro ⟨⟨-, hexist⟩, -⟩ - hnone
    exact absurd hnone hexist
  rintro - w₃ hstate₃
  refine (removeDir_ends hc hdc hnec (hnamed.shrinks hstate₃.shrinks)).mono ?_ fun _ w₄ hstop =>
    ⟨rfl, hstate₃.stop hstop.1 hstop.2 ?_⟩
  · rintro - w₄ hswept
    have hstate₄ := hstate₃.step hswept ?_
    · refine ⟨rfl, ?_⟩
      rcases hstate₄.result with ⟨hsame, -, hfree⟩ | hlost
      · refine .inl ⟨hsame, fun hg _ _ _ => ?_⟩
        obtain ⟨⟨⟨⟨-, hfree₁⟩, -⟩, hfree₃⟩, hfree₄⟩ := hfree hg
        refine ⟨fun q hq hne => hfree₁ q hq (.inr hne), fun _ q hq => ?_⟩
        rcases hq with hq | hq
        · exact hfree₃ q hq (.inl rfl)
        · exact hfree₄ q hq (.inl rfl)
      · exact .inr hlost
    · rintro ⟨⟨⟨-, hexist⟩, hexist'⟩, -⟩ - q hq - hgo hplain
      exact (hplain hfs hfc hexist).2 hexist' q (.inr hq) hgo
  · rintro ⟨⟨-, hexist'⟩, -⟩ - hnone
    exact absurd hnone hexist'

/-! ## Mass storage -/

/-- The mask is still to be read, and can be. -/
def MaskFresh (d : Path) (T : Tree) (f : Func) : Prop :=
  f.lunsInitiated = false ∧ (f.path ++ [f.name, []]).Fits ∧ T.IsDir d

/-- The unit is in the mask, or will be when it is read. -/
def Masked (d : Path) (T : Tree) (f : Func) (i : ℕ) : Prop :=
  i ∈ f.luns ∨ MaskFresh d T f ∧ T.IsDir (lunAt d i)

/-- There are no units but the first one. -/
def MsPlain (d : Path) (T : Tree) (f : Func) : Prop := ∀ i, 1 ≤ i → i < maxLuns → ¬ Masked d T f i

/-- The units but the first one are such that they can be removed. -/
def UnitsCanGo (d : Path) (T : Tree) (f : Func) : Prop :=
  ∀ i, 1 ≤ i → i < maxLuns → T.IsDir (lunAt d i) → (lunPath f i).Fits ∧ CanGo T (lunAt d i)

/-- What `ms_remove` has done: nothing, besides reading the mask, or some unit is gone. -/
structure MsSwept (M : Machine) (d : Path) (T : Tree) (f : Func) (T' : Tree) (f' : Func) : Prop where
  result : (T' = T ∧ (f' = f ∨ MaskFresh d T f) ∧
      ((∀ c, M.Grants c) → UnitsCanGo d T f → MsPlain d T f)) ∨ Lost d T T' ∧ ¬ MsPlain d T f
  read : (∀ c, M.Grants c) → MaskFresh d T f → f'.lunsInitiated = true

lemma shrinks_prune (T : Tree) (p : Path) : Shrinks T (T.prune p) := by
  intro q
  rw [FileTree.get_prune]
  by_cases hq : p <+: q
  · exact .inr (if_pos hq)
  · exact .inl (if_neg hq)

/-- A unit in the mask that has been read was masked before. -/
lemma MaskRead.masked (h : MaskRead d T f f') {i : ℕ} (hi : i ∈ f'.luns) : Masked d T f i := by
  rcases h.fresh with rfl | hfresh
  · exact .inl hi
  · exact .inr ⟨hfresh, (h.ok.sound i hi).2⟩

/-- Where the units have been found, those that were masked before are in the mask. -/
lemma MaskRead.mem_of_masked (h : MaskRead d T f f') (hread : MaskFresh d T f → f'.lunsInitiated = true) {i : ℕ}
    (hlt : i < maxLuns) (hi : Masked d T f i) : i ∈ f'.luns := by
  rcases hi with hi | ⟨hfresh, hdir⟩
  · exact h.grows i hi
  · have hcomplete : LunsComplete d T f := fun hk => by
      rw [hfresh.1] at hk
      cases hk
    exact h.complete hcomplete (hread hfresh) i hlt hdir

/-- `ms_remove`, which fails only at a unit that it cannot remove -/
lemma msRemove_ends (h : LunsOk d w.tree f) (opts : RmOpts) :
    Ends (fun _ s => MsSwept M d w.tree f s.1.tree s.2)
      (fun _ s => MsSwept M d w.tree f s.1.tree s.2 ∧ ¬ MsPlain d w.tree f) False
      (msRemove M.kernel opts (w, f)) := by
  rw [msRemove]
  refine Ends.bind ((getLunMask_ends h).mono (fun _ _ h => h) fun _ _ h => h.elim) ?_
  rintro - ⟨w₁, f₁⟩ ⟨ht₁, hmask, -, hread⟩
  dsimp only at ht₁ hmask hread
  have hread₁ : (∀ c, M.Grants c) → MaskFresh d w.tree f → f₁.lunsInitiated = true := fun hg hfresh =>
    hread hfresh.2.1 (hg _) hfresh.2.2
  refine (Ends.forEachDone (s := (w₁, f₁)) (fun (done : List ℕ) (s : World Fs × Func) =>
    LunsOk d s.1.tree s.2 ∧ (f₁.lunsInitiated = true → s.2.lunsInitiated = true) ∧
      ((s.1.tree = w.tree ∧ s.2 = f₁ ∧ ∀ k ∈ done, k ∉ f₁.luns) ∨ Lost d w.tree s.1.tree ∧ ¬ MsPlain d w.tree f))
    ?_ ⟨by rw [ht₁]; exact hmask.ok, fun h => h, .inl ⟨ht₁, rfl, by simp⟩⟩).mono ?_ fun _ _ h => h
  · rintro done i ⟨w₂, f₂⟩ hdone ⟨hok, hknown, hstate⟩
    dsimp only at hok hknown hstate
    obtain ⟨hi, hlt⟩ : 1 ≤ i ∧ i < maxLuns := by
      have hall : ∀ i ∈ (List.range maxLuns).drop 1, 1 ≤ i ∧ i < maxLuns := by decide
      exact hall i (hdone.subset (by simp))
    rw [self_bind_apply]
    dsimp only
    refine Ends.when (fun hin => ?_) fun hout => ⟨hok, hknown, ?_⟩
    · -- the unit is in the mask
      refine (usbgFMsRmLun_ends hok hlt).mono ?_ ?_
      · rintro - s ⟨hstep, -, -, ht, hrmdir⟩
        obtain ⟨hmade, -, -, -⟩ := rmdir_eq_ok.mp hrmdir
        refine ⟨hstep.ok, fun hk => hstep.known (hknown hk), .inr ?_⟩
        rcases hstate with ⟨ht₂, rfl, -⟩ | ⟨hlost, hnot⟩
        · rw [ht₂] at ht hmade
          refine ⟨⟨lunAt d i, _, hmade, rfl, List.prefix_append .., by simp [lunAt], ?_⟩,
            fun hplain => hplain i hi hlt (hmask.masked hin)⟩
          rw [ht, FileTree.get_prune, if_pos List.prefix_rfl]
        · exact ⟨hlost.mono (ht ▸ shrinks_prune _ _), hnot⟩
      · rintro - s ⟨ht, hmask₂, hwhy⟩
        have hknown₂ : f₁.lunsInitiated = true → s.2.lunsInitiated = true := fun hk =>
          hmask₂.known (hknown hk) ▸ hknown hk
        have hread₂ := fun hg hfresh => hknown₂ (hread₁ hg hfresh)
        rcases hstate with ⟨ht₂, rfl, -⟩ | ⟨hlost, hnot⟩
        · refine ⟨⟨.inl ⟨ht.trans ht₂, ?_, fun hg hunits => ?_⟩, hread₂⟩,
            fun hplain => hplain i hi hlt (hmask.masked hin)⟩
          · rcases hmask₂.fresh with heq | hfresh₂
            · rw [heq]
              exact hmask.fresh
            · rcases hmask.fresh with heq | hfresh
              · rw [heq, ht₂] at hfresh₂
                exact .inr hfresh₂
              · exact .inr hfresh
          · -- the kernel would have removed it
            rw [ht₂] at hwhy
            have hdir := (hmask.ok.sound i hin).2
            obtain ⟨hfits, T', hgo⟩ := hunits i hi hlt hdir
            have hpath : lunPath f₂ i = lunPath f i := lunPath_congr (hmask.ok.dir.trans h.dir.symm) i
            rw [hpath] at hwhy
            refine absurd ⟨T', ?_⟩ (hwhy (hmask₂.grows i hin) hfits (hg _))
            obtain ⟨b, hb⟩ := FileTree.isDir_iff.mp hdir
            rwa [Machine.remove, hb] at hgo
        · refine ⟨⟨.inr ⟨?_, hnot⟩, hread₂⟩, hnot⟩
          rw [ht]
          exact hlost
    · rcases hstate with ⟨ht₂, rfl, hall⟩ | hlost
      · refine .inl ⟨ht₂, rfl, fun k hk => ?_⟩
        rcases List.mem_append.mp hk with hk | hk
        · exact hall k hk
        · rw [List.mem_singleton.mp hk]
          exact hout
      · exact .inr hlost
  · rintro - s ⟨-, hknown, hstate⟩
    refine ⟨?_, fun hg hfresh => hknown (hread₁ hg hfresh)⟩
    rcases hstate with ⟨ht, hfunc, hall⟩ | hlost
    · refine .inl ⟨ht, hfunc ▸ hmask.fresh, fun hg _ i hi hlt hmasked => ?_⟩
      refine hall i ?_ (hmask.mem_of_masked (hread₁ hg) hlt hmasked)
      have hrange : ∀ i < maxLuns, 1 ≤ i → i ∈ (List.range maxLuns).drop 1 := by decide
      exact hrange i hlt hi
    · exact .inr hlost

/-! ## Without undefined behaviour -/

lemma defined_removeWalk {κ : Type} (K : Kernel κ) (dir : Path) (f : List Path → List Path) :
    Defined (do
      match ← rawCall K (.nftw dir) with
      | .ok ps => forEach (fun p => tryCall K (.remove (dir ++ p))) (f ps)
      | .error _ => fail .pathTooLong : Io κ Unit) := by
  refine .bind (defined_rawCall _) fun r => ?_
  rcases r with e | ps
  · exact .fail _
  · exact .forEach fun p _ _ => by simp [tryCall]

lemma defined_uvcRemove {κ : Type} (K : Kernel κ) (opts : RmOpts) : Defined (uvcRemove K opts) := by
  have hwork : ∀ m : Io κ Unit, Defined m → Defined (io m : On κ Func Unit) := fun m hm s => hm s.1
  refine .bind (fun _ => by simp) fun f => hwork _ ?_
  refine .bind (.require _) fun _ => .bind (.require _) fun _ => .bind (.require _) fun _ => ?_
  refine .bind (defined_removeWalk K _ _) fun _ => .bind (defined_removeWalk K _ _) fun _ => ?_
  exact .bind (defined_removeWalk K _ id) fun _ => defined_removeWalk K _ id

end Libusbgx
