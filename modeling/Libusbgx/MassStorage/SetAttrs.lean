import Libusbgx.MassStorage.Luns

/-!
# Setting the attributes of a mass storage function

`usbg_f_ms_set_attrs` walks over all numbers of units in one pass and creates, updates or removes
each.  It takes the attributes of a unit from the array at the number of the unit, and it undoes
nothing of what it has created when a later step fails.
-/

namespace Libusbgx

open Prog Machine

variable {M : Machine} {d : Path} {T T' : Tree} {f f' : Func} {w : World Fs} {i : ℕ}
  {attrs : MsAttrs} {toBe : List ℤ}

/-! ## One round -/

/-- The attributes of a unit after a round: those at the index of the unit, and at the end of the
array those which the kernel gives to a new unit. -/
def RoundContent (M : Machine) (d : Path) (attrs : MsAttrs) (i : ℕ) (T T' : Tree) : Prop :=
  match lunAttrsAt attrs i with
  | none => False
  | some none => T.get (lunAt d i) = none ∧ ∀ q, lunAt d i <+: q →
      T'.get q = (T.addAll (M.newDir (lunAt d i))).get q
  | some (some l) => LunHolds d T' i l.vals

/-- A round has come to its end. -/
structure RoundDone (M : Machine) (d : Path) (attrs : MsAttrs) (toBe : List ℤ) (i : ℕ) (T T' : Tree)
    (f f' : Func) : Prop where
  step : UnitStep d i T T' f f'
  present : (i : ℤ) ∈ toBe → T'.IsDir (lunAt d i)
  masked : (i : ℤ) ∈ toBe → i ∈ f'.luns
  content : (i : ℤ) ∈ toBe → RoundContent M d attrs i T T'
  left : (i : ℤ) ∉ toBe → (T'.IsDir (lunAt d i) ↔ T.IsDir (lunAt d i) ∧ i ∉ f.luns)
  complete : LunsComplete d T f → LunsComplete d T' f'

/-- A round has failed: whether it has left a new unit depends on the kernel. -/
structure RoundFailed (M : Machine) (d : Path) (i : ℕ) (T T' : Tree) (f f' : Func) : Prop where
  step : UnitStep d i T T' f f'
  noNew : Removable M d T f i → T'.IsDir (lunAt d i) → T.IsDir (lunAt d i)

lemma msSetAttrsRound_ends (attrs : MsAttrs) (toBe : List ℤ) (h : LunsOk d w.tree f) (hi : i < maxLuns) :
    Ends (fun _ s => RoundDone M d attrs toBe i w.tree s.1.tree f s.2)
      (fun _ s => RoundFailed M d i w.tree s.1.tree f s.2) True
      (msSetAttrsRound M.kernel attrs toBe i (w, f)) := by
  rw [msSetAttrsRound, self_bind_apply]
  by_cases hmask : i ∈ f.luns
  · rw [if_pos hmask]
    by_cases hasked : (i : ℤ) ∈ toBe
    · -- the unit is there and stays
      rw [if_pos hasked]
      refine Ends.deref_bind (fun l hl => Ends.deref_bind (fun l' hl' => ?_) fun _ => trivial) fun _ => trivial
      subst hl'
      refine (usbgFMsSetLunAttrs_ends h l').mono ?_ ?_
      · rintro - ⟨w', f'⟩ ⟨hfunc, hrew, hheld⟩
        obtain rfl : f = f' := hfunc.symm
        refine ⟨hrew.unitStep h, fun _ => (hrew.isDir _).mpr (h.sound i hmask).2, fun _ => hmask, fun _ => ?_,
          fun hnot => absurd hasked hnot, fun hc hk j hj hdir => hc hk j hj ((hrew.isDir _).mp hdir)⟩
        rw [RoundContent, hl]
        exact hheld
      · rintro e ⟨w', f'⟩ ⟨hfunc, hrew⟩
        obtain rfl : f = f' := hfunc.symm
        exact ⟨hrew.unitStep h, fun _ hdir => (hrew.isDir _).mp hdir⟩
    · -- the unit is there and goes
      rw [if_neg hasked]
      refine (usbgFMsRmLun_ends h hi).mono_undef ?_ ?_ fun h => h.elim
      · rintro - s ⟨hstep, hgone, hcomplete, -⟩
        exact ⟨hstep, fun h => absurd h hasked, fun h => absurd h hasked, fun h => absurd h hasked,
          fun _ => ⟨fun hdir => absurd hdir hgone, fun hout => absurd hmask hout.2⟩, hcomplete⟩
      · rintro e ⟨w', f'⟩ ⟨ht, hread, -⟩
        dsimp only at ht
        refine ⟨?_, fun _ hdir => ?_⟩
        · rw [ht]
          exact hread.unitStep
        · rwa [ht] at hdir
  · rw [if_neg hmask]
    refine Ends.when (fun hasked => ?_) fun hasked => ?_
    · -- the unit is created
      refine Ends.deref_bind (fun l hl => ?_) fun _ => trivial
      refine (usbgFMsCreateLun_ends h hi l).mono ?_ fun e s hs => ⟨hs.step, hs.noNew_of_removable⟩
      rintro - s hs
      refine ⟨hs.step, fun _ => hs.present, fun _ => hs.masked, fun _ => ?_, fun hnot => absurd hasked hnot,
        hs.complete⟩
      rw [RoundContent, hl]
      cases l with
      | none =>
        refine ⟨hs.absent, fun q _ => ?_⟩
        have hcontent : s.1.tree = w.tree.addAll (M.newDir (lunAt d i)) := hs.content
        rw [hcontent]
      | some l => exact hs.content
    · -- there is nothing to do
      exact ⟨(MaskRead.refl h).unitStep, fun h => absurd h hasked, fun h => absurd h hasked,
        fun h => absurd h hasked, fun _ => (and_iff_left hmask).symm, fun h => h⟩

/-! ## All rounds -/

/-- The rounds for the numbers below `n` have come to their ends. -/
structure RoundsDone (M : Machine) (d : Path) (attrs : MsAttrs) (toBe : List ℤ) (n : ℕ) (T T' : Tree)
    (f f' : Func) : Prop where
  ok : LunsOk d T' f'
  outside : ∀ q, (∀ k < n, ¬ lunAt d k <+: q) → T'.get q = T.get q
  made : ∀ q node, T'.get q = some node → node.made = true → (∀ k < n, q ≠ lunAt d k) →
    T.get q = some node
  present : ∀ k < n, (k : ℤ) ∈ toBe → T'.IsDir (lunAt d k)
  masked : ∀ k < n, (k : ℤ) ∈ toBe → k ∈ f'.luns
  content : ∀ k < n, (k : ℤ) ∈ toBe → RoundContent M d attrs k T T'
  noNew : ∀ k < n, (k : ℤ) ∉ toBe → T'.IsDir (lunAt d k) → T.IsDir (lunAt d k)
  keeps : ∀ k, n ≤ k → k ∈ f.luns → k ∈ f'.luns
  complete : LunsComplete d T f → LunsComplete d T' f'
  known : f.lunsInitiated = true → f'.lunsInitiated = true

/-- What is below one unit is not below another. -/
lemma not_lunAt_below {k j : ℕ} (hk : k < maxLuns) (hj : j < maxLuns) (hkj : k ≠ j) {q : Path}
    (hq : lunAt d j <+: q) : ¬ lunAt d k <+: q := by
  obtain ⟨r, rfl⟩ := hq
  exact not_lunAt_prefix hk hj hkj r

/-- What a round leaves depends only on what is below its unit. -/
lemma RoundContent.congr {T₁ T₁' : Tree} (h : RoundContent M d attrs i T T')
    (hT : ∀ q, lunAt d i <+: q → T₁.get q = T.get q) (hT' : ∀ q, lunAt d i <+: q → T₁'.get q = T'.get q) :
    RoundContent M d attrs i T₁ T₁' := by
  rw [RoundContent] at h ⊢
  cases hl : lunAttrsAt attrs i with
  | none =>
    rw [hl] at h
    exact h
  | some l =>
    rw [hl] at h
    cases l with
    | none =>
      obtain ⟨hnone, hnew⟩ := h
      refine ⟨(hT _ List.prefix_rfl).trans hnone, fun q hq => ?_⟩
      rw [hT' q hq, hnew q hq, get_newDir, get_newDir, hT q hq]
    | some l =>
      intro av hav
      obtain ⟨t, ht, hfile⟩ := h av hav
      exact ⟨t, ht, by rw [hT' _ (List.prefix_append ..), hfile]⟩

lemma isDir_congr {q : Path} (h : T'.get q = T.get q) : T'.IsDir q ↔ T.IsDir q := by
  rw [FileTree.IsDir, FileTree.IsDir, h]

namespace RoundsDone

variable {n : ℕ} {T₁ T₂ : Tree} {f₁ f₂ : Func}

lemma zero (h : LunsOk d T f) : RoundsDone M d attrs toBe 0 T T f f where
  ok := h
  outside _ _ := rfl
  made _ _ hn _ _ := hn
  present k hk := absurd hk (by omega)
  masked k hk := absurd hk (by omega)
  content k hk := absurd hk (by omega)
  noNew k hk := absurd hk (by omega)
  keeps _ _ hk := hk
  complete hc := hc
  known hk := hk

/-- Below a unit that is still to come nothing has changed. -/
lemma below (h : RoundsDone M d attrs toBe n T T₁ f f₁) {j : ℕ} (hj : n ≤ j)
    (hj' : j < maxLuns) {q : Path} (hq : lunAt d j <+: q) : T₁.get q = T.get q :=
  h.outside q fun k hk => not_lunAt_below (by omega) hj' (by omega) hq

/-- One more round. -/
lemma succ (h : RoundsDone M d attrs toBe n T T₁ f f₁) (hn : n < maxLuns)
    (h' : RoundDone M d attrs toBe n T₁ T₂ f₁ f₂) : RoundsDone M d attrs toBe (n + 1) T T₂ f f₂ := by
  have hbelow : ∀ q, lunAt d n <+: q → T₁.get q = T.get q := fun q hq => h.below le_rfl hn hq
  -- the round leaves what is below the earlier units as it was
  have hearlier : ∀ k < n, ∀ q, lunAt d k <+: q → T₂.get q = T₁.get q := fun k hk q hq =>
    h'.step.outside q (not_lunAt_below hn (by omega) (by omega) hq)
  have hdir : ∀ k < n, (T₂.IsDir (lunAt d k) ↔ T₁.IsDir (lunAt d k)) := fun k hk =>
    isDir_congr (hearlier k hk _ List.prefix_rfl)
  constructor
  case ok => exact h'.step.ok
  case outside =>
    intro q hq
    rw [h'.step.outside q (hq n (by omega)), h.outside q fun k hk => hq k (by omega)]
  case made =>
    intro q node hnode hmade hq
    exact h.made q node (h'.step.made q node hnode hmade (hq n (by omega))) hmade fun k hk => hq k (by omega)
  case present =>
    intro k hk hasked
    rcases Nat.lt_succ_iff_lt_or_eq.mp hk with hk | rfl
    · exact (hdir k hk).mpr (h.present k hk hasked)
    · exact h'.present hasked
  case masked =>
    intro k hk hasked
    rcases Nat.lt_succ_iff_lt_or_eq.mp hk with hk | rfl
    · exact h'.step.keeps k (h.masked k hk hasked) (by omega)
    · exact h'.masked hasked
  case content =>
    intro k hk hasked
    rcases Nat.lt_succ_iff_lt_or_eq.mp hk with hk | rfl
    · exact (h.content k hk hasked).congr (fun _ _ => rfl) (hearlier k hk)
    · exact (h'.content hasked).congr (fun q hq => (hbelow q hq).symm) fun _ _ => rfl
  case noNew =>
    intro k hk hasked hd
    rcases Nat.lt_succ_iff_lt_or_eq.mp hk with hk | rfl
    · exact h.noNew k hk hasked ((hdir k hk).mp hd)
    · exact (isDir_congr (hbelow _ List.prefix_rfl)).mp ((h'.left hasked).mp hd).1
  case keeps =>
    intro k hk hmem
    exact h'.step.keeps k (h.keeps k (by omega) hmem) (by omega)
  case complete => exact fun hc => h'.complete (h.complete hc)
  case known => exact fun hk => h'.step.known (h.known hk)

end RoundsDone

/-- The rounds for the numbers below `n`. -/
def msRounds (K : Kernel Fs) (attrs : MsAttrs) (toBe : List ℤ) (n : ℕ) : On Fs Func Unit :=
  forEach (msSetAttrsRound K attrs toBe) (List.range n)

lemma msRounds_ends (attrs : MsAttrs) (toBe : List ℤ) (h : LunsOk d w.tree f) {n : ℕ} (hn : n ≤ maxLuns) :
    Ends (fun _ s => RoundsDone M d attrs toBe n w.tree s.1.tree f s.2) (fun _ _ => True) True
      (msRounds M.kernel attrs toBe n (w, f)) := by
  induction n with
  | zero => exact RoundsDone.zero h
  | succ n ih =>
    rw [msRounds, forEach_range_succ]
    refine Ends.bind (ih (by omega)) ?_
    rintro - ⟨w₁, f₁⟩ hrounds
    exact (msSetAttrsRound_ends attrs toBe hrounds.ok (by omega)).mono (fun _ _ hround => hrounds.succ (by omega) hround)
      fun _ _ _ => trivial

/-! ## The loop and its clean-up -/

/-- The loop does all rounds, or one of them fails, or the behaviour is undefined. -/
lemma msSetAttrsLoop_cases (K : Kernel Fs) (attrs : MsAttrs) (toBe : List ℤ) (done todo : List ℕ)
    (s : World Fs × Func) :
    (∃ t, forEach (msSetAttrsRound K attrs toBe) todo s = (.ok (), t) ∧
      msSetAttrsLoop K attrs toBe done todo s = (.ok (), t)) ∨
    (∃ pre i post t e u, todo = pre ++ i :: post ∧
      forEach (msSetAttrsRound K attrs toBe) pre s = (.ok (), t) ∧
      msSetAttrsRound K attrs toBe i t = (.fail e, u)) ∨
    ∃ t, msSetAttrsLoop K attrs toBe done todo s = (.undef, t) := by
  induction todo generalizing done s with
  | nil => exact .inl ⟨s, rfl, rfl⟩
  | cons i todo ih =>
    rcases hround : msSetAttrsRound K attrs toBe i s with ⟨_ | e | _, u⟩
    · rw [msSetAttrsLoop, bind_ok (onFail_ok hround)]
      rcases ih (done ++ [i]) u with ⟨t, hrounds, hloop⟩ | ⟨pre, j, post, t, e, v, rfl, hrounds, hfail⟩ |
        ⟨t, hloop⟩
      · exact .inl ⟨t, by rw [forEach_cons, bind_ok hround, hrounds], hloop⟩
      · refine .inr (.inl ⟨i :: pre, j, post, t, e, v, rfl, ?_, hfail⟩)
        rw [forEach_cons, bind_ok hround, hrounds]
      · exact .inr (.inr ⟨t, hloop⟩)
    · exact .inr (.inl ⟨[], i, todo, s, e, u, rfl, rfl, hround⟩)
    · refine .inr (.inr ⟨u, ?_⟩)
      rw [msSetAttrsLoop, bind_undef (by rw [onFail_apply, hround])]

/-- A round that fails after others have succeeded is followed by the clean-up. -/
lemma msSetAttrsLoop_of_fail (K : Kernel Fs) {attrs : MsAttrs} {toBe : List ℤ} {pre post : List ℕ} {i : ℕ}
    {t u : World Fs × Func} {e : UsbgError} (hfail : msSetAttrsRound K attrs toBe i t = (.fail e, u)) :
    ∀ (done : List ℕ) (s : World Fs × Func), forEach (msSetAttrsRound K attrs toBe) pre s = (.ok (), t) →
      msSetAttrsLoop K attrs toBe done (pre ++ i :: post) s =
        (((forEach (msCleanupRound K toBe) (done ++ pre) u).1.orFail e),
          (forEach (msCleanupRound K toBe) (done ++ pre) u).2) := by
  induction pre with
  | nil =>
    intro done s hpre
    obtain ⟨-, rfl⟩ := Prod.mk.inj hpre
    rw [List.nil_append, msSetAttrsLoop, bind_apply, onFail_apply, hfail, List.append_nil]
    dsimp only
    rcases forEach (msCleanupRound K toBe) done u with ⟨_ | _ | _, v⟩ <;> rfl
  | cons j pre ih =>
    intro done s hpre
    obtain ⟨_, s₁, hround, hrest⟩ := bind_eq_ok.mp hpre
    rw [List.cons_append, msSetAttrsLoop, bind_ok (onFail_ok hround), ih (done ++ [j]) s₁ hrest,
      List.append_assoc]
    rfl

/-- The clean-up does nothing to units that are in the mask. -/
lemma msCleanup_idle (K : Kernel Fs) {l : List ℕ} {s : World Fs × Func}
    (h : ∀ j ∈ l, (j : ℤ) ∈ toBe → j ∈ s.2.luns) : forEach (msCleanupRound K toBe) l s = (.ok (), s) := by
  induction l with
  | nil => rfl
  | cons j l ih =>
    have hidle : msCleanupRound K toBe j s = (.ok (), s) := by
      rw [msCleanupRound, self_bind_apply, when_of_not]
      · rfl
      · rintro ⟨hnot, hasked⟩
        exact hnot (h j (List.mem_cons_self ..) hasked)
    rw [forEach_cons, bind_ok hidle]
    exact ih fun k hk => h k (List.mem_cons_of_mem _ hk)

/-- What stands before a number in a range. -/
lemma eq_range_of_range_eq {n i : ℕ} {pre post : List ℕ} (h : List.range n = pre ++ i :: post) :
    pre = List.range i ∧ i < n := by
  have hlen := congrArg List.length h
  rw [List.length_range, List.length_append, List.length_cons] at hlen
  have htake : pre = (List.range n).take pre.length := by rw [h, List.take_left]
  have hi : i = pre.length := by
    have hget : (List.range n)[pre.length]? = some i := by rw [h]; simp
    rw [List.getElem?_range (by omega)] at hget
    exact (Option.some.inj hget).symm
  rw [List.take_range, Nat.min_eq_left (by omega), ← hi] at htake
  exact ⟨htake, by omega⟩

/-! ## The start -/

/-- What `usbg_f_ms_set_attrs` does before the loop. -/
def msSetAttrsStart (K : Kernel Fs) (attrs : MsAttrs) : On Fs Func (List ℤ) := do
  usbgFMsSetStall K attrs.stall
  let _ ← getLunMask K
  let _ ← getLunMask K
  deref (lunsToBe attrs)

lemma usbgFMsSetAttrs_eq (K : Kernel Fs) (attrs : MsAttrs) :
    usbgFMsSetAttrs K attrs = (msSetAttrsStart K attrs >>= fun toBe =>
      msSetAttrsLoop K attrs toBe [] (List.range maxLuns)) := by
  simp only [usbgFMsSetAttrs, msSetAttrsStart, Prog.bind_assoc]

/-- The state before the loop: the units are as they were, and the mask has been read if the
directory of the function can be read. -/
structure Started (M : Machine) (d : Path) (attrs : MsAttrs) (T T' : Tree) (f f' : Func)
    (toBe : List ℤ) : Prop where
  asked : lunsToBe attrs = some toBe
  ok : LunsOk d T' f'
  rewritten : Rewritten d T T'
  below : ∀ i < maxLuns, ∀ q, lunAt d i <+: q → T'.get q = T.get q
  complete : LunsComplete d T f → LunsComplete d T' f'
  known : (f.lunsInitiated = true ∨
    M.Grants (.scandir (f.path ++ [f.name, []])) ∧ T.IsDir d) → f'.lunsInitiated = true

/-- The file of the function itself is not below a unit. -/
lemma not_lunAt_prefix_stall (hi : i < maxLuns) : ¬ lunAt d i <+: d ++ ["stall".toList] := by
  rcases name_cases d i "stall".toList with hname | hout
  · have hstall : scanIndex "lun.".toList "stall".toList = .mismatch := by decide
    rw [hname, scanIndex_lunDir hi] at hstall
    cases hstall
  · exact hout

/-- `usbg_f_ms_set_stall` writes a file that belongs to no unit. -/
lemma usbgFMsSetStall_rewrites (stall : Bool) (h : LunsOk d w.tree f) :
    Ends (fun _ s => s.2 = f ∧ (f.path ++ [f.name, []]).Fits ∧ Rewritten d w.tree s.1.tree ∧
        ∀ i < maxLuns, ∀ q, lunAt d i <+: q → s.1.tree.get q = w.tree.get q)
      (fun _ s => s.2 = f ∧ s.1.tree = w.tree) False (usbgFMsSetStall M.kernel stall (w, f)) := by
  have hresolve : (f.path ++ [f.name, "stall".toList]).resolve = d ++ ["stall".toList] := by
    have hpath : f.path ++ [f.name, "stall".toList] = d ++ ["stall".toList] := by
      rw [← h.dir, Func.dir, List.append_assoc]
      rfl
    rw [hpath, h.clean.resolve_append]
    rfl
  rw [usbgFMsSetStall, self_bind_apply]
  refine ends_io (Ends.require_bind (fun hfits => ?_) fun _ => ⟨rfl, rfl⟩)
  have hfits' : (f.path ++ [f.name, []]).Fits := fits_funcDir hfits
  refine ends_write (fun w' hfile ht _ => ?_) fun e w' ht _ => ⟨rfl, ht⟩
  rw [hresolve] at hfile ht
  obtain ⟨content, hfile⟩ := hfile
  refine ⟨rfl, hfits', ?_, fun i hi q hq => ?_⟩
  · rw [ht]
    exact Rewritten.replace hfile
  · have hne : q ≠ d ++ ["stall".toList] := fun heq => not_lunAt_prefix_stall hi (heq ▸ hq)
    rw [ht, FileTree.get_replace, if_neg hne]

lemma msSetAttrsStart_ends (attrs : MsAttrs) (h : LunsOk d w.tree f) :
    Ends (fun toBe s => Started M d attrs w.tree s.1.tree f s.2 toBe) (fun _ s => s.1.tree = w.tree) True
      (msSetAttrsStart M.kernel attrs (w, f)) := by
  rw [msSetAttrsStart]
  refine Ends.bind ((usbgFMsSetStall_rewrites attrs.stall h).mono_undef (fun _ _ h => h) (fun _ _ h => h.2)
    fun h => h.elim) ?_
  rintro - ⟨w₁, f₁⟩ ⟨hfunc, hfits, hrew, hbelow⟩
  obtain rfl : f = f₁ := hfunc.symm
  have hok₁ : LunsOk d w₁.tree f := hrew.lunsOk h
  refine Ends.bind ((getLunMask_ends hok₁).mono_undef (fun _ _ h => h) (fun _ _ h => h.elim) fun h => h.elim) ?_
  rintro - ⟨w₂, f₂⟩ ⟨ht₂, hmask₂, -, hread⟩
  dsimp only at ht₂ hmask₂ hread
  have hok₂ : LunsOk d w₂.tree f₂ := by
    rw [ht₂]
    exact hmask₂.ok
  -- the mask is asked for twice; the second time it has been read
  refine Ends.bind ((getLunMask_ends hok₂).mono_undef (fun _ _ h => h) (fun _ _ h => h.elim) fun h => h.elim) ?_
  rintro - ⟨w₃, f₃⟩ ⟨ht₃, hmask₃, -, -⟩
  dsimp only at ht₃ hmask₃
  cases hasked : lunsToBe attrs with
  | none => trivial
  | some toBe =>
    have ht : w₃.tree = w₁.tree := ht₃.trans ht₂
    have hdirs : ∀ q, w₁.tree.IsDir q ↔ w.tree.IsDir q := hrew.isDir
    refine ⟨hasked, ?_, ?_, ?_, fun hc hk j hj hd => ?_, fun hknown => ?_⟩
    · rw [ht₃]
      exact hmask₃.ok
    · rw [ht]
      exact hrew
    · rw [ht]
      exact hbelow
    · have hc₁ : LunsComplete d w₁.tree f := fun hk j hj hd => hc hk j hj ((hdirs _).mp hd)
      have hc₂ : LunsComplete d w₂.tree f₂ := by
        rw [ht₂]
        exact hmask₂.complete hc₁
      rw [ht₃] at hd
      exact hmask₃.complete hc₂ hk j hj hd
    · have hknown₂ : f₂.lunsInitiated = true := by
        rcases hknown with hk | ⟨hg, hdir⟩
        · rw [hmask₂.known hk]
          exact hk
        · exact hread hfits hg ((hdirs d).mpr hdir)
      rw [hmask₃.known hknown₂]
      exact hknown₂

/-! ## The clean-up after a failure -/

/-- `usbg_f_ms_set_attrs` fails in the round for the number `i`. -/
def FailsInRound (M : Machine) (attrs : MsAttrs) (w : World Fs) (f : Func) (i : ℕ) : Prop :=
  ∃ toBe s t e u, msSetAttrsStart M.kernel attrs (w, f) = (.ok toBe, s) ∧
    msRounds M.kernel attrs toBe i s = (.ok (), t) ∧
      msSetAttrsRound M.kernel attrs toBe i t = (.fail e, u)

/-- How the round for the number `i` ends, if it is reached. -/
def roundOutcome (M : Machine) (attrs : MsAttrs) (w : World Fs) (f : Func) (i : ℕ) : Option (Outcome UsbgError Unit) :=
  match msSetAttrsStart M.kernel attrs (w, f) with
  | (.ok toBe, s) =>
    match msRounds M.kernel attrs toBe i s with
    | (.ok (), t) => some (msSetAttrsRound M.kernel attrs toBe i t).1
    | _ => none
  | _ => none

lemma FailsInRound.roundOutcome_eq (h : FailsInRound M attrs w f i) : ∃ e, roundOutcome M attrs w f i = some (.fail e) := by
  obtain ⟨toBe, s, t, e, u, hstart, hrounds, hround⟩ := h
  exact ⟨e, by simp only [roundOutcome, hstart, hrounds, hround]⟩

/-- When `usbg_f_ms_set_attrs` has failed, there is no unit that was not there before. -/
def RolledBack (M : Machine) (attrs : MsAttrs) (w : World Fs) (f : Func) : Prop :=
  ∀ e s, usbgFMsSetAttrs M.kernel attrs (w, f) = (.fail e, s) →
    ∀ i < maxLuns, s.1.tree.IsDir (lunAt f.dir i) → w.tree.IsDir (lunAt f.dir i)

/-- In whichever round `usbg_f_ms_set_attrs` fails, the units that are asked for with a smaller
number were there before. -/
def NothingToUndo (M : Machine) (attrs : MsAttrs) (w : World Fs) (f : Func) : Prop :=
  ∀ i < maxLuns, FailsInRound M attrs w f i → ∀ toBe, lunsToBe attrs = some toBe →
    ∀ j < i, (j : ℤ) ∈ toBe → w.tree.IsDir (lunAt f.dir j)

lemma Removable.of_started {n : ℕ} (h : Removable M d T f n) (hs : Started M d attrs T T' f f' toBe)
    (hdir : f'.dir = f.dir) : Removable M d T' f' n := by
  refine ⟨by rw [lunPath_congr hdir]; exact h.1, fun hnone => ?_⟩
  have hsame : ∀ {q node}, T'.get q = some node → node.made = true → T.get q = some node := by
    intro q node hnode hm
    exact (hs.rewritten.get_eq_some (by cases node <;> first | rfl | cases hm)).mp hnode
  have hnone' : T.get (lunAt d n) = none := by
    rcases hs.rewritten (lunAt d n) with heq | ⟨-, c, c', -, hc'⟩
    · exact heq.symm.trans hnone
    · rw [hnone] at hc'
      cases hc'
  obtain ⟨hmade, hpinned⟩ := h.2 hnone'
  refine ⟨fun hb => hmade ?_, fun hp => hpinned ?_⟩
  · obtain ⟨q, node, hnode, hq, hne, hm⟩ := FileTree.madeBelow_iff.mp hb
    exact FileTree.madeBelow_iff.mpr ⟨q, node, hsame hnode hm, hq, hne, hm⟩
  · obtain ⟨q, text, hlink⟩ := FileTree.pinned_iff.mp hp
    exact FileTree.pinned_iff.mpr ⟨q, text, hsame hlink rfl⟩

/-- A unit that can be removed at the start can be removed when its round comes. -/
lemma Removable.of_rounds {n : ℕ} (h : Removable M d T f n) (hn : n < maxLuns)
    (hrounds : RoundsDone M d attrs toBe n T T' f f') (hdir : f'.dir = f.dir) : Removable M d T' f' n := by
  refine ⟨by rw [lunPath_congr hdir]; exact h.1, fun hnone => ?_⟩
  have hbelow : ∀ q, lunAt d n <+: q → T'.get q = T.get q := fun q hq => hrounds.below le_rfl hn hq
  obtain ⟨hmade, hpinned⟩ := h.2 ((hbelow _ List.prefix_rfl).symm.trans hnone)
  refine ⟨fun hb => hmade ?_, fun hp => hpinned ?_⟩
  · obtain ⟨q, node, hnode, hq, hne, hm⟩ := FileTree.madeBelow_iff.mp hb
    exact FileTree.madeBelow_iff.mpr ⟨q, node, (hbelow q hq).symm.trans hnode, hq, hne, hm⟩
  · obtain ⟨q, text, hlink⟩ := FileTree.pinned_iff.mp hp
    refine FileTree.pinned_iff.mpr ⟨q, text, hrounds.made q _ hlink rfl fun k hk hq => ?_⟩
    -- at the place of a unit there is no link
    have hd := (hrounds.ok.isDir (i := k) (by omega)).mpr (by rw [← hq, hlink]; simp)
    obtain ⟨b, hb⟩ := FileTree.isDir_iff.mp hd
    rw [← hq, hlink] at hb
    cases hb

/-- The clean-up does nothing after the rounds that it is for. -/
lemma msCleanup_rounds {s₀ t u : World Fs × Func} {e : UsbgError} (h : LunsOk d s₀.1.tree s₀.2)
    (hi : i < maxLuns) (hrounds : msRounds M.kernel attrs toBe i s₀ = (.ok (), t))
    (hfail : msSetAttrsRound M.kernel attrs toBe i t = (.fail e, u)) :
    RoundsDone M d attrs toBe i s₀.1.tree t.1.tree s₀.2 t.2 ∧
      RoundFailed M d i t.1.tree u.1.tree t.2 u.2 ∧
        forEach (msCleanupRound M.kernel toBe) (List.range i) u = (.ok (), u) := by
  have hdone := msRounds_ends (M := M) attrs toBe (w := s₀.1) (f := s₀.2) h hi.le
  rw [hrounds] at hdone
  have hround := msSetAttrsRound_ends (M := M) attrs toBe (w := t.1) (f := t.2)
    hdone.ok hi
  rw [hfail] at hround
  refine ⟨hdone, hround, msCleanup_idle _ fun j hj hasked => ?_⟩
  have hji : j < i := List.mem_range.mp hj
  exact hround.step.keeps j (hdone.masked j hji hasked) (by omega)

/-- After a failure in a round the units are as the round has left them. -/
lemma usbgFMsSetAttrs_of_fail {s₀ t u : World Fs × Func} {e : UsbgError} (h : LunsOk d s₀.1.tree s₀.2)
    (hi : i < maxLuns) (hstart : msSetAttrsStart M.kernel attrs (w, f) = (.ok toBe, s₀))
    (hrounds : msRounds M.kernel attrs toBe i s₀ = (.ok (), t))
    (hfail : msSetAttrsRound M.kernel attrs toBe i t = (.fail e, u)) :
    usbgFMsSetAttrs M.kernel attrs (w, f) = (.fail e, u) := by
  obtain ⟨post, hrange⟩ : ∃ post, List.range maxLuns = List.range i ++ i :: post := by
    refine ⟨(List.range maxLuns).drop (i + 1), ?_⟩
    have htake : List.range (i + 1) = (List.range maxLuns).take (i + 1) := by
      rw [List.take_range, Nat.min_eq_left (by omega)]
    rw [← List.singleton_append, ← List.append_assoc, ← List.range_succ, htake, List.take_append_drop]
  rw [usbgFMsSetAttrs_eq, bind_ok hstart, hrange, msSetAttrsLoop_of_fail M.kernel hfail [] s₀ hrounds,
    List.nil_append, (msCleanup_rounds h hi hrounds hfail).2.2]
  rfl

/-- A failure is one of the start or one of a round. -/
lemma usbgFMsSetAttrs_fail (h : LunsOk f.dir w.tree f) {e : UsbgError} {s : World Fs × Func}
    (hrun : usbgFMsSetAttrs M.kernel attrs (w, f) = (.fail e, s)) :
    (msSetAttrsStart M.kernel attrs (w, f) = (.fail e, s)) ∨
    ∃ toBe s₀ i t, i < maxLuns ∧ msSetAttrsStart M.kernel attrs (w, f) = (.ok toBe, s₀) ∧
      msRounds M.kernel attrs toBe i s₀ = (.ok (), t) ∧
        msSetAttrsRound M.kernel attrs toBe i t = (.fail e, s) := by
  have hrun' := hrun
  rw [usbgFMsSetAttrs_eq] at hrun'
  rcases bind_eq_fail.mp hrun' with hstart | ⟨toBe, s₀, hstart, hloop⟩
  · exact .inl hstart
  refine .inr ⟨toBe, s₀, ?_⟩
  have hstarted := msSetAttrsStart_ends (M := M) attrs h
  rw [hstart] at hstarted
  rcases msSetAttrsLoop_cases M.kernel attrs toBe [] (List.range maxLuns) s₀ with
    ⟨t, -, hok⟩ | ⟨pre, i, post, t, e', u, hrange, hrounds, hfail⟩ | ⟨t, hundef⟩
  · rw [hok] at hloop
    cases hloop
  · obtain ⟨rfl, hi⟩ := eq_range_of_range_eq hrange
    rw [usbgFMsSetAttrs_of_fail hstarted.ok hi hstart hrounds hfail] at hrun
    obtain ⟨he, rfl⟩ := Prod.mk.inj hrun
    obtain rfl : e' = e := Outcome.fail.inj he
    exact ⟨i, t, hi, hstart, hrounds, hfail⟩
  · rw [hundef] at hloop
    cases hloop

/-- A failure of `usbg_f_ms_set_attrs` leaves no new unit exactly when none was created before the round
that fails. -/
theorem rolledBack_iff (M : Machine) (attrs : MsAttrs) (w : World Fs) (f : Func)
    (h : LunsOk f.dir w.tree f) (hrm : ∀ i < maxLuns, Removable M f.dir w.tree f i) :
    RolledBack M attrs w f ↔ NothingToUndo M attrs w f := by
  have hstarted := msSetAttrsStart_ends (M := M) attrs h
  constructor
  · rintro hback i hi ⟨toBe, s₀, t, e, u, hstart, hrounds, hfail⟩ toBe' hasked j hj hmem
    rw [hstart] at hstarted
    obtain rfl := Option.some.inj (hstarted.asked.symm.trans hasked)
    obtain ⟨hdone, hround, -⟩ := msCleanup_rounds hstarted.ok hi hrounds hfail
    have hrun := usbgFMsSetAttrs_of_fail hstarted.ok hi hstart hrounds hfail
    refine hback e u hrun j (by omega) ?_
    exact (hround.step.isDir_iff hi (by omega) (by omega)).mpr (hdone.present j hj hmem)
  · intro hnone e s hrun i hi hdir
    rcases usbgFMsSetAttrs_fail h hrun with hstart | ⟨toBe, s₀, k, t, hk, hstart, hrounds, hfail⟩
    · rw [hstart] at hstarted
      have ht : s.1.tree = w.tree := hstarted
      rwa [ht] at hdir
    · rw [hstart] at hstarted
      obtain ⟨hdone, hround, -⟩ := msCleanup_rounds hstarted.ok hk hrounds hfail
      have hinit : ∀ j < maxLuns, (s₀.1.tree.IsDir (lunAt f.dir j) ↔ w.tree.IsDir (lunAt f.dir j)) :=
        fun j hj => isDir_congr (hstarted.below j hj _ List.prefix_rfl)
      by_cases hik : i = k
      · subst hik
        have hrm₀ : Removable M f.dir s₀.1.tree s₀.2 i := (hrm i hi).of_started hstarted hstarted.ok.dir
        have hrm₁ : Removable M f.dir t.1.tree t.2 i :=
          hrm₀.of_rounds hk hdone (hdone.ok.dir.trans hstarted.ok.dir.symm)
        have hd := hround.noNew hrm₁ hdir
        exact (hinit i hi).mp ((isDir_congr (hdone.below le_rfl hi List.prefix_rfl)).mp hd)
      · have hd := (hround.step.isDir_iff hk hi hik).mp hdir
        rcases Nat.lt_or_ge i k with hlt | hge
        · by_cases hasked : (i : ℤ) ∈ toBe
          · exact hnone k hk ⟨toBe, s₀, t, e, s, hstart, hrounds, hfail⟩ toBe hstarted.asked i hlt hasked
          · exact (hinit i hi).mp (hdone.noNew i hlt hasked hd)
        · exact (hinit i hi).mp ((isDir_congr (hdone.below hge hi List.prefix_rfl)).mp hd)

/-- Three units for a function that has the first one. -/
def threeUnits : MsAttrs where
  stall := true
  luns := [unitAttrs 0 "/a".toList, unitAttrs 1 "/b".toList, unitAttrs 2 "/c".toList]

lemma lunsOk_unitsTree : LunsOk unitsFunc.dir (worldOf (unitsTree [0])).tree unitsFunc := by
  rw [tree_worldOf]
  exact lunsOk_of_entries ⟨by decide, by decide +kernel⟩ rfl (by decide +kernel)

lemma removable_unitsTree {refused : List CStr} (i : ℕ) (hi : i < maxLuns) :
    Removable (unitsMachine refused) unitsFunc.dir (worldOf (unitsTree [0])).tree unitsFunc i := by
  refine ⟨fun _ => rfl, fun _ => ?_⟩
  rw [tree_worldOf]
  revert i
  decide +kernel

/-- If the kernel refuses to make the second unit, there is nothing to undo. -/
lemma nothingToUndo_second :
    NothingToUndo (unitsMachine [lunDir 1]) threeUnits (worldOf (unitsTree [0])) unitsFunc := by
  have hrounds : ∀ i < maxLuns, i ≤ 1 ∨ roundOutcome (unitsMachine [lunDir 1]) threeUnits (worldOf (unitsTree [0]))
      unitsFunc i = none := by decide +kernel
  intro i hi hfails toBe _ j hj _
  obtain ⟨e, he⟩ := hfails.roundOutcome_eq
  have hi1 : i ≤ 1 := (hrounds i hi).resolve_right fun hnone => by simp [hnone] at he
  obtain rfl : j = 0 := by omega
  decide +kernel

/-- Against a kernel that refuses to make the third unit, and against one that refuses to make the second. -/
theorem rolledBack_refused :
    (RolledBack (unitsMachine [lunDir 2]) threeUnits (worldOf (unitsTree [0])) unitsFunc ↔
      NothingToUndo (unitsMachine [lunDir 2]) threeUnits (worldOf (unitsTree [0])) unitsFunc) ∧
    RolledBack (unitsMachine [lunDir 1]) threeUnits (worldOf (unitsTree [0])) unitsFunc :=
  ⟨rolledBack_iff (unitsMachine [lunDir 2]) threeUnits (worldOf (unitsTree [0])) unitsFunc lunsOk_unitsTree
      removable_unitsTree,
    (rolledBack_iff (unitsMachine [lunDir 1]) threeUnits (worldOf (unitsTree [0])) unitsFunc lunsOk_unitsTree
      removable_unitsTree).mpr nothingToUndo_second⟩

/-- How `usbg_f_ms_set_attrs` ends, and which units there are then. -/
def setAttrsUnits (M : Machine) (attrs : MsAttrs) (T : Tree) : Bool × List ℕ :=
  match usbgFMsSetAttrs M.kernel attrs (worldOf T, unitsFunc) with
  | (.fail _, s) => (true, (List.range maxLuns).filter fun i => s.1.tree.IsDir (lunAt unitsFunc.dir i))
  | (_, s) => (false, (List.range maxLuns).filter fun i => s.1.tree.IsDir (lunAt unitsFunc.dir i))

/-- The third unit cannot be made, and the second stays behind. -/
theorem rolledBack_fails :
    ¬ RolledBack (unitsMachine [lunDir 2]) threeUnits (worldOf (unitsTree [0])) unitsFunc := by
  have hrun : setAttrsUnits (unitsMachine [lunDir 2]) threeUnits (unitsTree [0]) = (true, [0, 1]) := by
    decide +kernel
  have hbefore : ¬ (unitsTree [0]).IsDir (lunAt unitsFunc.dir 1) := by decide +kernel
  intro hback
  rw [setAttrsUnits] at hrun
  split at hrun
  · next e s hfail =>
    have hleft := (Prod.mk.inj hrun).2
    have hmem : 1 ∈ [0, 1] := by decide
    rw [← hleft, List.mem_filter, decide_eq_true_eq] at hmem
    exact hbefore (hback e s hfail 1 (by decide) hmem.2)
  · cases hrun

end Libusbgx
