import Libusbgx.Base.Prog

/-!
# Programs with their accesses

A program together with the list of the accesses that a run of it makes.  Leaving the lists out gives
the program back, so that what is said about the accesses is said about the runs of the program.
-/

namespace Libusbgx

/-- A program, and the accesses it makes when it is run in a state. -/
structure Watched (ε σ A α : Type) where
  run : Prog ε σ α
  trace : σ → List A

namespace Watched

open Prog

variable {ε σ A α β : Type} {P : A → Prop}

/-- A program that makes no accesses. -/
def quiet (m : Prog ε σ α) : Watched ε σ A α := ⟨m, fun _ => []⟩

/-- The accesses in the list, and what the program does with them. -/
def access (l : List A) (m : Prog ε σ α) : Watched ε σ A α := ⟨m, fun _ => l⟩

/-- The second program makes its accesses in the state that the first has left. -/
protected def bind (m : Watched ε σ A α) (f : α → Watched ε σ A β) : Watched ε σ A β where
  run := m.run >>= fun a => (f a).run
  trace s := m.trace s ++
    match m.run s with
    | (.ok a, t) => (f a).trace t
    | _ => []

instance : Monad (Watched ε σ A) where
  pure a := quiet (pure a)
  bind := Watched.bind

/-- `Prog.attempt` -/
def attempt (m : Watched ε σ A α) : Watched ε σ A (Except ε α) := ⟨Prog.attempt m.run, m.trace⟩

/-- `Prog.onFail` -/
def onFail (m : Watched ε σ A α) (c : Watched ε σ A Unit) : Watched ε σ A α where
  run := Prog.onFail m.run c.run
  trace s := m.trace s ++
    match m.run s with
    | (.fail _, t) => c.trace t
    | _ => []

/-- `Prog.forEach` -/
def forEach (f : β → Watched ε σ A Unit) : List β → Watched ε σ A Unit
  | [] => pure ()
  | b :: bs => f b >>= fun _ => forEach f bs

/-- `Prog.when` -/
def when (c : Prop) [Decidable c] (m : Watched ε σ A Unit) : Watched ε σ A Unit := if c then m else pure ()

/-! ### Runs -/

@[simp] lemma run_quiet (m : Prog ε σ α) : (quiet m : Watched ε σ A α).run = m := rfl

@[simp] lemma run_access (l : List A) (m : Prog ε σ α) : (access l m).run = m := rfl

@[simp] lemma run_pure (a : α) : (pure a : Watched ε σ A α).run = pure a := rfl

@[simp] lemma run_bind (m : Watched ε σ A α) (f : α → Watched ε σ A β) :
    (m >>= f).run = (m.run >>= fun a => (f a).run) := rfl

@[simp] lemma run_attempt (m : Watched ε σ A α) : (attempt m).run = Prog.attempt m.run := rfl

@[simp] lemma run_onFail (m : Watched ε σ A α) (c : Watched ε σ A Unit) :
    (onFail m c).run = Prog.onFail m.run c.run := rfl

@[simp] lemma run_forEach (f : β → Watched ε σ A Unit) (l : List β) :
    (forEach f l).run = Prog.forEach (fun b => (f b).run) l := by
  induction l with
  | nil => rfl
  | cons b bs ih => rw [forEach, run_bind, ih, forEach_cons]

@[simp] lemma run_ite {c : Prop} [Decidable c] {m m' : Watched ε σ A α} :
    (if c then m else m').run = if c then m.run else m'.run := apply_ite ..

@[simp] lemma run_when {c : Prop} [Decidable c] {m : Watched ε σ A Unit} :
    (when c m).run = Prog.when c m.run := run_ite

/-- Programs without accesses, one after the other. -/
lemma quiet_bind {γ : Type} (m : Prog ε σ α) (f : α → Prog ε σ β) (g : β → Watched ε σ A γ) :
    (quiet m >>= fun a => quiet (f a) >>= g) = (quiet (m >>= f) >>= g) := by
  have hrun : (m >>= fun a => f a >>= fun b => (g b).run) = ((m >>= f) >>= fun b => (g b).run) :=
    (Prog.bind_assoc ..).symm
  refine congrArg₂ Watched.mk hrun (funext fun s => ?_)
  show [] ++ _ = [] ++ _
  rw [run_quiet, run_quiet, bind_apply]
  rcases m s with ⟨a | e | _, t⟩ <;> rfl

/-! ### All accesses -/

/-- All accesses of a run in this state are allowed. -/
def Allowed (P : A → Prop) (m : Watched ε σ A α) (s : σ) : Prop := ∀ a ∈ m.trace s, P a

lemma allowed_quiet (m : Prog ε σ α) (s : σ) : Allowed P (quiet m) s := fun _ h => absurd h List.not_mem_nil

lemma allowed_access {l : List A} {m : Prog ε σ α} {s : σ} : Allowed P (access l m) s ↔ ∀ a ∈ l, P a := Iff.rfl

/-- A sequence makes the accesses of the first program and, if that returns, those of the second. -/
lemma allowed_bind {m : Watched ε σ A α} {f : α → Watched ε σ A β} {s : σ} :
    Allowed P (m >>= f) s ↔ Allowed P m s ∧ ∀ a t, m.run s = (.ok a, t) → Allowed P (f a) t := by
  have htrace : (m >>= f).trace s = m.trace s ++
      match m.run s with
      | (.ok a, t) => (f a).trace t
      | _ => [] := rfl
  rw [Allowed, htrace]
  rcases hm : m.run s with ⟨a | e | _, t⟩
  · rw [List.forall_mem_append]
    refine and_congr_right fun _ => ⟨?_, fun h => h a t rfl⟩
    rintro h a' t' heq
    obtain ⟨rfl, rfl⟩ := Prod.mk.inj heq |>.imp_left Outcome.ok.inj
    exact h
  · simp [Allowed]
  · simp [Allowed]

/-- A sequence that returns has gone through both programs. -/
lemma allowed_bind_ok {m : Watched ε σ A α} {f : α → Watched ε σ A β} {s u : σ} {b : β} (h : Allowed P (m >>= f) s)
    (hrun : (m >>= f).run s = (.ok b, u)) : ∃ a t, m.run s = (.ok a, t) ∧ Allowed P m s ∧ Allowed P (f a) t ∧
      (f a).run t = (.ok b, u) := by
  obtain ⟨a, t, hm, hf⟩ := bind_eq_ok.mp hrun
  obtain ⟨hms, hfs⟩ := allowed_bind.mp h
  exact ⟨a, t, hm, hms, hfs a t hm, hf⟩

lemma allowed_onFail {m : Watched ε σ A α} {c : Watched ε σ A Unit} {s : σ} :
    Allowed P (onFail m c) s ↔ Allowed P m s ∧ ∀ e t, m.run s = (.fail e, t) → Allowed P c t := by
  rw [Allowed, onFail]
  dsimp only
  rcases hm : m.run s with ⟨a | e | _, t⟩
  · simp [Allowed]
  · rw [List.forall_mem_append]
    refine and_congr_right fun _ => ⟨?_, fun h => h e t rfl⟩
    rintro h e' t' heq
    obtain ⟨-, rfl⟩ := Prod.mk.inj heq
    exact h
  · simp [Allowed]

/-- A program in front that returns, and makes no accesses. -/
lemma allowed_bind_quiet {m : Prog ε σ α} {f : α → Watched ε σ A β} {s t : σ} {a : α} (h : m s = (.ok a, t)) :
    Allowed P (quiet m >>= f) s ↔ Allowed P (f a) t := by
  rw [allowed_bind, and_iff_right (allowed_quiet m s)]
  constructor
  · exact fun hf => hf a t h
  · intro ha b u hrun
    obtain ⟨hab, rfl⟩ := Prod.mk.inj (h.symm.trans hrun)
    exact Outcome.ok.inj hab ▸ ha

/-- A sequence whose first program fails makes no accesses. -/
lemma allowed_of_fail {m : Prog ε σ α} {f : α → Watched ε σ A β} {s t : σ} {e : ε} (h : m s = (.fail e, t)) :
    Allowed P (quiet m >>= f) s ∧ (quiet m >>= f).run s = (.fail e, t) := by
  refine ⟨allowed_bind.mpr ⟨allowed_quiet m s, fun a t' hrun => ?_⟩, bind_fail h⟩
  rw [run_quiet, h] at hrun
  cases hrun

/-- A loop that returns has gone through every round. -/
lemma allowed_forEach_ok {f : β → Watched ε σ A Unit} {l : List β} {s t : σ}
    (h : Allowed P (forEach f l) s) (hrun : (forEach f l).run s = (.ok (), t)) :
    ∀ b ∈ l, ∃ s' t', Allowed P (f b) s' ∧ (f b).run s' = (.ok (), t') := by
  induction l generalizing s with
  | nil => simp
  | cons b bs ih =>
    obtain ⟨⟨⟩, t', hround, hb, hbs, hrun⟩ := allowed_bind_ok h hrun
    intro b' hb'
    rcases List.mem_cons.mp hb' with rfl | hb'
    · exact ⟨s, t', hb, hround⟩
    · exact ih hbs hrun b' hb'

/-- The accesses of every round are made where no round stops a loop whose accesses are allowed. -/
lemma allowed_forEach {f : β → Watched ε σ A Unit} {l : List β} {s : σ}
    (hf : ∀ b ∈ l, ∀ s, Allowed P (f b) s → ∃ t, (f b).run s = (.ok (), t)) (h : Allowed P (forEach f l) s) :
    ∀ b ∈ l, ∃ s', Allowed P (f b) s' := by
  induction l generalizing s with
  | nil => simp
  | cons b bs ih =>
    obtain ⟨hb, hbs⟩ := allowed_bind.mp h
    obtain ⟨t, hround⟩ := hf b (List.mem_cons_self ..) s hb
    intro b' hb'
    rcases List.mem_cons.mp hb' with rfl | hb'
    · exact ⟨s, hb⟩
    · exact ih (fun b'' hb'' => hf b'' (List.mem_cons_of_mem _ hb'')) (hbs () t hround) b' hb'

/-! ### How a run with allowed accesses ends -/

/-- All accesses are allowed, and the run ends with `Q` or, with an error code, with `E`. -/
def Safe (P : A → Prop) (Q : α → σ → Prop) (E : ε → σ → Prop) (m : Watched ε σ A α) (s : σ) : Prop :=
  Allowed P m s ∧ Ends Q E True (m.run s)

namespace Safe

variable {Q Q' : α → σ → Prop} {E E' : ε → σ → Prop} {s : σ}

lemma quiet {m : Prog ε σ α} (hm : Ends Q E True (m s)) : Safe P Q E (quiet m) s := ⟨allowed_quiet m s, hm⟩

lemma access {l : List A} {m : Prog ε σ α} (hl : ∀ a ∈ l, P a) (hm : Ends Q E True (m s)) :
    Safe P Q E (access l m) s := ⟨hl, hm⟩

lemma mono {m : Watched ε σ A α} (h : Safe P Q E m s) (hQ : ∀ a t, Q a t → Q' a t)
    (hE : ∀ e t, E e t → E' e t) : Safe P Q' E' m s := ⟨h.1, h.2.mono hQ hE⟩

lemma bind {R : α → σ → Prop} {Q : β → σ → Prop} {m : Watched ε σ A α} {f : α → Watched ε σ A β}
    (hm : Safe P R E m s) (hf : ∀ a t, R a t → Safe P Q E (f a) t) : Safe P Q E (m >>= f) s := by
  refine ⟨allowed_bind.mpr ⟨hm.1, fun a t hrun => (hf a t ?_).1⟩, hm.2.bind fun a t ha => (hf a t ha).2⟩
  have h := hm.2
  rwa [hrun] at h

lemma ite {c : Prop} [Decidable c] {m m' : Watched ε σ A α} (h : c → Safe P Q E m s)
    (h' : ¬ c → Safe P Q E m' s) : Safe P Q E (if c then m else m') s := by
  by_cases hc : c
  · rw [if_pos hc]
    exact h hc
  · rw [if_neg hc]
    exact h' hc

lemma when {Q : Unit → σ → Prop} {c : Prop} [Decidable c] {m : Watched ε σ A Unit} (h : c → Safe P Q E m s)
    (h' : ¬ c → Q () s) : Safe P Q E (Watched.when c m) s := ite h fun hc => quiet (h' hc)

lemma attempt {Q : Except ε α → σ → Prop} {m : Watched ε σ A α}
    (hm : Safe P (fun a => Q (.ok a)) (fun e => Q (.error e)) m s) : Safe P Q E (Watched.attempt m) s :=
  ⟨hm.1, Ends.attempt hm.2⟩

lemma onFail {F : ε → σ → Prop} {m : Watched ε σ A α} {c : Watched ε σ A Unit} (hm : Safe P Q F m s)
    (hc : ∀ e t, F e t → Safe P (fun _ => E e) (fun _ => E e) c t) : Safe P Q E (Watched.onFail m c) s := by
  refine ⟨allowed_onFail.mpr ⟨hm.1, fun e t hrun => (hc e t ?_).1⟩, hm.2.onFail fun e t he => (hc e t he).2⟩
  have h := hm.2
  rwa [hrun] at h

lemma forEach {I : σ → Prop} {f : β → Watched ε σ A Unit} {l : List β}
    (h : ∀ b ∈ l, ∀ s, I s → Safe P (fun _ => I) E (f b) s) (hs : I s) :
    Safe P (fun _ => I) E (Watched.forEach f l) s := by
  induction l generalizing s with
  | nil => exact quiet hs
  | cons b bs ih =>
    exact bind (h b (List.mem_cons_self ..) s hs) fun _ t ht =>
      ih (fun b' hb' => h b' (List.mem_cons_of_mem _ hb')) ht

end Safe

/-! ### How a run ends, and with which accesses -/

/-- `Prog.Ends`, where the accesses of the run may be spoken of. -/
def Records (Q : α → σ → List A → Prop) (E : ε → σ → List A → Prop) (U : Prop) (m : Watched ε σ A α) (s : σ) : Prop :=
  Ends (fun a t => Q a t (m.trace s)) (fun e t => E e t (m.trace s)) U (m.run s)

namespace Records

variable {Q : α → σ → List A → Prop} {E : ε → σ → List A → Prop} {U : Prop} {s : σ}

lemma quiet {m : Prog ε σ α} (hm : Ends (fun a t => Q a t []) (fun e t => E e t []) U (m s)) :
    Records Q E U (quiet m) s := hm

lemma access {l : List A} {m : Prog ε σ α} (hm : Ends (fun a t => Q a t l) (fun e t => E e t l) U (m s)) :
    Records Q E U (access l m) s := hm

/-- The accesses of the second program come after those of the first. -/
lemma bind {Q : β → σ → List A → Prop} {m : Watched ε σ A α} {f : α → Watched ε σ A β}
    (hm : Records (fun a t l => Records (fun b u l' => Q b u (l ++ l')) (fun e u l' => E e u (l ++ l')) U (f a) t) E U m s) :
    Records Q E U (m >>= f) s := by
  have htrace : (m >>= f).trace s = m.trace s ++
      match m.run s with
      | (.ok a, t) => (f a).trace t
      | _ => [] := rfl
  rw [Records, run_bind, bind_apply, htrace]
  rw [Records] at hm
  rcases hrun : m.run s with ⟨a | e | _, t⟩ <;> rw [hrun] at hm
  · exact hm
  · dsimp only
    rw [List.append_nil]
    exact hm
  · exact hm

lemma onFail {m : Watched ε σ A α} {c : Watched ε σ A Unit}
    (hm : Records Q (fun e t l => Records (fun _ u l' => E e u (l ++ l')) (fun _ u l' => E e u (l ++ l')) U c t) U m s) :
    Records Q E U (onFail m c) s := by
  have htrace : (Watched.onFail m c).trace s = m.trace s ++
      match m.run s with
      | (.fail _, t) => c.trace t
      | _ => [] := rfl
  rw [Records, run_onFail, onFail_apply, htrace]
  rw [Records] at hm
  rcases hrun : m.run s with ⟨a | e | _, t⟩ <;> rw [hrun] at hm
  · dsimp only
    rw [List.append_nil]
    exact hm
  · dsimp only
    have hclean : Ends (fun _ u => E e u (m.trace s ++ c.trace t)) (fun _ u => E e u (m.trace s ++ c.trace t)) U
        (c.run t) := hm
    rcases hc : c.run t with ⟨_ | _ | _, u⟩ <;> rw [hc] at hclean <;> exact hclean
  · exact hm

/-- A sequence, by how its first program ends. -/
lemma bind_run {Q : β → σ → List A → Prop} {m : Watched ε σ A α} {f : α → Watched ε σ A β}
    (hok : ∀ a t, m.run s = (.ok a, t) →
      Records (fun b u l => Q b u (m.trace s ++ l)) (fun e u l => E e u (m.trace s ++ l)) U (f a) t)
    (hfail : ∀ e t, m.run s = (.fail e, t) → E e t (m.trace s)) (hundef : ∀ t, m.run s = (.undef, t) → U) :
    Records Q E U (m >>= f) s :=
  bind (Ends.intro hok hfail hundef)

/-- The first program returns, and makes no accesses. -/
lemma bind_quiet {Q : β → σ → List A → Prop} {m : Prog ε σ α} {f : α → Watched ε σ A β} {a : α} {t : σ}
    (h : m s = (.ok a, t)) (hf : Records Q E U (f a) t) : Records Q E U (Watched.quiet m >>= f) s := by
  refine bind ?_
  rw [Records, run_quiet, h]
  exact hf

/-- The first program returns, and makes the accesses of the list. -/
lemma bind_access {Q : β → σ → List A → Prop} {l : List A} {m : Prog ε σ α} {f : α → Watched ε σ A β} {a : α} {t : σ}
    (h : m s = (.ok a, t)) (hf : Records (fun b u l' => Q b u (l ++ l')) (fun e u l' => E e u (l ++ l')) U (f a) t) :
    Records Q E U (Watched.access l m >>= f) s := by
  refine bind ?_
  rw [Records, run_access, h]
  exact hf

/-- A check, and what comes after it. -/
lemma bind_require {Q : β → σ → List A → Prop} {c : Prop} [Decidable c] {e : ε} {f : Unit → Watched ε σ A β}
    (h : c → Records Q E U (f ()) s) (h' : ¬ c → E e s []) : Records Q E U (Watched.quiet (require c e) >>= f) s := by
  by_cases hc : c
  · exact bind_quiet (by rw [require_of hc]; rfl) (h hc)
  · refine bind ?_
    rw [Records, run_quiet, require_of_not hc]
    exact h' hc

end Records

/-! ### Undefined behaviour that comes from the accesses -/

/-- Where all accesses are allowed the behaviour is defined. -/
def Faithful (P : A → Prop) (m : Watched ε σ A α) : Prop := ∀ s, Allowed P m s → (m.run s).1 ≠ .undef

namespace Faithful

lemma quiet {m : Prog ε σ α} (hm : Defined m) : Faithful P (quiet m) := fun s _ => hm s

lemma access {l : List A} {m : Prog ε σ α} (hm : Defined m) : Faithful P (access l m) := fun s _ => hm s

lemma bind {m : Watched ε σ A α} {f : α → Watched ε σ A β} (hm : Faithful P m) (hf : ∀ a, Faithful P (f a)) :
    Faithful P (m >>= f) := by
  intro s hs
  obtain ⟨hms, hfs⟩ := allowed_bind.mp hs
  rw [run_bind, bind_apply]
  rcases hrun : m.run s with ⟨a | e | _, t⟩
  · exact hf a t (hfs a t hrun)
  · simp
  · exact absurd (by rw [hrun]) (hm s hms)

lemma ite {c : Prop} [Decidable c] {m m' : Watched ε σ A α} (h : c → Faithful P m)
    (h' : ¬ c → Faithful P m') : Faithful P (if c then m else m') := by
  by_cases hc : c
  · rw [if_pos hc]
    exact h hc
  · rw [if_neg hc]
    exact h' hc

lemma when {c : Prop} [Decidable c] {m : Watched ε σ A Unit} (h : c → Faithful P m) :
    Faithful P (Watched.when c m) := ite h fun _ => quiet (Defined.pure ())

lemma attempt {m : Watched ε σ A α} (hm : Faithful P m) : Faithful P (Watched.attempt m) := by
  intro s hs
  have h := hm s hs
  rw [run_attempt, attempt_apply]
  rcases hrun : m.run s with ⟨a | e | _, t⟩
  · simp
  · simp
  · rw [hrun] at h
    exact absurd rfl h

lemma forEach {f : β → Watched ε σ A Unit} {l : List β} (h : ∀ b ∈ l, Faithful P (f b)) :
    Faithful P (Watched.forEach f l) := by
  induction l with
  | nil => exact quiet (Defined.pure ())
  | cons b bs ih =>
    exact bind (h b (List.mem_cons_self ..)) fun _ => ih fun b' hb' => h b' (List.mem_cons_of_mem _ hb')

end Faithful

end Watched

end Libusbgx
