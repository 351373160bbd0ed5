import Mathlib.Tactic.Common
import Mathlib.Data.List.Basic

/-!
# Programs with error codes

A C function that works on some state either returns a value, returns an error code, or runs
into undefined behaviour; in each case it may have changed the state before.  `Prog` is the
monad of such functions.  The second half of the file is its small program logic: an
invariant that a program keeps (`Keeps`) and a triple about how it ends (`Triple`), with one
rule for each way of putting programs together.
-/

namespace Libusbgx

/-- How a call ends. -/
inductive Outcome (ε α : Type) where
  /-- The call returned the value `a`. -/
  | ok (a : α)
  /-- The call returned the error code `e`. -/
  | fail (e : ε)
  /-- The call did something the language gives no meaning to. -/
  | undef
deriving DecidableEq, Repr

/-- The outcome of a clean-up after the error `e`: only undefined behaviour shows. -/
def Outcome.orFail {ε α β : Type} (e : ε) : Outcome ε β → Outcome ε α
  | .undef => .undef
  | _ => .fail e

/-- A program over the state `σ`: how it ends, and the state it leaves. -/
def Prog (ε σ α : Type) : Type := σ → Outcome ε α × σ

namespace Prog

variable {ε σ τ α β : Type}

/-- Run one program and then, if it returned a value, the next. -/
protected def bind (m : Prog ε σ α) (f : α → Prog ε σ β) : Prog ε σ β := fun s =>
  match m s with
  | (.ok a, t) => f a t
  | (.fail e, t) => (.fail e, t)
  | (.undef, t) => (.undef, t)

instance : Monad (Prog ε σ) where
  pure a := fun s => (.ok a, s)
  bind := Prog.bind

/-- Return the error code `e`. -/
def fail (e : ε) : Prog ε σ α := fun s => (.fail e, s)

/-- Undefined behaviour. -/
def undef : Prog ε σ α := fun s => (.undef, s)

/-- The current state. -/
def get : Prog ε σ σ := fun s => (.ok s, s)

/-- Change the state. -/
def modify (f : σ → σ) : Prog ε σ Unit := fun s => (.ok (), f s)

/-- Return the error code `e` unless `c` holds. -/
def require (c : Prop) [Decidable c] (e : ε) : Prog ε σ Unit :=
  if c then pure () else fail e

/-- Run `m` if `c` holds. -/
def when (c : Prop) [Decidable c] (m : Prog ε σ Unit) : Prog ε σ Unit := if c then m else pure ()

/-- Run `f` on a value that may be left out. -/
def whenSome (f : β → Prog ε σ Unit) : Option β → Prog ε σ Unit
  | none => pure ()
  | some b => f b

/-- The value of an `Option` that the code dereferences without a check. -/
def deref : Option α → Prog ε σ α
  | some a => pure a
  | none => undef

/-- The value of an `Except`, with its error as the error code. -/
def ofExcept : Except ε α → Prog ε σ α
  | .ok a => pure a
  | .error e => fail e

/-- Run a program and hand its error code to the caller as a value. -/
def attempt (m : Prog ε σ α) : Prog ε σ (Except ε α) := fun s =>
  match m s with
  | (.ok a, t) => (.ok (.ok a), t)
  | (.fail e, t) => (.ok (.error e), t)
  | (.undef, t) => (.undef, t)

/-- Run `m`; if it fails, run the clean-up `c`, ignore what the clean-up returns, and fail
with the error of `m`. -/
def onFail (m : Prog ε σ α) (c : Prog ε σ Unit) : Prog ε σ α := fun s =>
  match m s with
  | (.ok a, t) => (.ok a, t)
  | (.undef, t) => (.undef, t)
  | (.fail e, t) => ((c t).1.orFail e, (c t).2)

/-- Run `f` on the elements of a list, up to the first failure. -/
def forEach (f : β → Prog ε σ Unit) : List β → Prog ε σ Unit
  | [] => pure ()
  | b :: bs => do f b; forEach f bs

/-- Run a program on a part of the state.  The part is found by `look`; when it is not there
the program has followed a dangling pointer. -/
def zoom (look : σ → Option τ) (put : τ → σ → σ) (m : Prog ε τ α) : Prog ε σ α := fun s =>
  match look s with
  | none => (.undef, s)
  | some t => ((m t).1, put (m t).2 s)

/-! ### Computing a run -/

@[simp] lemma pure_apply (a : α) (s : σ) : (pure a : Prog ε σ α) s = (.ok a, s) := rfl

@[simp] lemma fail_apply (e : ε) (s : σ) : (fail e : Prog ε σ α) s = (.fail e, s) := rfl

@[simp] lemma undef_apply (s : σ) : (undef : Prog ε σ α) s = (.undef, s) := rfl

@[simp] lemma get_apply (s : σ) : (get : Prog ε σ σ) s = (.ok s, s) := rfl

@[simp] lemma modify_apply (f : σ → σ) (s : σ) :
    (modify f : Prog ε σ Unit) s = (.ok (), f s) := rfl

lemma bind_apply (m : Prog ε σ α) (f : α → Prog ε σ β) (s : σ) :
    (m >>= f) s = match m s with
      | (.ok a, t) => f a t
      | (.fail e, t) => (.fail e, t)
      | (.undef, t) => (.undef, t) := rfl

lemma bind_ok {m : Prog ε σ α} {f : α → Prog ε σ β} {s t : σ} {a : α}
    (h : m s = (.ok a, t)) : (m >>= f) s = f a t := by
  rw [bind_apply, h]

lemma bind_fail {m : Prog ε σ α} {f : α → Prog ε σ β} {s t : σ} {e : ε}
    (h : m s = (.fail e, t)) : (m >>= f) s = (.fail e, t) := by
  rw [bind_apply, h]

lemma bind_undef {m : Prog ε σ α} {f : α → Prog ε σ β} {s t : σ}
    (h : m s = (.undef, t)) : (m >>= f) s = (.undef, t) := by
  rw [bind_apply, h]

@[simp] lemma pure_bind (a : α) (f : α → Prog ε σ β) : (pure a : Prog ε σ α) >>= f = f a := rfl

protected lemma bind_pure (m : Prog ε σ Unit) : (m >>= fun _ => pure ()) = m := by
  funext s
  rw [bind_apply]
  rcases m s with ⟨_ | _ | _, t⟩ <;> rfl

/-- How a sequence is bracketed does not matter. -/
protected lemma bind_assoc {γ : Type} (m : Prog ε σ α) (f : α → Prog ε σ β) (g : β → Prog ε σ γ) :
    (m >>= f) >>= g = m >>= fun a => f a >>= g := by
  funext s
  rcases hm : m s with ⟨_ | _ | _, t⟩
  · rw [bind_ok hm, bind_apply, bind_ok hm, ← bind_apply]
  · rw [bind_fail hm, bind_fail (bind_fail hm)]
  · rw [bind_undef hm, bind_undef (bind_undef hm)]

@[simp] lemma fail_bind (e : ε) (f : α → Prog ε σ β) :
    (fail e : Prog ε σ α) >>= f = fail e := rfl

@[simp] lemma undef_bind (f : α → Prog ε σ β) : (undef : Prog ε σ α) >>= f = undef := rfl

@[simp] lemma get_bind_apply (f : σ → Prog ε σ β) (s : σ) : ((get : Prog ε σ σ) >>= f) s = f s s :=
  rfl

@[simp] lemma modify_bind_apply (g : σ → σ) (f : Unit → Prog ε σ β) (s : σ) :
    ((modify g : Prog ε σ Unit) >>= f) s = f () (g s) := rfl

/-- A sequence that returned a value did so in two steps. -/
lemma bind_eq_ok {m : Prog ε σ α} {f : α → Prog ε σ β} {s u : σ} {b : β} :
    (m >>= f) s = (.ok b, u) ↔ ∃ a t, m s = (.ok a, t) ∧ f a t = (.ok b, u) := by
  rw [bind_apply]
  constructor
  · intro h
    rcases hm : m s with ⟨_ | _ | _, t⟩
    · rw [hm] at h
      exact ⟨_, t, rfl, h⟩
    · rw [hm] at h
      simp at h
    · rw [hm] at h
      simp at h
  · rintro ⟨a, t, hm, hf⟩
    rw [hm]
    exact hf

/-- A sequence that failed did so in its first part or in its second. -/
lemma bind_eq_fail {m : Prog ε σ α} {f : α → Prog ε σ β} {s u : σ} {e : ε} :
    (m >>= f) s = (.fail e, u) ↔
      m s = (.fail e, u) ∨ ∃ a t, m s = (.ok a, t) ∧ f a t = (.fail e, u) := by
  rw [bind_apply]
  constructor
  · intro h
    rcases hm : m s with ⟨_ | _ | _, t⟩
    · rw [hm] at h
      exact Or.inr ⟨_, t, rfl, h⟩
    · rw [hm] at h
      simp only [Prod.mk.injEq, Outcome.fail.injEq] at h
      exact Or.inl (by rw [h.1, h.2])
    · rw [hm] at h
      simp at h
  · rintro (hm | ⟨a, t, hm, hf⟩)
    · rw [hm]
    · rw [hm]
      exact hf

lemma require_of {c : Prop} [Decidable c] {e : ε} (h : c) :
    (require c e : Prog ε σ Unit) = pure () := if_pos h

lemma require_of_not {c : Prop} [Decidable c] {e : ε} (h : ¬ c) :
    (require c e : Prog ε σ Unit) = fail e := if_neg h

@[simp] lemma when_of {c : Prop} [Decidable c] {m : Prog ε σ Unit} (h : c) : when c m = m :=
  if_pos h

@[simp] lemma when_of_not {c : Prop} [Decidable c] {m : Prog ε σ Unit} (h : ¬ c) :
    when c m = pure () :=
  if_neg h

@[simp] lemma whenSome_none (f : β → Prog ε σ Unit) : whenSome f none = pure () := rfl

@[simp] lemma whenSome_some (f : β → Prog ε σ Unit) (b : β) : whenSome f (some b) = f b := rfl

@[simp] lemma deref_some (a : α) : (deref (some a) : Prog ε σ α) = pure a := rfl

@[simp] lemma deref_none : (deref none : Prog ε σ α) = undef := rfl

@[simp] lemma ofExcept_ok (a : α) : (ofExcept (.ok a) : Prog ε σ α) = pure a := rfl

@[simp] lemma ofExcept_error (e : ε) : (ofExcept (.error e) : Prog ε σ α) = fail e := rfl

lemma attempt_apply (m : Prog ε σ α) (s : σ) :
    attempt m s = match m s with
      | (.ok a, t) => (.ok (.ok a), t)
      | (.fail e, t) => (.ok (.error e), t)
      | (.undef, t) => (.undef, t) := rfl

lemma attempt_ok {m : Prog ε σ α} {s t : σ} {a : α} (h : m s = (.ok a, t)) :
    attempt m s = (.ok (.ok a), t) := by
  rw [attempt_apply, h]

lemma attempt_fail {m : Prog ε σ α} {s t : σ} {e : ε} (h : m s = (.fail e, t)) :
    attempt m s = (.ok (.error e), t) := by
  rw [attempt_apply, h]

lemma onFail_apply (m : Prog ε σ α) (c : Prog ε σ Unit) (s : σ) :
    onFail m c s = match m s with
      | (.ok a, t) => (.ok a, t)
      | (.undef, t) => (.undef, t)
      | (.fail e, t) => ((c t).1.orFail e, (c t).2) := rfl

lemma onFail_ok {m : Prog ε σ α} {c : Prog ε σ Unit} {s t : σ} {a : α}
    (h : m s = (.ok a, t)) : onFail m c s = (.ok a, t) := by
  rw [onFail_apply, h]

lemma onFail_fail {m : Prog ε σ α} {c : Prog ε σ Unit} {s t : σ} {e : ε}
    (h : m s = (.fail e, t)) (hc : (c t).1 ≠ .undef) : onFail m c s = (.fail e, (c t).2) := by
  rw [onFail_apply, h]
  rcases hct : (c t).1 with _ | _ | _
  · simp [Outcome.orFail, hct]
  · simp [Outcome.orFail, hct]
  · exact absurd hct hc

/-- A clean-up that does nothing. -/
lemma onFail_pure (m : Prog ε σ α) : onFail m (pure ()) = m := by
  funext s
  rw [onFail_apply]
  rcases m s with ⟨_ | _ | _, t⟩ <;> rfl

@[simp] lemma forEach_nil (f : β → Prog ε σ Unit) : forEach f [] = pure () := rfl

@[simp] lemma forEach_cons (f : β → Prog ε σ Unit) (b : β) (bs : List β) :
    forEach f (b :: bs) = (f b >>= fun _ => forEach f bs) := rfl

lemma forEach_append (f : β → Prog ε σ Unit) (l l' : List β) :
    forEach f (l ++ l') = (forEach f l >>= fun _ => forEach f l') := by
  induction l with
  | nil => rfl
  | cons b bs ih => rw [List.cons_append, forEach_cons, forEach_cons, Prog.bind_assoc, ih]

lemma forEach_map {γ : Type} (f : β → Prog ε σ Unit) (g : γ → β) (l : List γ) :
    forEach f (l.map g) = forEach (fun c => f (g c)) l := by
  induction l with
  | nil => rfl
  | cons c cs ih => rw [List.map_cons, forEach_cons, forEach_cons, ih]

/-- A loop over a range takes one more round. -/
lemma forEach_range_succ (f : ℕ → Prog ε σ Unit) (n : ℕ) :
    forEach f (List.range (n + 1)) = (forEach f (List.range n) >>= fun _ => f n) := by
  rw [List.range_succ, forEach_append]
  congr 1
  funext _ s
  rw [forEach_cons, bind_apply]
  rcases f n s with ⟨_ | _ | _, t⟩ <;> rfl

lemma zoom_some {look : σ → Option τ} {put : τ → σ → σ} {m : Prog ε τ α} {s : σ} {t : τ}
    (h : look s = some t) : zoom look put m s = ((m t).1, put (m t).2 s) := by
  rw [zoom, h]

lemma zoom_none {look : σ → Option τ} {put : τ → σ → σ} {m : Prog ε τ α} {s : σ}
    (h : look s = none) : zoom look put m s = (.undef, s) := by
  rw [zoom, h]

/-! ### Invariants -/

/-- Whatever way `m` ends, `I` still holds if it held before. -/
def Keeps (I : σ → Prop) (m : Prog ε σ α) : Prop := ∀ s, I s → I (m s).2

namespace Keeps

variable {I J : σ → Prop}

lemma pure (a : α) : Keeps I (pure a : Prog ε σ α) := fun _ h => h

lemma fail (e : ε) : Keeps I (Prog.fail e : Prog ε σ α) := fun _ h => h

lemma undef : Keeps I (Prog.undef : Prog ε σ α) := fun _ h => h

lemma get : Keeps I (Prog.get : Prog ε σ σ) := fun _ h => h

lemma modify {f : σ → σ} (h : ∀ s, I s → I (f s)) : Keeps I (Prog.modify f : Prog ε σ Unit) := h

lemma bind {m : Prog ε σ α} {f : α → Prog ε σ β} (hm : Keeps I m) (hf : ∀ a, Keeps I (f a)) :
    Keeps I (m >>= f) := by
  intro s hs
  have h := hm s hs
  rw [bind_apply]
  rcases hms : m s with ⟨_ | _ | _, t⟩
  · rw [hms] at h
    exact hf _ t h
  · rw [hms] at h
    exact h
  · rw [hms] at h
    exact h

lemma ite {c : Prop} [Decidable c] {m m' : Prog ε σ α} (h : c → Keeps I m) (h' : ¬ c → Keeps I m') :
    Keeps I (if c then m else m') := by
  by_cases hc : c
  · rw [if_pos hc]
    exact h hc
  · rw [if_neg hc]
    exact h' hc

lemma when {c : Prop} [Decidable c] {m : Prog ε σ Unit} (h : c → Keeps I m) :
    Keeps I (Prog.when c m) :=
  ite h fun _ => pure _

lemma whenSome {f : β → Prog ε σ Unit} {o : Option β} (h : ∀ b, o = some b → Keeps I (f b)) :
    Keeps I (Prog.whenSome f o) := by
  cases o with
  | none => exact pure _
  | some b => exact h b rfl

lemma require {c : Prop} [Decidable c] (e : ε) : Keeps I (Prog.require c e : Prog ε σ Unit) :=
  ite (fun _ => pure _) (fun _ => fail _)

lemma deref (o : Option α) : Keeps I (Prog.deref o : Prog ε σ α) := by
  cases o with
  | none => exact undef
  | some a => exact pure a

/-- Only the value that is there needs to be looked at. -/
lemma deref_bind {o : Option α} {f : α → Prog ε σ β} (h : ∀ a, o = some a → Keeps I (f a)) :
    Keeps I (Prog.deref o >>= f) := by
  cases o with
  | none => exact undef
  | some a => exact h a rfl

lemma ofExcept (x : Except ε α) : Keeps I (Prog.ofExcept x : Prog ε σ α) := by
  cases x with
  | ok a => exact pure a
  | error e => exact fail e

lemma attempt {m : Prog ε σ α} (hm : Keeps I m) : Keeps I (Prog.attempt m) := by
  intro s hs
  have h := hm s hs
  rw [attempt_apply]
  rcases hms : m s with ⟨_ | _ | _, t⟩ <;> rw [hms] at h <;> exact h

lemma onFail {m : Prog ε σ α} {c : Prog ε σ Unit} (hm : Keeps I m) (hc : Keeps I c) :
    Keeps I (Prog.onFail m c) := by
  intro s hs
  have h := hm s hs
  rw [onFail_apply]
  rcases hms : m s with ⟨_ | _ | _, t⟩
  · rw [hms] at h
    exact h
  · rw [hms] at h
    exact hc t h
  · rw [hms] at h
    exact h

lemma forEach {f : β → Prog ε σ Unit} {l : List β} (h : ∀ b ∈ l, Keeps I (f b)) :
    Keeps I (Prog.forEach f l) := by
  induction l with
  | nil => exact pure ()
  | cons b bs ih =>
    exact bind (h b (by simp)) fun _ => ih fun b' hb' => h b' (by simp [hb'])

lemma foldlM {f : α → β → Prog ε σ α} {l : List β} (h : ∀ a, ∀ b ∈ l, Keeps I (f a b)) :
    ∀ a, Keeps I (l.foldlM f a) := by
  induction l with
  | nil => exact fun a => pure a
  | cons b bs ih =>
    intro a
    rw [List.foldlM_cons]
    exact bind (h a b (by simp)) fun a' => ih (fun a b' hb' => h a b' (by simp [hb'])) a'

/-- A program on a part of the state keeps an invariant of the whole if it keeps a matching
invariant of the part. -/
lemma zoom {look : σ → Option τ} {put : τ → σ → σ} {m : Prog ε τ α} (J : σ → τ → Prop)
    (hlook : ∀ s t, look s = some t → I s → J s t) (hm : ∀ s, Keeps (J s) m)
    (hput : ∀ s t t', look s = some t → I s → J s t' → I (put t' s)) :
    Keeps I (Prog.zoom look put m) := by
  intro s hs
  cases ht : look s with
  | none => rw [zoom_none ht]; exact hs
  | some t =>
    rw [zoom_some ht]
    exact hput s t _ ht hs (hm s t (hlook s t ht hs))

lemma and {m : Prog ε σ α} (hI : Keeps I m) (hJ : Keeps J m) : Keeps (fun s => I s ∧ J s) m :=
  fun s h => ⟨hI s h.1, hJ s h.2⟩

/-- If the value of `f` at the end is always that at the start, then any property of that
value is kept. -/
lemma of_frame {γ : Type} {f : σ → γ} {m : Prog ε σ α} (h : ∀ s, f (m s).2 = f s) (P : γ → Prop) :
    Keeps (fun s => P (f s)) m := by
  intro s hs
  rw [h]
  exact hs

end Keeps

/-! ### Results -/

/-- Whatever value `m` returns, it has the property `P`. -/
def Yields (P : α → Prop) (m : Prog ε σ α) : Prop := ∀ s a t, m s = (.ok a, t) → P a

namespace Yields

variable {P : α → Prop} {R : β → Prop}

lemma pure {a : α} (h : P a) : Yields P (pure a : Prog ε σ α) := by
  rintro s _ t ⟨⟩
  exact h

lemma fail (e : ε) : Yields P (Prog.fail e : Prog ε σ α) := by
  rintro s a t ⟨⟩

lemma bind {m : Prog ε σ β} {f : β → Prog ε σ α} (hm : Yields R m)
    (hf : ∀ b, R b → Yields P (f b)) : Yields P (m >>= f) := by
  intro s a u h
  obtain ⟨b, t, hmb, hfb⟩ := bind_eq_ok.mp h
  exact hf b (hm s b t hmb) t a u hfb

/-- Nothing needs to be known about the first part of a sequence. -/
lemma bind' {m : Prog ε σ β} {f : β → Prog ε σ α} (hf : ∀ b, Yields P (f b)) :
    Yields P (m >>= f) :=
  bind (fun _ _ _ _ => trivial) fun b (_ : True) => hf b

lemma ite {c : Prop} [Decidable c] {m m' : Prog ε σ α} (h : c → Yields P m)
    (h' : ¬ c → Yields P m') : Yields P (if c then m else m') := by
  by_cases hc : c
  · rw [if_pos hc]
    exact h hc
  · rw [if_neg hc]
    exact h' hc

lemma foldlM {f : α → β → Prog ε σ α} {l : List β} (h : ∀ a, ∀ b ∈ l, P a → Yields P (f a b)) :
    ∀ a, P a → Yields P (l.foldlM f a) := by
  induction l with
  | nil => exact fun a ha => pure ha
  | cons b bs ih =>
    intro a ha
    rw [List.foldlM_cons]
    exact bind (h a b (by simp) ha) fun a' ha' => ih (fun a b' hb' => h a b' (by simp [hb'])) a' ha'

/-- What the first part of a sequence returns may be used for the second. -/
lemma keeps_bind {I : σ → Prop} {m : Prog ε σ β} {f : β → Prog ε σ α} (hy : Yields R m) (hm : Keeps I m)
    (hf : ∀ b, R b → Keeps I (f b)) : Keeps I (m >>= f) := by
  intro s hs
  have h := hm s hs
  rw [bind_apply]
  rcases hms : m s with ⟨_ | _ | _, t⟩ <;> rw [hms] at h
  · exact hf _ (hy s _ t hms) t h
  · exact h
  · exact h

end Yields

/-! ### Undefined behaviour -/

/-- The program has a meaning wherever it is started. -/
def Defined (m : Prog ε σ α) : Prop := ∀ s, (m s).1 ≠ .undef

namespace Defined

lemma pure (a : α) : Defined (pure a : Prog ε σ α) := fun _ => by simp

lemma fail (e : ε) : Defined (Prog.fail e : Prog ε σ α) := fun _ => by simp

lemma bind {m : Prog ε σ α} {f : α → Prog ε σ β} (hm : Defined m) (hf : ∀ a, Defined (f a)) :
    Defined (m >>= f) := by
  intro s
  rw [bind_apply]
  rcases hms : m s with ⟨_ | _ | _, t⟩
  · exact hf _ t
  · simp
  · exact absurd (by rw [hms]) (hm s)

lemma ite {c : Prop} [Decidable c] {m m' : Prog ε σ α} (h : c → Defined m)
    (h' : ¬ c → Defined m') : Defined (if c then m else m') := by
  by_cases hc : c
  · rw [if_pos hc]
    exact h hc
  · rw [if_neg hc]
    exact h' hc

lemma require {c : Prop} [Decidable c] (e : ε) : Defined (Prog.require c e : Prog ε σ Unit) :=
  ite (fun _ => pure _) (fun _ => fail _)

lemma when {c : Prop} [Decidable c] {m : Prog ε σ Unit} (h : c → Defined m) :
    Defined (Prog.when c m) :=
  ite h fun _ => pure _

lemma whenSome {f : β → Prog ε σ Unit} {o : Option β} (h : ∀ b, o = some b → Defined (f b)) :
    Defined (Prog.whenSome f o) := by
  cases o with
  | none => exact pure _
  | some b => exact h b rfl

lemma ofExcept (x : Except ε α) : Defined (Prog.ofExcept x : Prog ε σ α) := by
  cases x with
  | ok a => exact pure a
  | error e => exact fail e

lemma forEach {f : β → Prog ε σ Unit} {l : List β} (h : ∀ b ∈ l, Defined (f b)) :
    Defined (Prog.forEach f l) := by
  induction l with
  | nil => exact pure ()
  | cons b bs ih =>
    exact bind (h b (by simp)) fun _ => ih fun b' hb' => h b' (by simp [hb'])

end Defined

/-! ### Triples -/

/-- The three ways a call may end: with a value and `Q`, with an error code and `E`, or, where
`U` allows it, with undefined behaviour. -/
def Ends (Q : α → σ → Prop) (E : ε → σ → Prop) (U : Prop) : Outcome ε α × σ → Prop
  | (.ok a, s) => Q a s
  | (.fail e, s) => E e s
  | (.undef, _) => U

namespace Ends

variable {Q Q' : α → σ → Prop} {E E' : ε → σ → Prop} {U : Prop} {s : σ}

lemma intro {m : Prog ε σ α} (hok : ∀ a t, m s = (.ok a, t) → Q a t)
    (hfail : ∀ e t, m s = (.fail e, t) → E e t) (hundef : ∀ t, m s = (.undef, t) → U) :
    Ends Q E U (m s) := by
  rcases hms : m s with ⟨a | e | _, t⟩
  · exact hok a t hms
  · exact hfail e t hms
  · exact hundef t hms

lemma of_eq {r r' : Outcome ε α × σ} (h : r = r') (hr : Ends Q E U r') : Ends Q E U r := by
  rw [h]
  exact hr

lemma mono {r : Outcome ε α × σ} (h : Ends Q E U r) (hQ : ∀ a t, Q a t → Q' a t)
    (hE : ∀ e t, E e t → E' e t) : Ends Q' E' U r := by
  rcases r with ⟨a | e | _, t⟩
  · exact hQ a t h
  · exact hE e t h
  · exact h

/-- A program without undefined behaviour may stand where some is allowed. -/
lemma mono_undef {U' : Prop} {r : Outcome ε α × σ} (h : Ends Q E U r) (hQ : ∀ a t, Q a t → Q' a t)
    (hE : ∀ e t, E e t → E' e t) (hU : U → U') : Ends Q' E' U' r := by
  rcases r with ⟨a | e | _, t⟩
  · exact hQ a t h
  · exact hE e t h
  · exact hU h

/-- What the program keeps still holds, however it ends. -/
lemma and_keeps {m : Prog ε σ α} {I : σ → Prop} (h : Ends Q E U (m s)) (hm : Keeps I m) (hs : I s) :
    Ends (fun a t => Q a t ∧ I t) (fun e t => E e t ∧ I t) U (m s) := by
  have hI := hm s hs
  rcases hms : m s with ⟨_ | _ | _, t⟩ <;> rw [hms] at h hI
  · exact ⟨h, hI⟩
  · exact ⟨h, hI⟩
  · exact h

/-- Two things that are known of one end. -/
lemma and {Q' : α → σ → Prop} {E' : ε → σ → Prop} {U' : Prop} {r : Outcome ε α × σ} (h : Ends Q E U r)
    (h' : Ends Q' E' U' r) : Ends (fun a t => Q a t ∧ Q' a t) (fun e t => E e t ∧ E' e t) (U ∧ U') r := by
  rcases r with ⟨_ | _ | _, t⟩ <;> exact ⟨h, h'⟩

/-- A call that can only succeed. -/
lemma exists_ok {r : Outcome ε α × σ} (h : Ends Q (fun _ _ => False) False r) : ∃ a t, r = (.ok a, t) ∧ Q a t := by
  rcases r with ⟨a | e | _, t⟩
  · exact ⟨a, t, rfl, h⟩
  · exact h.elim
  · exact h.elim

lemma defined {r : Outcome ε α × σ} (h : Ends Q E False r) : r.1 ≠ .undef := by
  rcases r with ⟨a | e | _, t⟩
  · simp
  · simp
  · exact h.elim

/-- The state in which a call returned is the one it returned in. -/
lemma run {r : Outcome ε α × σ} (h : Ends Q E U r) : Ends (fun a t => Q a t ∧ r = (.ok a, t)) E U r := by
  rcases r with ⟨a | e | _, t⟩
  · exact ⟨h, rfl⟩
  · exact h
  · exact h

lemma attempt {m : Prog ε σ α} {E' : ε → σ → Prop} {Q : Except ε α → σ → Prop}
    (hm : Ends (fun a => Q (.ok a)) (fun e => Q (.error e)) U (m s)) :
    Ends Q E' U (Prog.attempt m s) := by
  rw [attempt_apply]
  rcases hms : m s with ⟨_ | _ | _, t⟩ <;> rw [hms] at hm <;> exact hm

/-- A sequence ends well if the first part ends where the second ends well. -/
lemma bind {β : Type} {R : α → σ → Prop} {Q : β → σ → Prop} {m : Prog ε σ α}
    {f : α → Prog ε σ β} (hm : Ends R E U (m s)) (hf : ∀ a t, R a t → Ends Q E U (f a t)) :
    Ends Q E U ((m >>= f) s) := by
  rw [bind_apply]
  rcases hms : m s with ⟨a | e | _, t⟩
  · rw [hms] at hm
    exact hf a t hm
  · rw [hms] at hm
    exact hm
  · rw [hms] at hm
    exact hm

/-- What comes after a program is looked at where the program ends. -/
lemma bind_then {β : Type} {Q : β → σ → Prop} {m : Prog ε σ α} {f : α → Prog ε σ β}
    (hm : Ends (fun a t => Ends Q E U (f a t)) E U (m s)) : Ends Q E U ((m >>= f) s) := bind hm fun _ _ h => h

/-- A program whose error is caught, and what comes after either end. -/
lemma attempt_bind {β : Type} {R : α → σ → Prop} {F : ε → σ → Prop} {Q : β → σ → Prop} {m : Prog ε σ α}
    {f : Except ε α → Prog ε σ β} (hm : Ends R F U (m s)) (hok : ∀ a t, R a t → Ends Q E U (f (.ok a) t))
    (herr : ∀ e t, F e t → Ends Q E U (f (.error e) t)) : Ends Q E U ((Prog.attempt m >>= f) s) :=
  bind_then (attempt (hm.mono hok herr))

lemma require {c : Prop} [Decidable c] {e : ε} {Q : Unit → σ → Prop} (h : c → Q () s)
    (h' : ¬ c → E e s) : Ends Q E U ((Prog.require c e : Prog ε σ Unit) s) := by
  by_cases hc : c
  · rw [require_of hc]
    exact h hc
  · rw [require_of_not hc]
    exact h' hc

/-- A check, and what comes after it. -/
lemma require_bind {c : Prop} [Decidable c] {e : ε} {f : Unit → Prog ε σ α}
    (h : c → Ends Q E U (f () s)) (h' : ¬ c → E e s) :
    Ends Q E U ((Prog.require c e >>= f) s) := by
  by_cases hc : c
  · rw [require_of hc]
    exact h hc
  · rw [require_of_not hc]
    exact h' hc

/-- A pointer, and what is done with what it points to. -/
lemma deref_bind {o : Option β} {f : β → Prog ε σ α} (h : ∀ b, o = some b → Ends Q E U (f b s))
    (h' : o = none → U) : Ends Q E U ((Prog.deref o >>= f) s) := by
  cases o with
  | none => exact h' rfl
  | some b => exact h b rfl

lemma ite {c : Prop} [Decidable c] {m m' : Prog ε σ α} (h : c → Ends Q E U (m s))
    (h' : ¬ c → Ends Q E U (m' s)) : Ends Q E U ((if c then m else m') s) := by
  by_cases hc : c
  · rw [if_pos hc]
    exact h hc
  · rw [if_neg hc]
    exact h' hc

lemma when {c : Prop} [Decidable c] {m : Prog ε σ Unit} {Q : Unit → σ → Prop}
    (h : c → Ends Q E U (m s)) (h' : ¬ c → Q () s) : Ends Q E U (Prog.when c m s) := by
  by_cases hc : c
  · rw [when_of hc]
    exact h hc
  · rw [when_of_not hc]
    exact h' hc

/-- A clean-up after a failure: what it establishes, however it ends, is what the caller sees. -/
lemma onFail {m : Prog ε σ α} {c : Prog ε σ Unit} {F : ε → σ → Prop} (hm : Ends Q F U (m s))
    (hc : ∀ e t, F e t → Ends (fun _ => E e) (fun _ => E e) U (c t)) :
    Ends Q E U (Prog.onFail m c s) := by
  rw [onFail_apply]
  rcases hms : m s with ⟨_ | e | _, t⟩ <;> rw [hms] at hm
  · exact hm
  · have h := hc e t hm
    show Ends Q E U ((c t).1.orFail e, (c t).2)
    rcases hct : c t with ⟨_ | _ | _, u⟩ <;> rw [hct] at h <;> exact h
  · exact hm

/-- A program on a part of the state ends as it says about the part. -/
lemma zoom {look : σ → Option τ} {put : τ → σ → σ} {m : Prog ε τ α} {t : τ} (h : look s = some t)
    (hm : Ends (fun a t' => Q a (put t' s)) (fun e t' => E e (put t' s)) U (m t)) :
    Ends Q E U (Prog.zoom look put m s) := by
  rw [zoom_some h]
  rcases hmt : m t with ⟨_ | _ | _, t'⟩ <;> rw [hmt] at hm <;> exact hm

/-- A loop keeps what each round keeps. -/
lemma forEach {f : β → Prog ε σ Unit} {I : σ → Prop} {l : List β}
    (h : ∀ b ∈ l, ∀ s, I s → Ends (fun _ => I) E U (f b s)) (hs : I s) :
    Ends (fun _ => I) E U (Prog.forEach f l s) := by
  induction l generalizing s with
  | nil => exact hs
  | cons b bs ih =>
    exact bind (h b (by simp) s hs) fun _ _ ht => ih (fun b' hb' => h b' (by simp [hb'])) ht

/-- A loop that hands a value on: the invariant speaks about the elements that are done. -/
lemma foldlM {f : α → β → Prog ε σ α} (I : List β → α → σ → Prop) {l : List β} {a : α}
    (h : ∀ done b a s, done ++ [b] <+: l → I done a s → Ends (I (done ++ [b])) E U (f a b s))
    (hs : I [] a s) : Ends (I l) E U (l.foldlM f a s) := by
  have key : ∀ rest done a s, done ++ rest = l → I done a s →
      Ends (I l) E U (rest.foldlM f a s) := by
    intro rest
    induction rest with
    | nil =>
      intro done a s hl hI
      rw [List.append_nil] at hl
      rw [hl] at hI
      exact hI
    | cons b rest ih =>
      intro done a s hl hI
      rw [List.foldlM_cons]
      have hl' : (done ++ [b]) ++ rest = l := by rw [List.append_assoc, ← hl]; rfl
      refine bind (h done b a s ⟨rest, hl'⟩ hI) fun a' t ht => ih (done ++ [b]) a' t hl' ht
  exact key l [] a s rfl hs

/-- The same for a loop that hands nothing on. -/
lemma forEachDone {f : β → Prog ε σ Unit} (I : List β → σ → Prop) {l : List β}
    (h : ∀ done b s, done ++ [b] <+: l → I done s → Ends (fun _ => I (done ++ [b])) E U (f b s))
    (hs : I [] s) : Ends (fun _ => I l) E U (Prog.forEach f l s) := by
  have hfold : ∀ l : List β, Prog.forEach f l = l.foldlM (fun _ b => f b) () := by
    intro l
    induction l with
    | nil => rfl
    | cons b bs ih => rw [forEach_cons, ih, List.foldlM_cons]
  rw [hfold]
  exact foldlM (fun done _ => I done) (fun done b _ s => h done b s) hs

/-- A loop over the elements with their indices, where `I n` holds after `n` rounds. -/
lemma forEachIdx {f : β × ℕ → Prog ε σ Unit} (I : ℕ → σ → Prop) {l : List β}
    (h : ∀ n (hn : n < l.length) s, I n s → Ends (fun _ => I (n + 1)) E U (f (l[n], n) s)) (hs : I 0 s) :
    Ends (fun _ => I l.length) E U (Prog.forEach f l.zipIdx s) := by
  have hdone : Ends (fun _ => I l.zipIdx.length) E U (Prog.forEach f l.zipIdx s) := by
    refine forEachDone (fun done => I done.length) ?_ hs
    intro done b s hpre hI
    have hlen : done.length < l.length := by
      have := hpre.length_le
      rw [List.length_append, List.length_zipIdx, List.length_singleton] at this
      omega
    have hb : b = (l[done.length], done.length) := by
      have hget := hpre.getElem (i := done.length) (by simp)
      rw [List.getElem_zipIdx] at hget
      simpa using hget
    rw [List.length_append, List.length_singleton, hb]
    exact h done.length hlen s hI
  rwa [List.length_zipIdx] at hdone

end Ends

/-- Started in a state with `P`, the program ends as `Ends Q E U` says. -/
def Triple (P : σ → Prop) (m : Prog ε σ α) (Q : α → σ → Prop) (E : ε → σ → Prop) (U : Prop) : Prop :=
  ∀ s, P s → Ends Q E U (m s)

namespace Triple

variable {P P' : σ → Prop} {Q Q' : α → σ → Prop} {E E' : ε → σ → Prop} {U : Prop}

lemma pure {a : α} (h : ∀ s, P s → Q a s) : Triple P (pure a : Prog ε σ α) Q E U := h

lemma fail {e : ε} (h : ∀ s, P s → E e s) : Triple P (Prog.fail e : Prog ε σ α) Q E U := h

lemma undef (h : ∀ s, P s → U) : Triple P (Prog.undef : Prog ε σ α) Q E U := h

lemma get {Q : σ → σ → Prop} (h : ∀ s, P s → Q s s) :
    Triple P (Prog.get : Prog ε σ σ) Q E U := h

lemma modify {f : σ → σ} {Q : Unit → σ → Prop} (h : ∀ s, P s → Q () (f s)) :
    Triple P (Prog.modify f : Prog ε σ Unit) Q E U := h

lemma bind {R : α → σ → Prop} {Q : β → σ → Prop} {m : Prog ε σ α} {f : α → Prog ε σ β}
    (hm : Triple P m R E U) (hf : ∀ a, Triple (R a) (f a) Q E U) : Triple P (m >>= f) Q E U := by
  intro s hs
  have h := hm s hs
  rw [bind_apply]
  rcases hms : m s with ⟨_ | _ | _, t⟩
  · rw [hms] at h
    exact hf _ t h
  · rw [hms] at h
    exact h
  · rw [hms] at h
    exact h

lemma ite {c : Prop} [Decidable c] {m m' : Prog ε σ α} (h : c → Triple P m Q E U)
    (h' : ¬ c → Triple P m' Q E U) : Triple P (if c then m else m') Q E U := by
  by_cases hc : c
  · rw [if_pos hc]
    exact h hc
  · rw [if_neg hc]
    exact h' hc

lemma when {c : Prop} [Decidable c] {m : Prog ε σ Unit} {Q : Unit → σ → Prop}
    (h : c → Triple P m Q E U) (h' : ¬ c → ∀ s, P s → Q () s) :
    Triple P (Prog.when c m) Q E U :=
  ite h fun hc => pure (h' hc)

lemma whenSome {f : β → Prog ε σ Unit} {o : Option β} {Q : Unit → σ → Prop}
    (h : ∀ b, o = some b → Triple P (f b) Q E U) (h' : o = none → ∀ s, P s → Q () s) :
    Triple P (Prog.whenSome f o) Q E U := by
  cases o with
  | none => exact pure (h' rfl)
  | some b => exact h b rfl

lemma require {c : Prop} [Decidable c] {e : ε} {Q : Unit → σ → Prop}
    (h : ∀ s, c → P s → Q () s) (h' : ∀ s, ¬ c → P s → E e s) :
    Triple P (Prog.require c e : Prog ε σ Unit) Q E U :=
  ite (fun hc s hs => h s hc hs) (fun hc s hs => h' s hc hs)

lemma conseq {m : Prog ε σ α} (h : Triple P m Q E U) (hP : ∀ s, P' s → P s)
    (hQ : ∀ a s, Q a s → Q' a s) (hE : ∀ e s, E e s → E' e s) : Triple P' m Q' E' U := by
  intro s hs
  have h := h s (hP s hs)
  rcases hms : m s with ⟨_ | _ | _, t⟩
  · rw [hms] at h
    exact hQ _ _ h
  · rw [hms] at h
    exact hE _ _ h
  · rw [hms] at h
    exact h

lemma pre {m : Prog ε σ α} (h : Triple P m Q E U) (hP : ∀ s, P' s → P s) : Triple P' m Q E U :=
  h.conseq hP (fun _ _ h => h) (fun _ _ h => h)

lemma attempt {m : Prog ε σ α} {Q' : Except ε α → σ → Prop}
    (hm : Triple P m (fun a => Q' (.ok a)) (fun e => Q' (.error e)) U) :
    Triple P (Prog.attempt m) Q' E U := by
  intro s hs
  have h := hm s hs
  rw [attempt_apply]
  rcases hms : m s with ⟨_ | _ | _, t⟩ <;> rw [hms] at h <;> exact h

/-- A clean-up that runs after a failure: what it establishes, however it ends, is what the
caller sees. -/
lemma onFail {m : Prog ε σ α} {c : Prog ε σ Unit} {F : ε → σ → Prop} (hm : Triple P m Q F U)
    (hc : ∀ e, Triple (F e) c (fun _ => E e) (fun _ => E e) U) :
    Triple P (Prog.onFail m c) Q E U := by
  intro s hs
  have h := hm s hs
  rw [onFail_apply]
  rcases hms : m s with ⟨_ | _ | _, t⟩
  · rw [hms] at h
    exact h
  · rw [hms] at h
    have h' := hc _ t h
    show Ends Q E U ((c t).1.orFail _, (c t).2)
    rcases hct : c t with ⟨_ | _ | _, u⟩ <;> rw [hct] at h' <;> exact h'
  · rw [hms] at h
    exact h

/-- A loop over a list, with an invariant about the elements still to come. -/
lemma forEach {f : β → Prog ε σ Unit} (I : List β → σ → Prop) {l : List β} {E : ε → σ → Prop}
    (h : ∀ b bs, b :: bs <:+ l → Triple (I (b :: bs)) (f b) (fun _ => I bs) E U) :
    Triple (I l) (Prog.forEach f l) (fun _ => I []) E U := by
  induction l with
  | nil => exact pure fun _ hs => hs
  | cons b bs ih =>
    refine bind (h b bs List.suffix_rfl) fun _ => ih fun b' bs' hsuf => h b' bs' ?_
    exact hsuf.trans (List.suffix_cons b bs)

lemma zoom {look : σ → Option τ} {put : τ → σ → σ} {m : Prog ε τ α} (P' : σ → τ → Prop)
    {Q' : σ → α → τ → Prop} {E' : σ → ε → τ → Prop}
    (hlook : ∀ s t, look s = some t → P s → P' s t) (hnone : ∀ s, look s = none → P s → U)
    (hm : ∀ s, Triple (P' s) m (Q' s) (E' s) U)
    (hQ : ∀ s t t' a, look s = some t → P s → Q' s a t' → Q a (put t' s))
    (hE : ∀ s t t' e, look s = some t → P s → E' s e t' → E e (put t' s)) :
    Triple P (Prog.zoom look put m) Q E U := by
  intro s hs
  cases ht : look s with
  | none => rw [zoom_none ht]; exact hnone s ht hs
  | some t =>
    rw [zoom_some ht]
    have h := hm s t (hlook s t ht hs)
    rcases hms : m t with ⟨_ | _ | _, t'⟩
    · rw [hms] at h
      exact hQ s t t' _ ht hs h
    · rw [hms] at h
      exact hE s t t' _ ht hs h
    · rw [hms] at h
      exact h

end Triple

/-- However the program comes to an end, `I` holds again. -/
def Upholds (I : σ → Prop) (m : Prog ε σ α) : Prop := Triple I m (fun _ => I) (fun _ => I) True

namespace Upholds

variable {I : σ → Prop}

lemma of_keeps {m : Prog ε σ α} (h : Keeps I m) : Upholds I m := fun s hs =>
  Ends.intro (fun _ _ hr => by simpa [hr] using h s hs) (fun _ _ hr => by simpa [hr] using h s hs) fun _ _ => trivial

lemma pure (a : α) : Upholds I (pure a : Prog ε σ α) := of_keeps (.pure a)

lemma fail (e : ε) : Upholds I (Prog.fail e : Prog ε σ α) := of_keeps (.fail e)

lemma undef : Upholds I (Prog.undef : Prog ε σ α) := of_keeps .undef

lemma require {c : Prop} [Decidable c] (e : ε) : Upholds I (Prog.require c e : Prog ε σ Unit) := of_keeps (.require e)

lemma deref (o : Option α) : Upholds I (Prog.deref o : Prog ε σ α) := of_keeps (.deref o)

lemma ofExcept (x : Except ε α) : Upholds I (Prog.ofExcept x : Prog ε σ α) := of_keeps (.ofExcept x)

lemma bind {m : Prog ε σ α} {f : α → Prog ε σ β} (hm : Upholds I m) (hf : ∀ a, Upholds I (f a)) :
    Upholds I (m >>= f) := Triple.bind hm hf

lemma ite {c : Prop} [Decidable c] {m m' : Prog ε σ α} (h : c → Upholds I m) (h' : ¬ c → Upholds I m') :
    Upholds I (if c then m else m') := Triple.ite h h'

lemma whenSome {f : β → Prog ε σ Unit} {o : Option β} (h : ∀ b, o = some b → Upholds I (f b)) :
    Upholds I (Prog.whenSome f o) := Triple.whenSome h fun _ _ hs => hs

lemma when {c : Prop} [Decidable c] {m : Prog ε σ Unit} (h : c → Upholds I m) : Upholds I (Prog.when c m) :=
  Triple.when h fun _ _ hs => hs

lemma attempt {m : Prog ε σ α} (hm : Upholds I m) : Upholds I (Prog.attempt m) := Triple.attempt hm

lemma onFail {m : Prog ε σ α} {c : Prog ε σ Unit} (hm : Upholds I m) (hc : Upholds I c) :
    Upholds I (Prog.onFail m c) := Triple.onFail hm fun _ => hc

lemma forEach {f : β → Prog ε σ Unit} {l : List β} (h : ∀ b ∈ l, Upholds I (f b)) :
    Upholds I (Prog.forEach f l) :=
  Triple.forEach (fun _ => I) fun b _ hsuf => h b (hsuf.subset (by simp))

end Upholds

end Prog

end Libusbgx
