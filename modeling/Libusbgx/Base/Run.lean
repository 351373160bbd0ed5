import Libusbgx.Base.Prog
import Mathlib.Logic.Relation

/-!
# Runs of a set of programs

The callers of a library may use its functions in any order.  A run is a sequence of calls that
all come to an end, each with a value or with an error code; `allowed` says which calls a caller
may make in which states.
-/

namespace Libusbgx

namespace Prog

variable {ε σ γ : Type}

/-- One call that comes to an end. -/
def CallStep (prog : γ → Prog ε σ Unit) (allowed : γ → σ → Prop) (s t : σ) : Prop :=
  ∃ c o, allowed c s ∧ o ≠ .undef ∧ prog c s = (o, t)

/-- Any number of calls. -/
def Calls (prog : γ → Prog ε σ Unit) (allowed : γ → σ → Prop) : σ → σ → Prop :=
  Relation.ReflTransGen (CallStep prog allowed)

variable {prog : γ → Prog ε σ Unit} {allowed : γ → σ → Prop} {s t : σ}

lemma Calls.refl (s : σ) : Calls prog allowed s s := Relation.ReflTransGen.refl

/-- One more call at the end of a run. -/
lemma Calls.call (h : Calls prog allowed s t) (c : γ) (hc : allowed c t)
    (hdef : (prog c t).1 ≠ .undef) : Calls prog allowed s (prog c t).2 :=
  h.tail ⟨c, (prog c t).1, hc, hdef, rfl⟩

/-- A run of calls each of which is allowed for another reason too. -/
lemma Calls.mono {allowed' : γ → σ → Prop} (h : Calls prog allowed s t) (hc : ∀ c s, allowed c s → allowed' c s) :
    Calls prog allowed' s t := by
  have hle : CallStep prog allowed ≤ CallStep prog allowed' := by
    rintro s t ⟨c, o, hcs, ho, hrun⟩
    exact ⟨c, o, hc c s hcs, ho, hrun⟩
  exact Relation.ReflTransGen.mono hle _ _ h

/-- What every allowed call preserves, holds after every run. -/
lemma Calls.invariant (I : σ → Prop)
    (hstep : ∀ c s, allowed c s → I s → Ends (fun _ => I) (fun _ => I) True (prog c s))
    (h : Calls prog allowed s t) (hs : I s) : I t := by
  induction h with
  | refl => exact hs
  | tail _ hcall ih =>
    obtain ⟨c, o, hc, ho, hrun⟩ := hcall
    have hends := hstep c _ hc ih
    rw [hrun] at hends
    rcases o with _ | e | _
    · exact hends
    · exact hends
    · exact absurd rfl ho

end Prog

end Libusbgx
