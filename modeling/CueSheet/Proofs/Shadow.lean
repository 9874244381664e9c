import Mathlib.Data.List.Forall2
import CueSheet.Proofs.Except

/-!
# Computations beside others that never fail

A computation that may fail runs beside another one that always has a result, and until it fails its
results stand in a relation to those of the other one. Where it fails is told by a condition
(`Shadows`). The conditions of steps add up to one of the whole computation.
-/

namespace CueSheet

variable {α β γ δ : Type} {P Q : Prop} {R : α → β → Prop} {S : γ → δ → Prop}

/-- The first computation has a result, and the second one has a related result if the condition
holds and fails if it does not. Whether the condition holds or not, there is a value that is related
to the result of the first one. -/
def Shadows (P : Prop) (R : α → β → Prop) (x : Except Fault α) (y : Except Fault β) : Prop :=
  ∃ a b, x = .ok a ∧ R a b ∧ (P → y = .ok b) ∧ (¬P → Fails y)

namespace Shadows

variable {x : Except Fault α} {y : Except Fault β}

/-- Results that are related. -/
theorem ok {a : α} {b : β} (h : R a b) : Shadows True R (.ok a) (.ok b) :=
  ⟨a, b, rfl, h, fun _ => rfl, fun hnot => absurd trivial hnot⟩

/-- A computation fails exactly if the condition of its shadowing does not hold. -/
theorem fails_iff (h : Shadows P R x y) : Fails y ↔ ¬P := by
  obtain ⟨a, b, -, -, hok, hfails⟩ := h
  refine ⟨fun hy hP => ?_, hfails⟩
  rw [hok hP] at hy
  exact not_fails_ok b hy

/-- The condition may be told in another way. -/
theorem of_iff (h : Shadows P R x y) (hiff : P ↔ Q) : Shadows Q R x y := by
  obtain rfl := propext hiff
  exact h

/-- Results may be related in another way that follows. -/
theorem imp {R' : α → β → Prop} (h : Shadows P R x y) (himp : ∀ a b, R a b → R' a b) :
    Shadows P R' x y := by
  obtain ⟨a, b, ha, hab, hends⟩ := h
  exact ⟨a, b, ha, himp a b hab, hends⟩

/-- Two steps, the condition of the second of which may depend on the result of the first. -/
theorem bind {Q : α → Prop} {f : α → Except Fault γ} {g : β → Except Fault δ} (h : Shadows P R x y)
    (hstep : ∀ a b, R a b → Shadows (Q a) S (f a) (g b)) :
    Shadows (P ∧ ∀ a, x = .ok a → Q a) S (x >>= f) (y >>= g) := by
  obtain ⟨a, b, rfl, hab, hok, hfails⟩ := h
  obtain ⟨c, d, hc, hcd, hok', hfails'⟩ := hstep a b hab
  refine ⟨c, d, hc, hcd, ?_, fun hnot => ?_⟩
  · rintro ⟨hP, hQ⟩
    rw [hok hP]
    exact hok' (hQ a rfl)
  · by_cases hP : P
    · rw [hok hP]
      refine hfails' fun hQ => hnot ⟨hP, ?_⟩
      rintro _ ⟨⟩
      exact hQ
    · exact fails_bind_iff.2 (.inl (hfails hP))

/-- Two steps, the condition of the second of which does not depend on the result of the first. -/
theorem bind_and {f : α → Except Fault γ} {g : β → Except Fault δ} (h : Shadows P R x y)
    (hstep : ∀ a b, R a b → Shadows Q S (f a) (g b)) : Shadows (P ∧ Q) S (x >>= f) (y >>= g) := by
  refine (h.bind hstep).of_iff (and_congr_right' ?_)
  obtain ⟨a, b, rfl, -⟩ := h
  simp

/-- Two steps, the second of which has a result whenever the first one does. -/
theorem bind_ok {f : α → Except Fault γ} {g : β → Except Fault δ} (h : Shadows P R x y)
    (hstep : ∀ a b, R a b → Shadows True S (f a) (g b)) : Shadows P S (x >>= f) (y >>= g) :=
  (h.bind_and hstep).of_iff (by rw [and_true])

/-- A step on each element of a list. -/
theorem mapM {ι : Type} {C : ι → Prop} {f : ι → Except Fault α} {g : ι → Except Fault β}
    {xs : List ι} (h : ∀ x ∈ xs, Shadows (C x) R (f x) (g x)) :
    Shadows (∀ x ∈ xs, C x) (List.Forall₂ R) (xs.mapM f) (xs.mapM g) := by
  induction xs with
  | nil => exact (ok List.Forall₂.nil).of_iff (by simp)
  | cons x xs ih =>
    rw [List.mapM_cons, List.mapM_cons]
    have hrest := ih fun x hx => h x (List.mem_cons_of_mem _ hx)
    refine ((h x List.mem_cons_self).bind_and fun a b hab => hrest.bind_ok fun as bs habs =>
      ok (List.Forall₂.cons hab habs)).of_iff ?_
    simp

end Shadows

end CueSheet
