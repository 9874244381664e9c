import Mathlib.Data.List.Forall2
import CueSheet.Proofs.Except

/-!
# Computations that end alike

Two computations end alike if both fail, with faults that are related, or both have results, which
are related (`Agree`). Where two runs take the same steps on states that correspond, they end alike;
this module carries the correspondence over the steps.
-/

namespace CueSheet

variable {α β γ δ : Type} {E : Fault → Fault → Prop} {R : α → β → Prop} {S : γ → δ → Prop}

/-- Both computations fail, with related faults, or both have results, which are related. -/
inductive Agree (E : Fault → Fault → Prop) (R : α → β → Prop) :
    Except Fault α → Except Fault β → Prop where
  /-- Both fail. -/
  | fault {fault fault' : Fault} (h : E fault fault') : Agree E R (.error fault) (.error fault')
  /-- Both have results. -/
  | ok {a : α} {b : β} (h : R a b) : Agree E R (.ok a) (.ok b)

namespace Agree

variable {x : Except Fault α} {y : Except Fault β}

/-- Faults and results may be related in other ways that follow. -/
theorem imp {E' : Fault → Fault → Prop} {R' : α → β → Prop} (h : Agree E R x y)
    (hfault : ∀ fault fault', E fault fault' → E' fault fault') (hok : ∀ a b, R a b → R' a b) :
    Agree E' R' x y := by
  cases h with
  | fault h => exact .fault (hfault _ _ h)
  | ok h => exact .ok (hok _ _ h)

/-- Results may be related in another way that follows. -/
theorem mono {R' : α → β → Prop} (h : Agree E R x y) (hok : ∀ a b, R a b → R' a b) :
    Agree E R' x y :=
  h.imp (fun _ _ => id) hok

/-- Results may be related in another way that follows from where they come from. -/
theorem mono_ok {R' : α → β → Prop} (h : Agree E R x y)
    (hok : ∀ a b, x = .ok a → y = .ok b → R a b → R' a b) : Agree E R' x y := by
  cases h with
  | fault h => exact .fault h
  | ok h => exact .ok (hok _ _ rfl rfl h)

/-- Steps that end alike, followed by steps that end alike on related results. -/
theorem bind {f : α → Except Fault γ} {g : β → Except Fault δ} (h : Agree E R x y)
    (hstep : ∀ a b, R a b → Agree E S (f a) (g b)) : Agree E S (x >>= f) (y >>= g) := by
  cases h with
  | fault h => exact .fault h
  | ok h => exact hstep _ _ h

/-- Steps that end with the same results, followed by steps that end alike on each of them. -/
theorem bind_same {y : Except Fault α} {f : α → Except Fault γ} {g : α → Except Fault δ}
    (h : Agree E Eq x y) (hstep : ∀ a, x = .ok a → Agree E S (f a) (g a)) :
    Agree E S (x >>= f) (y >>= g) := by
  cases h with
  | fault h => exact .fault h
  | ok h =>
    subst h
    exact hstep _ rfl

/-- A computation ends like itself, if each of its results is related to itself. -/
theorem refl {R : α → α → Prop} {x : Except Fault α} (h : ∀ a, x = .ok a → R a a) :
    Agree Eq R x x := by
  cases x with
  | error => exact .fault rfl
  | ok a => exact .ok (h a rfl)

/-- Computations that are equal once their results are read in one way end alike. -/
theorem of_map_eq {f : α → γ} {g : β → γ} (h : f <$> x = g <$> y) :
    Agree Eq (fun a b => f a = g b) x y := by
  cases x with
  | error fault =>
    cases y with
    | error fault' => exact .fault (Except.error.inj h)
    | ok b => cases h
  | ok a =>
    cases y with
    | error fault' => cases h
    | ok b => exact .ok (Except.ok.inj h)

/-- A computation whose results are images of those of another one is the other one mapped. -/
theorem eq_map {f : α → β} (h : Agree Eq (fun a b => b = f a) x y) : y = f <$> x := by
  cases h with
  | fault h => rw [h]; rfl
  | ok h => rw [h]; rfl

/-- If the first computation has a result, the second one has a related one. -/
theorem exists_ok (h : Agree E R x y) {a : α} (hx : x = .ok a) : ∃ b, y = .ok b ∧ R a b := by
  cases h with
  | fault => cases hx
  | ok h =>
    obtain rfl := Except.ok.inj hx
    exact ⟨_, rfl, h⟩

/-- The results of both computations are related. -/
theorem related (h : Agree E R x y) {a : α} {b : β} (hx : x = .ok a) (hy : y = .ok b) : R a b := by
  obtain ⟨b', hy', hR⟩ := h.exists_ok hx
  obtain rfl := Except.ok.inj (hy'.symm.trans hy)
  exact hR

/-- Both computations fail with the same faults. -/
theorem error_iff (h : Agree Eq R x y) (fault : Fault) : x = .error fault ↔ y = .error fault := by
  cases h with
  | fault h => simp [h]
  | ok => exact iff_of_false nofun nofun

/-- If no two faults are related, both computations have results. -/
theorem exists_both (h : Agree (fun _ _ => False) R x y) :
    ∃ a b, x = .ok a ∧ y = .ok b ∧ R a b := by
  cases h with
  | fault h => exact h.elim
  | ok h => exact ⟨_, _, rfl, rfl, h⟩

/-- Steps along a list end alike if each of them does on states that correspond. -/
theorem foldlM {ι : Type} {f : α → ι → Except Fault α} {g : β → ι → Except Fault β} {xs : List ι}
    (hstep : ∀ i ∈ xs, ∀ a b, R a b → Agree E R (f a i) (g b i)) {a : α} {b : β} (h : R a b) :
    Agree E R (xs.foldlM f a) (xs.foldlM g b) := by
  induction xs generalizing a b with
  | nil => exact .ok h
  | cons i xs ih =>
    rw [List.forall_mem_cons] at hstep
    rw [List.foldlM_cons, List.foldlM_cons]
    exact (hstep.1 a b h).bind fun _ _ hnext => ih hstep.2 hnext

/-- A step on each element of a list, and a step on the elements beside them. -/
theorem mapM {ι κ : Type} {f : ι → Except Fault α} {g : κ → Except Fault β} {xs : List ι}
    {ys : List κ} (h : List.Forall₂ (fun x y => Agree E R (f x) (g y)) xs ys) :
    Agree E (List.Forall₂ R) (xs.mapM f) (ys.mapM g) := by
  induction h with
  | nil => exact .ok .nil
  | cons hfirst _ ih =>
    rw [List.mapM_cons, List.mapM_cons]
    exact hfirst.bind fun a b hab => ih.bind fun as bs habs => .ok (.cons hab habs)

end Agree

end CueSheet
