import Mathlib.Data.List.Forall2
import CueSheet.Fault

/-!
# Computations that may fail

How a computation made of two steps ends: with a result exactly if both steps have one, and with a
fault exactly if the first step has one, or the second step has one on the result of the first. From
this follows where whole lists of steps fail.
-/

namespace CueSheet

variable {α β ε : Type}

/-- Two steps have a result exactly if both have one. -/
theorem bind_eq_ok {x : Except ε α} {f : α → Except ε β} {b : β} :
    x >>= f = .ok b ↔ ∃ a, x = .ok a ∧ f a = .ok b := by
  cases x <;> simp [bind, Except.bind]

/-- A result that is used has a use exactly if it is there. -/
theorem map_eq_ok {x : Except ε α} {f : α → β} {b : β} :
    x.map f = .ok b ↔ ∃ a, x = .ok a ∧ f a = b := by
  cases x <;> simp [Except.map]

/-- Two steps fail exactly if the first fails, or the second on the result of the first. -/
theorem bind_eq_error {x : Except Fault α} {f : α → Except Fault β} {fault : Fault} :
    x >>= f = .error fault ↔ x = .error fault ∨ ∃ a, x = .ok a ∧ f a = .error fault := by
  cases x <;> simp [bind, Except.bind]

/-- A computation whose result is used ends with the faults that it ends with itself. -/
theorem map_eq_error {x : Except ε α} {f : α → β} {fault : ε} :
    f <$> x = .error fault ↔ x = .error fault := by
  cases x <;> simp [Functor.map, Except.map]

@[simp] theorem ok_bind (a : α) (f : α → Except ε β) : Except.ok a >>= f = f a := rfl

@[simp] theorem error_bind (fault : Fault) (f : α → Except Fault β) :
    (Except.error fault : Except Fault α) >>= f = .error fault := rfl

@[simp] theorem pure_eq_ok_iff {a b : α} : (pure a : Except ε α) = .ok b ↔ a = b := by
  simp [pure, Except.pure]

/-- What a run of steps over a list leaves has every property that the start has and each step
keeps. -/
theorem foldlM_preserves {P : β → Prop} {f : β → α → Except Fault β} :
    ∀ {xs : List α}, (∀ x ∈ xs, ∀ b b', P b → f b x = .ok b' → P b') →
      ∀ {b b' : β}, P b → xs.foldlM f b = .ok b' → P b'
  | [], _, b, b', hb, h => by
    obtain rfl := Except.ok.inj h
    exact hb
  | x :: xs, hstep, b, b', hb, h => by
    rw [List.foldlM_cons] at h
    obtain ⟨c, hc, hrest⟩ := bind_eq_ok.1 h
    exact foldlM_preserves (fun y hy => hstep y (List.mem_cons_of_mem _ hy))
      (hstep x List.mem_cons_self b c hb hc) hrest

/-- A step on each element of a list has the results that it has on each of them. -/
theorem mapM_eq_ok_iff {f : α → Except ε β} {xs : List α} {ys : List β} :
    xs.mapM f = .ok ys ↔ List.Forall₂ (fun x y => f x = .ok y) xs ys := by
  induction xs generalizing ys with
  | nil =>
    rw [List.mapM_nil, pure_eq_ok_iff, List.forall₂_nil_left_iff]
    exact eq_comm
  | cons x xs ih =>
    rw [List.mapM_cons, bind_eq_ok, List.forall₂_cons_left_iff]
    constructor
    · rintro ⟨y, hy, h⟩
      obtain ⟨rest, hrest, h⟩ := bind_eq_ok.1 h
      exact ⟨y, rest, hy, ih.1 hrest, (pure_eq_ok_iff.1 h).symm⟩
    · rintro ⟨y, rest, hy, hrest, rfl⟩
      refine ⟨y, hy, ?_⟩
      rw [ih.2 hrest]
      rfl

/-- Whether a computation has a result that passes a check. -/
def yields (x : Except Fault α) (check : α → Bool) : Bool :=
  match x with
  | .ok a => check a
  | .error _ => false

/-- A computation that yields a result that passes a check has one. -/
theorem exists_of_yields {x : Except Fault α} {check : α → Bool} (h : yields x check = true) :
    ∃ a, x = .ok a ∧ check a = true := by
  cases x with
  | ok a => exact ⟨a, rfl, h⟩
  | error => cases h

/-- Two computations with results that are alike under `g` go on alike under `e`, if what follows
does on alike results. -/
theorem map_bind_eq_of_map_eq {γ δ : Type} {x x' : Except Fault α} {f f' : α → Except Fault β}
    {g : α → γ} {e : β → δ} (h : g <$> x = g <$> x')
    (hf : ∀ a a', g a = g a' → e <$> f a = e <$> f' a') :
    e <$> (x >>= f) = e <$> (x' >>= f') := by
  cases x with
  | error fault =>
    cases x' with
    | error fault' =>
      obtain rfl := Except.error.inj h
      rfl
    | ok a' => cases h
  | ok a =>
    cases x' with
    | error fault' => cases h
    | ok a' => exact hf a a' (Except.ok.inj h)

/-! ## Where computations fail -/

/-- Whether a computation ends with a fault. -/
def Fails (x : Except Fault α) : Prop := ∃ fault, x = .error fault

/-- A computation without a fault has a result. -/
theorem not_fails_iff {x : Except Fault α} : ¬Fails x ↔ ∃ a, x = .ok a := by
  cases x <;> simp [Fails]

@[simp] theorem not_fails_ok (a : α) : ¬Fails (.ok a : Except Fault α) := not_fails_iff.2 ⟨a, rfl⟩

@[simp] theorem not_fails_pure (a : α) : ¬Fails (pure a : Except Fault α) := not_fails_ok a

@[simp] theorem fails_error (fault : Fault) : Fails (.error fault : Except Fault α) := ⟨fault, rfl⟩

@[simp] theorem fails_throw (fault : Fault) : Fails (throw fault : Except Fault α) := ⟨fault, rfl⟩

/-- Two steps fail exactly if the first fails, or the second on the result of the first. -/
theorem fails_bind_iff {x : Except Fault α} {f : α → Except Fault β} :
    Fails (x >>= f) ↔ Fails x ∨ ∃ a, x = .ok a ∧ Fails (f a) := by
  cases x <;> simp

/-- Two steps fail exactly where the first fails, if the second never does. -/
theorem fails_bind_of_total {x : Except Fault α} {f : α → Except Fault β}
    (h : ∀ a, x = .ok a → ¬Fails (f a)) : Fails (x >>= f) ↔ Fails x := by
  rw [fails_bind_iff, or_iff_left]
  rintro ⟨a, ha, hf⟩
  exact h a ha hf

/-- Two steps fail exactly if one of them does, if the second fails on the same condition on every
result of the first. -/
theorem fails_bind_iff_or {x : Except Fault α} {f : α → Except Fault β} {P : Prop}
    (h : ∀ a, Fails (f a) ↔ P) : Fails (x >>= f) ↔ Fails x ∨ P := by
  cases x <;> simp [h]

/-- A computation whose result is used without a fault fails exactly where it does itself. -/
theorem fails_map_iff {x : Except Fault α} {f : α → β} : Fails (f <$> x) ↔ Fails x := by
  cases x <;> simp [Functor.map, Except.map, Fails]

/-- A step on each element of a list fails exactly if it fails on some element. -/
theorem fails_mapM_iff {f : α → Except Fault β} {xs : List α} :
    Fails (xs.mapM f) ↔ ∃ x ∈ xs, Fails (f x) := by
  induction xs with
  | nil => simp
  | cons x xs ih =>
    rw [List.mapM_cons, fails_bind_iff]
    simp only [bind_pure_comp, fails_map_iff, ih, List.mem_cons, exists_eq_or_imp]
    refine or_congr_right' fun hx => ?_
    obtain ⟨b, hb⟩ := not_fails_iff.1 hx
    simp [hb]

/-- A step that has a related result on each element of a list has related results on the list. -/
theorem exists_mapM_of_forall {R : α → β → Prop} {f : α → Except Fault β} {xs : List α}
    (h : ∀ x ∈ xs, ∃ y, f x = .ok y ∧ R x y) :
    ∃ ys, xs.mapM f = .ok ys ∧ List.Forall₂ R xs ys := by
  induction xs with
  | nil => exact ⟨[], rfl, .nil⟩
  | cons x xs ih =>
    rw [List.forall_mem_cons] at h
    obtain ⟨⟨y, hy, hR⟩, hrest⟩ := h
    obtain ⟨ys, hys, hRs⟩ := ih hrest
    refine ⟨y :: ys, ?_, .cons hR hRs⟩
    rw [List.mapM_cons, hy, ok_bind, hys]
    rfl

/-- A step on each element of a list has results with a property exactly if it has one with the
property on each of them. -/
theorem exists_mapM_iff {P : β → Prop} {f : α → Except Fault β} {xs : List α} :
    (∃ ys, xs.mapM f = .ok ys ∧ ∀ y ∈ ys, P y) ↔ ∀ x ∈ xs, ∃ y, f x = .ok y ∧ P y := by
  induction xs with
  | nil => simp
  | cons x xs ih =>
    rw [List.forall_mem_cons, ← ih, List.mapM_cons]
    constructor
    · rintro ⟨ys, hys, hall⟩
      obtain ⟨y, hy, hys⟩ := bind_eq_ok.1 hys
      obtain ⟨rest, hrest, hys⟩ := bind_eq_ok.1 hys
      obtain rfl := pure_eq_ok_iff.1 hys
      obtain ⟨hP, hall⟩ := List.forall_mem_cons.1 hall
      exact ⟨⟨y, hy, hP⟩, rest, hrest, hall⟩
    · rintro ⟨⟨y, hy, hP⟩, rest, hrest, hall⟩
      refine ⟨y :: rest, ?_, List.forall_mem_cons.2 ⟨hP, hall⟩⟩
      rw [hy, ok_bind, hrest, ok_bind]
      rfl

/-- A step does the same on two lists if it does the same on the elements beside each other. -/
theorem mapM_eq_of_forall₂ {f : α → Except Fault γ} {g : β → Except Fault γ} {xs : List α}
    {ys : List β} (h : List.Forall₂ (fun x y => f x = g y) xs ys) : xs.mapM f = ys.mapM g := by
  induction h with
  | nil => rfl
  | cons hfirst _ ih => rw [List.mapM_cons, List.mapM_cons, hfirst, ih]

/-- A run of steps that fail on the same elements from every state on fails exactly if there is such
an element. -/
theorem fails_foldlM_iff {P : α → Prop} {f : β → α → Except Fault β}
    (hstep : ∀ b a, Fails (f b a) ↔ P a) :
    ∀ {xs : List α} {b : β}, Fails (xs.foldlM f b) ↔ ∃ x ∈ xs, P x
  | [], b => by simp
  | x :: xs, b => by
    rw [List.foldlM_cons, fails_bind_iff, hstep]
    simp only [List.mem_cons, exists_eq_or_imp]
    refine or_congr_right' fun hx => ?_
    obtain ⟨c, hc⟩ := not_fails_iff.1 ((hstep b x).not.2 hx)
    simp only [hc, Except.ok.injEq, exists_eq_left', fails_foldlM_iff hstep]

end CueSheet
