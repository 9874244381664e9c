import Mathlib.Data.List.Forall2

/-!
# Lists side by side, sorted lists and lists of pairs

Lists that are related element by element have a partner for each element. Elements that are
numbered by their places show that sorting keeps the order of equal elements. Lists with the same
elements under each key, in the same order, come from each other by changing the places of
neighbours. Where at most one element of a list has a result, the result does not depend on the
order. A list of pairs with different keys gives for each key the value that stands under it.
-/

namespace CueSheet

variable {α β : Type}

/-- An element of the first of two lists that are related has a partner in the second. -/
theorem exists_of_mem_left {R : α → β → Prop} {xs : List α} {ys : List β}
    (h : List.Forall₂ R xs ys) {x : α} (hx : x ∈ xs) : ∃ y ∈ ys, R x y := by
  induction h with
  | nil => cases hx
  | @cons a b xs ys hab hrest ih =>
    rcases List.mem_cons.1 hx with rfl | hx
    · exact ⟨b, List.mem_cons_self, hab⟩
    · obtain ⟨y, hy, hxy⟩ := ih hx
      exact ⟨y, List.mem_cons_of_mem _ hy, hxy⟩

/-- An element of the second of two lists that are related has a partner in the first. -/
theorem exists_of_mem_right {R : α → β → Prop} {xs : List α} {ys : List β}
    (h : List.Forall₂ R xs ys) {y : β} (hy : y ∈ ys) : ∃ x ∈ xs, R x y :=
  exists_of_mem_left h.flip hy

/-- Lists are related if the lists beside them are, and if elements are that are beside related
ones. -/
theorem forall₂_of_beside {γ δ : Type} {P : α → γ → Prop} {Q : β → δ → Prop} {R : γ → δ → Prop}
    {S : α → β → Prop} (h : ∀ a c b d, P a c → Q b d → R c d → S a b) {as : List α} {cs : List γ}
    {bs : List β} {ds : List δ} (hP : List.Forall₂ P as cs) (hQ : List.Forall₂ Q bs ds)
    (hR : List.Forall₂ R cs ds) : List.Forall₂ S as bs := by
  induction hP generalizing bs ds with
  | nil =>
    cases hR
    cases hQ
    exact .nil
  | cons hac _ ih =>
    cases hR with
    | cons hcd hR =>
      cases hQ with
      | cons hbd hQ => exact .cons (h _ _ _ _ hac hbd hcd) (ih hQ hR)

/-- Lists are related in one way exactly if the lists beside them are related in another, if the
elements beside each other are. -/
theorem forall₂_iff_beside {γ δ : Type} {P : α → γ → Prop} {Q : β → δ → Prop} {R : γ → δ → Prop}
    {S : α → β → Prop} (h : ∀ a c b d, P a c → Q b d → (R c d ↔ S a b)) {as : List α} {cs : List γ}
    {bs : List β} {ds : List δ} (hP : List.Forall₂ P as cs) (hQ : List.Forall₂ Q bs ds) :
    List.Forall₂ R cs ds ↔ List.Forall₂ S as bs :=
  ⟨forall₂_of_beside (fun a c b d hac hbd => (h a c b d hac hbd).1) hP hQ,
    forall₂_of_beside (fun c a d b hac hbd => (h a c b d hac hbd).2) hP.flip hQ.flip⟩

/-- Elements of lists that are related stand in their lists. -/
theorem forall₂_mem {R : α → β → Prop} {xs : List α} {ys : List β} (h : List.Forall₂ R xs ys) :
    List.Forall₂ (fun x y => x ∈ xs ∧ y ∈ ys ∧ R x y) xs ys := by
  induction h with
  | nil => exact .nil
  | cons hfirst _ ih =>
    refine .cons ⟨List.mem_cons_self, List.mem_cons_self, hfirst⟩ (ih.imp fun x y hxy => ?_)
    exact ⟨List.mem_cons_of_mem _ hxy.1, List.mem_cons_of_mem _ hxy.2.1, hxy.2.2⟩

/-- Lists that are related are related in any way that follows for the elements of the first. -/
theorem forall₂_of_mem {R S : α → β → Prop} {xs : List α} {ys : List β} (h : List.Forall₂ R xs ys)
    (hS : ∀ x y, x ∈ xs → R x y → S x y) : List.Forall₂ S xs ys :=
  (forall₂_mem h).imp fun x y hxy => hS x y hxy.1 hxy.2.2

/-- A list that is related to singletons is related to what they hold. -/
theorem forall₂_flatten {R : α → β → Prop} {xs : List α} {yss : List (List β)}
    (h : List.Forall₂ (fun x ys => ∃ y, ys = [y] ∧ R x y) xs yss) :
    List.Forall₂ R xs yss.flatten := by
  induction h with
  | nil => exact .nil
  | cons hfirst _ ih =>
    obtain ⟨y, rfl, hR⟩ := hfirst
    exact .cons hR ih

/-- A list with the image of each element of another one beside it is the list of these images. -/
theorem eq_map_of_forall₂ {γ : Type} {f : α → γ} {xs : List α} {ys : List γ}
    (h : List.Forall₂ (fun x y => y = f x) xs ys) : ys = xs.map f := by
  induction h with
  | nil => rfl
  | cons hfirst _ ih => rw [List.map_cons, hfirst, ih]

/-- A list of images is the image of a list. -/
theorem exists_eq_map_of_forall {f : α → β} {P : α → Prop} {ys : List β}
    (h : ∀ y ∈ ys, ∃ x, y = f x ∧ P x) : ∃ xs : List α, ys = xs.map f ∧ ∀ x ∈ xs, P x := by
  induction ys with
  | nil => exact ⟨[], rfl, nofun⟩
  | cons y ys ih =>
    rw [List.forall_mem_cons] at h
    obtain ⟨⟨x, rfl, hx⟩, hrest⟩ := h
    obtain ⟨xs, rfl, hxs⟩ := ih hrest
    exact ⟨x :: xs, rfl, List.forall_mem_cons.2 ⟨hx, hxs⟩⟩

/-- Lists that are related are related with the numbers of places beside their elements. -/
theorem forall₂_zipIdx {R : α → β → Prop} {xs : List α} {ys : List β} (h : List.Forall₂ R xs ys)
    (first : ℕ) :
    List.Forall₂ (fun x y => R x.1 y.1 ∧ x.2 = y.2) (xs.zipIdx first) (ys.zipIdx first) := by
  induction h generalizing first with
  | nil => exact .nil
  | cons hfirst _ ih => exact .cons ⟨hfirst, rfl⟩ (ih (first + 1))

/-- Lists that are related are sorted to lists that are, if related elements compare alike. -/
theorem forall₂_mergeSort {R : α → β → Prop} {le : α → α → Bool} {le' : β → β → Bool} {xs : List α}
    {ys : List β} (h : List.Forall₂ R xs ys)
    (hle : ∀ x x' y y', R x y → R x' y' → le x x' = le' y y') :
    List.Forall₂ R (xs.mergeSort le) (ys.mergeSort le') := by
  -- Both lists are read off one list of pairs, which is sorted once.
  obtain ⟨pairs, hpairs, rfl, rfl⟩ : ∃ pairs : List (α × β), (∀ pair ∈ pairs, R pair.1 pair.2) ∧
      pairs.map Prod.fst = xs ∧ pairs.map Prod.snd = ys := by
    clear hle
    induction h with
    | nil => exact ⟨[], nofun, rfl, rfl⟩
    | @cons x y xs ys hfirst _ ih =>
      obtain ⟨pairs, hpairs, rfl, rfl⟩ := ih
      exact ⟨(x, y) :: pairs, List.forall_mem_cons.2 ⟨hfirst, hpairs⟩, rfl, rfl⟩
  have hfst : (pairs.mergeSort fun p p' => le p.1 p'.1).map Prod.fst =
      (pairs.map Prod.fst).mergeSort le := List.map_mergeSort fun _ _ _ _ => rfl
  have hsnd : (pairs.mergeSort fun p p' => le p.1 p'.1).map Prod.snd =
      (pairs.map Prod.snd).mergeSort le' :=
    List.map_mergeSort fun p hp p' hp' => hle _ _ _ _ (hpairs p hp) (hpairs p' hp')
  rw [← hfst, ← hsnd, List.forall₂_map_left_iff, List.forall₂_map_right_iff, List.forall₂_same]
  exact fun pair hpair => hpairs pair (List.mem_mergeSort.1 hpair)

/-- An element inserted at the length of a front stands right behind the front. -/
theorem insertIdx_length_append (front back : List α) (x : α) :
    (front ++ back).insertIdx front.length x = front ++ x :: back := by
  induction front with
  | nil => rfl
  | cons first front ih => exact congrArg (first :: ·) ih

/-- Where the elements that pass a test stand behind the others, the first one of them is found. -/
theorem find?_append_eq_head? {p : α → Bool} {front back : List α}
    (hfront : ∀ x ∈ front, p x = false) (hback : ∀ x ∈ back, p x = true) :
    (front ++ back).find? p = back.head? := by
  have hnone : front.find? p = none :=
    List.find?_eq_none.2 fun x hx => by simp [hfront x hx]
  rw [List.find?_append, hnone, Option.none_or]
  cases back with
  | nil => rfl
  | cons x back => exact List.find?_cons_of_pos (hback x List.mem_cons_self)

section Exclusive

variable {f : α → Option β} {xs ys : List α}

/-- Where at most one element has a result, a result is found exactly if an element has it. -/
theorem findSome?_eq_some_iff_of_pairwise
    (h : xs.Pairwise fun x y => f x = none ∨ f y = none) {b : β} :
    xs.findSome? f = some b ↔ ∃ x ∈ xs, f x = some b := by
  refine ⟨List.exists_of_findSome?_eq_some, ?_⟩
  rintro ⟨x, hx, hb⟩
  obtain ⟨front, back, rfl⟩ := List.append_of_mem hx
  -- Nothing in front of the element has a result.
  have hfront : front.findSome? f = none := by
    refine List.findSome?_eq_none_iff.2 fun y hy => ?_
    have hxy := (List.pairwise_append.1 h).2.2 y hy x List.mem_cons_self
    exact hxy.resolve_right (by simp [hb])
  rw [List.findSome?_append, hfront, Option.none_or, List.findSome?_cons, hb]

/-- Where at most one element has a result, the order of the elements makes no difference to it. -/
theorem findSome?_perm (h : xs.Pairwise fun x y => f x = none ∨ f y = none) (hperm : ys.Perm xs) :
    ys.findSome? f = xs.findSome? f := by
  have h' : ys.Pairwise fun x y => f x = none ∨ f y = none :=
    (hperm.pairwise_iff fun hxy => hxy.symm).2 h
  refine Option.ext fun b => ?_
  rw [findSome?_eq_some_iff_of_pairwise h', findSome?_eq_some_iff_of_pairwise h]
  simp only [hperm.mem_iff]

end Exclusive

section Numbered

variable {number : α → ℕ} {xs : List α}

/-- Elements that are numbered by their places have numbers that increase. -/
theorem pairwise_lt_of_numbered (hnumber : ∀ (i : ℕ) (h : i < xs.length), number xs[i] = i) :
    xs.Pairwise fun x y => number x < number y := by
  rw [List.pairwise_iff_getElem]
  intro i j hi hj hlt
  rwa [hnumber, hnumber]

/-- Sorted by their numbers, the elements of a list that are numbered by their places are that list,
in whatever order they come. -/
theorem mergeSort_eq_of_numbered {ys : List α}
    (hnumber : ∀ (i : ℕ) (h : i < xs.length), number xs[i] = i) (hperm : ys.Perm xs) :
    ys.mergeSort (fun x y => number x ≤ number y) = xs := by
  have hbefore : xs.Pairwise fun x y => number x ≤ number y :=
    (pairwise_lt_of_numbered hnumber).imp Nat.le_of_lt
  have hafter : (ys.mergeSort fun x y => number x ≤ number y).Pairwise fun x y =>
      number x ≤ number y :=
    (List.pairwise_mergeSort (fun x y z => by simpa using Nat.le_trans)
      (fun x y => by simpa using Nat.le_total _ _) ys).imp of_decide_eq_true
  have hperm' := (List.mergeSort_perm ys fun x y => decide (number x ≤ number y)).trans hperm
  refine List.Perm.eq_of_pairwise ?_ hafter hbefore hperm'
  -- Two elements of one number are the same, since each stands at the place of its number.
  intro x y hx hy hxy hyx
  obtain ⟨i, hi, rfl⟩ := List.getElem_of_mem (hperm'.mem_iff.1 hx)
  obtain ⟨j, hj, rfl⟩ := List.getElem_of_mem hy
  have hsame : i = j := by
    rw [hnumber, hnumber] at hxy hyx
    exact Nat.le_antisymm hxy hyx
  subst hsame
  rfl

/-- Sorting keeps the order of elements that are equal: in a sorted list the elements that were
numbered by their places have numbers that increase where the elements are equal. -/
theorem pairwise_mergeSort_of_numbered {le : α → α → Bool}
    (trans : ∀ x y z, le x y = true → le y z = true → le x z = true)
    (total : ∀ x y, (le x y || le y x) = true)
    (hnumber : ∀ (i : ℕ) (h : i < xs.length), number xs[i] = i) :
    (xs.mergeSort le).Pairwise fun x y =>
      le x y = true ∧ (le y x = true → number x < number y) := by
  have hplace : ∀ x ∈ xs.zipIdx.mergeSort (List.zipIdxLE le), number x.1 = x.2 := by
    intro x hx
    obtain ⟨hlt, heq⟩ := List.mem_zipIdx' (List.mem_mergeSort.1 hx)
    rw [heq, hnumber]
  have hdistinct : (xs.zipIdx.mergeSort (List.zipIdxLE le)).Pairwise fun x y => x.2 ≠ y.2 := by
    refine ((List.mergeSort_perm _ _).pairwise_iff fun h => h.symm).2 ?_
    rw [← List.pairwise_map (f := fun x : α × ℕ => x.2), List.zipIdx_map_snd]
    exact List.nodup_range'
  have hsorted := List.pairwise_mergeSort (List.zipIdxLE_trans trans) (List.zipIdxLE_total total)
    xs.zipIdx
  rw [← List.mergeSort_zipIdx, List.pairwise_map]
  refine (hsorted.and hdistinct).imp_of_mem fun {x y} hx hy ⟨hle, hne⟩ => ?_
  rw [hplace x hx, hplace y hy]
  unfold List.zipIdxLE at hle
  split_ifs at hle with hxy hyx
  · exact ⟨hxy, fun _ => Nat.lt_of_le_of_ne (of_decide_eq_true hle) hne⟩
  · exact ⟨hxy, fun h => absurd h hyx⟩

end Numbered

section Shuffled

variable {κ : Type} {key : α → κ} {xs ys : List α}

/-- A list is another one in which neighbours with different keys have changed places, any number of
times. -/
inductive Shuffled (key : α → κ) : List α → List α → Prop where
  /-- There is nothing to change. -/
  | nil : Shuffled key [] []
  /-- The change is behind the first element. -/
  | cons (x : α) {xs ys : List α} (h : Shuffled key xs ys) : Shuffled key (x :: xs) (x :: ys)
  /-- The first two elements change places. -/
  | swap {x y : α} (zs : List α) (h : key x ≠ key y) : Shuffled key (x :: y :: zs) (y :: x :: zs)
  /-- One change comes after another. -/
  | trans {xs ys zs : List α} (h : Shuffled key xs ys) (h' : Shuffled key ys zs) :
    Shuffled key xs zs

/-- A list is itself without any change. -/
theorem Shuffled.refl (key : α → κ) : ∀ xs : List α, Shuffled key xs xs
  | [] => .nil
  | x :: xs => .cons x (refl key xs)

/-- An element moves behind elements with other keys. -/
theorem shuffled_append_cons {x : α} (back : List α) {front : List α}
    (h : ∀ y ∈ front, key y ≠ key x) :
    Shuffled key (x :: (front ++ back)) (front ++ x :: back) := by
  induction front with
  | nil => exact .refl key _
  | cons y front ih =>
    rw [List.forall_mem_cons] at h
    exact .trans (.swap _ (Ne.symm h.1)) (.cons y (ih h.2))

/-- Lists that have the same elements under each key, in the same order, are shuffled. -/
theorem shuffled_of_filter_eq [DecidableEq κ]
    (h : ∀ k, xs.filter (key · = k) = ys.filter (key · = k)) : Shuffled key xs ys := by
  induction xs generalizing ys with
  | nil =>
    cases ys with
    | nil => exact .nil
    | cons y ys => simpa using h (key y)
  | cons x xs ih =>
    -- The first element is the first under its key in the other list too.
    have hfirst := (h (key x)).symm
    rw [List.filter_cons_of_pos (by simp)] at hfirst
    obtain ⟨front, back, rfl, hfront, -, hback⟩ := List.filter_eq_cons_iff.1 hfirst
    have hrest : Shuffled key xs (front ++ back) := by
      refine ih fun k => ?_
      have hk := h k
      rw [List.filter_append, List.filter_cons, List.filter_cons] at hk
      rw [List.filter_append]
      by_cases hkey : key x = k
      · subst hkey
        have hnone : front.filter (key · = key x) = [] := List.filter_eq_nil_iff.2 hfront
        rw [hnone, hback, List.nil_append]
      · simpa [hkey] using hk
    refine .trans (.cons x hrest) (shuffled_append_cons back fun y hy => ?_)
    simpa using hfront y hy

end Shuffled

/-- Lists of pairs with the same names in order, and values that are related under each name, give
values for each name that are. -/
theorem lookup_rel [BEq α] [LawfulBEq α] {R : α → β → β → Prop} {entries entries' : List (α × β)}
    (h : List.Forall₂ (fun entry entry' => entry.1 = entry'.1 ∧ R entry.1 entry.2 entry'.2) entries
      entries') (name : α) : Option.Rel (R name) (entries.lookup name) (entries'.lookup name) := by
  induction h with
  | nil => exact .none
  | @cons entry entry' entries entries' hfirst _ ih =>
    obtain ⟨key, value⟩ := entry
    obtain ⟨key', value'⟩ := entry'
    obtain ⟨rfl, hvalue⟩ := hfirst
    rw [List.lookup_cons, List.lookup_cons]
    cases hname : name == key with
    | true => exact .some (eq_of_beq hname ▸ hvalue)
    | false => exact ih

/-- What is looked up under a name stands in the list with that name. -/
theorem mem_of_lookup [BEq α] [LawfulBEq α] {entries : List (α × β)} {a : α} {b : β}
    (h : entries.lookup a = some b) : (a, b) ∈ entries := by
  obtain ⟨before, after, rfl, -⟩ := List.lookup_eq_some_iff.1 h
  simp

variable [DecidableEq α]

/-- A key is found exactly if it stands in the list. -/
theorem lookup_isSome_iff {entries : List (α × β)} {key : α} :
    (entries.lookup key).isSome = true ↔ key ∈ entries.map (·.1) := by
  rw [List.lookup_isSome_iff, List.mem_map]
  simp only [beq_iff_eq, eq_comm (a := key)]

/-- Without the entries of a key all others are found as before. -/
theorem lookup_filter_ne (entries : List (α × β)) (key other : α) :
    (entries.filter fun entry => entry.1 ≠ key).lookup other =
      if other = key then none else entries.lookup other := by
  induction entries with
  | nil => simp
  | cons entry entries ih =>
    obtain ⟨first, value⟩ := entry
    rw [List.filter_cons]
    by_cases hfirst : first = key
    · subst hfirst
      rw [if_neg (by simp), ih, List.lookup_cons]
      split_ifs with hother
      · rfl
      · rw [beq_eq_false_iff_ne.2 hother]
    · rw [if_pos (by simpa using hfirst), List.lookup_cons, List.lookup_cons, ih]
      split_ifs with hother
      · subst hother
        rw [beq_eq_false_iff_ne.2 (Ne.symm hfirst)]
      · rfl

/-- If all keys are different, each entry is found under its key. -/
theorem lookup_of_mem {entries : List (α × β)} {key : α} {value : β}
    (hkeys : (entries.map (·.1)).Nodup) (h : (key, value) ∈ entries) :
    entries.lookup key = some value := by
  induction entries with
  | nil => cases h
  | cons entry entries ih =>
    obtain ⟨first, other⟩ := entry
    rw [List.map_cons, List.nodup_cons] at hkeys
    rw [List.lookup_cons]
    rcases List.mem_cons.1 h with heq | hmem
    · obtain ⟨rfl, rfl⟩ := Prod.mk.inj heq
      rw [beq_self_eq_true]
    · have hne : key ≠ first := by
        rintro rfl
        exact hkeys.1 (List.mem_map.2 ⟨_, hmem, rfl⟩)
      rw [beq_eq_false_iff_ne.2 hne]
      exact ih hkeys.2 hmem

end CueSheet
