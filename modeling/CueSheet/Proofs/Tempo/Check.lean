import CueSheet.Proofs.Numeric.Order
import CueSheet.Tempo.Map

/-!
# What the check of segments accepts

Segments are checked from the front, each against the start before it. What a whole check accepts is
said here without the walk: all tempos are finite and above zero, all starts are finite and increase,
and the first one is beat zero (`TempoMap.IsValid`, `TempoMap.ofSegments_eq_ok_iff`).
-/

namespace CueSheet

variable {ρ : Rounding}

/-- A quantity that is found to be finite has a rational. -/
theorem Number.exists_toRat?_of_checkFinite {x : Number} (h : x.checkFinite ρ = .ok true) :
    ∃ q, x.toRat? = some q := by
  cases x with
  | int n => exact ⟨n, rfl⟩
  | bool b => exact ⟨_, rfl⟩
  | real x => exact (Extended.isFinite_iff_toRat? x).1 (Except.ok.inj h)

/-! ## One segment -/

/-- A fault under a condition lets a computation go on exactly if the condition does not hold. -/
theorem ite_eq_ok_iff_of_fails {α : Type} {condition : Prop} [Decidable condition]
    {refusal rest : Except Fault α} (h : Fails refusal) {a : α} :
    (if condition then refusal else rest) = .ok a ↔ ¬condition ∧ rest = .ok a := by
  by_cases hcondition : condition
  · rw [if_pos hcondition]
    refine iff_of_false (fun hok => ?_) fun h => h.1 hcondition
    exact not_fails_ok a (hok ▸ h)
  · rw [if_neg hcondition]
    exact (and_iff_right hcondition).symm

/-- A conflict under a condition lets a check go on exactly if the condition does not hold. -/
theorem conflict_guard_eq_ok_iff {α : Type} {condition : Prop} [Decidable condition] {start : Value}
    {why : Conflict} {rest : Except Fault α} {a : α} :
    (if condition then conflictAt start why >>= fun _ : Unit => rest else rest) = .ok a ↔
      ¬condition ∧ rest = .ok a :=
  ite_eq_ok_iff_of_fails ⟨_, rfl⟩

/-- So does a conflict that shows a quantity. -/
theorem shown_guard_eq_ok_iff {α : Type} {condition : Prop} [Decidable condition]
    {shown : Except Fault String} {start : Value} {why : String → Conflict}
    {rest : Except Fault α} {a : α} :
    (if condition then shown >>= fun s => conflictAt start (why s) >>= fun _ : Unit => rest
      else rest) = .ok a ↔ ¬condition ∧ rest = .ok a := by
  refine ite_eq_ok_iff_of_fails ?_
  cases shown <;> exact ⟨_, rfl⟩

/-- A segment has a finite start and a finite tempo above zero. -/
structure Segment.IsChecked (ρ : Rounding) (segment : Segment Number) : Prop where
  /-- The start is finite. -/
  start : segment.start.checkFinite ρ = .ok true
  /-- The tempo is above zero. -/
  isPositive : segment.bpm.isPositive = true
  /-- The tempo is finite. -/
  bpm : segment.bpm.checkFinite ρ = .ok true

/-- A tempo is accepted if it is finite and above zero. -/
theorem checkTempo_eq_ok_iff {segment : Segment Value} {bpm : Number} :
    checkTempo ρ segment = .ok bpm ↔
      segment.bpm = .number bpm ∧ bpm.isPositive = true ∧ bpm.checkFinite ρ = .ok true := by
  have hnumber {x : Number} : segment.bpm.toNumber '>' = .ok x ↔ segment.bpm = .number x := by
    cases segment.bpm <;> simp [Value.toNumber]
  unfold checkTempo
  simp only [bind_eq_ok, shown_guard_eq_ok_iff, hnumber]
  constructor
  · rintro ⟨x, hx, hpositive, finite, hfinite, hguard, h⟩
    obtain rfl := pure_eq_ok_iff.1 h
    cases finite
    · exact absurd rfl hguard
    · exact ⟨hx, by simpa using hpositive, hfinite⟩
  · rintro ⟨hx, hpositive, hfinite⟩
    exact ⟨bpm, hx, by simp [hpositive], true, hfinite, nofun, rfl⟩

/-- A start is accepted if it is finite. -/
theorem checkStart_eq_ok_iff {start : Value} {beat : Number} :
    checkStart ρ start = .ok beat ↔ start = .number beat ∧ beat.checkFinite ρ = .ok true := by
  constructor
  · intro h
    obtain ⟨found, hfound, h⟩ := bind_eq_ok.1 h
    cases start with
    | null | text | list | record => cases hfound
    | number x =>
      obtain ⟨finite, hfinite, hfound⟩ := bind_eq_ok.1 hfound
      obtain rfl := pure_eq_ok_iff.1 hfound
      cases finite with
      | true =>
        obtain rfl := pure_eq_ok_iff.1 h
        exact ⟨rfl, hfinite⟩
      | false =>
        obtain ⟨shown, -, hconflict⟩ := bind_eq_ok.1 h
        cases hconflict
  · rintro ⟨rfl, hfinite⟩
    simp [checkStart, Value.toFinite, hfinite]

/-- The first start is in its place if it is beat zero. -/
theorem checkPlace_none_iff {start : Number} :
    checkPlace none start = .ok () ↔ start.eq (.int 0) = true := by
  unfold checkPlace
  split_ifs with hzero
  · exact iff_of_true rfl hzero
  · exact iff_of_false nofun hzero

/-- A later start is in its place if it is behind the start before it. -/
theorem checkPlace_some_iff {previous start : Number} {p q : ℚ} (hp : previous.toRat? = some p)
    (hq : start.toRat? = some q) :
    checkPlace (some previous) start = .ok () ↔ previous.lt start = true := by
  -- The two conflicts rule out equality and the wrong order, and on finite starts nothing else is left.
  have hlast : (if start.lt previous = true then start.shown >>= fun shown =>
      (conflictAt start (.order shown) : Except Fault Unit) else pure ()) = .ok () ↔
      ¬start.lt previous = true := by
    split_ifs with hlt
    · refine iff_of_false ?_ fun h => h hlt
      cases start.shown <;> nofun
    · exact iff_of_true rfl hlt
  unfold checkPlace
  dsimp only
  rw [shown_guard_eq_ok_iff, hlast, Number.eq_iff hq hp, Number.lt_iff hq hp, Number.lt_iff hp hq]
  exact ⟨fun h => (lt_or_gt_of_ne h.1).resolve_left h.2 , fun h => ⟨h.ne', h.not_gt⟩⟩

/-! ## A whole list -/

/-- The segment with its quantities as values. -/
def Segment.values (segment : Segment Number) : Segment Value := segment.map .number

/-- A segment is told by its quantities as values. -/
theorem Segment.values_injective : Function.Injective Segment.values := fun segment other h => by
  obtain ⟨hstart, hbpm⟩ := Segment.mk.inj h
  exact congrArg₂ Segment.mk (Value.number.inj hstart) (Value.number.inj hbpm)

/-- A list of segments is accepted if the first one is, and the others are behind it. -/
theorem checkFrom_cons_eq_ok_iff {previous : Option Number} {segment : Segment Value}
    {given : List (Segment Value)} {segments : List (Segment Number)} :
    checkFrom ρ previous (segment :: given) = .ok segments ↔
      ∃ checked rest, segment = checked.values ∧ checked.IsChecked ρ ∧
        checkPlace previous checked.start = .ok () ∧
        checkFrom ρ (some checked.start) given = .ok rest ∧ segments = checked :: rest := by
  constructor
  · intro h
    obtain ⟨bpm, hbpm, h⟩ := bind_eq_ok.1 h
    obtain ⟨start, hstart, h⟩ := bind_eq_ok.1 h
    obtain ⟨⟨⟩, hplace, h⟩ := bind_eq_ok.1 h
    obtain ⟨rest, hrest, h⟩ := bind_eq_ok.1 h
    obtain rfl := pure_eq_ok_iff.1 h
    obtain ⟨hbpmValue, hpositive, hbpm⟩ := checkTempo_eq_ok_iff.1 hbpm
    obtain ⟨hstartValue, hstart⟩ := checkStart_eq_ok_iff.1 hstart
    refine ⟨⟨start, bpm⟩, rest, ?_, ⟨hstart, hpositive, hbpm⟩, hplace, hrest, rfl⟩
    rw [Segment.values, Segment.map, ← hstartValue, ← hbpmValue]
  · rintro ⟨⟨start, bpm⟩, rest, rfl, hchecked, hplace, hrest, rfl⟩
    have hbpm : checkTempo ρ (Segment.values ⟨start, bpm⟩) = .ok bpm :=
      checkTempo_eq_ok_iff.2 ⟨rfl, hchecked.isPositive, hchecked.bpm⟩
    have hstart : checkStart ρ (.number start) = .ok start :=
      checkStart_eq_ok_iff.2 ⟨rfl, hchecked.start⟩
    unfold checkFrom
    rw [hbpm, ok_bind, show (Segment.values ⟨start, bpm⟩).start = .number start from rfl, hstart,
      ok_bind, hplace, ok_bind, hrest]
    rfl

/-- The starts of segments increase. -/
def Increasing (segments : List (Segment Number)) : Prop :=
  segments.Pairwise fun earlier later => earlier.start.lt later.start = true

/-- One quantity is less than another one that is less than a third. -/
theorem Number.lt_trans_of_toRat? {x y z : Number} {p q r : ℚ} (hx : x.toRat? = some p)
    (hy : y.toRat? = some q) (hz : z.toRat? = some r) (hxy : x.lt y = true) (hyz : y.lt z = true) :
    x.lt z = true :=
  (lt_iff hx hz).2 (((lt_iff hx hy).1 hxy).trans ((lt_iff hy hz).1 hyz))

/-- The check of segments behind a start accepts segments with increasing starts behind it. -/
theorem checkFrom_some_eq_ok_iff {previous : Number} {p : ℚ} (hp : previous.toRat? = some p)
    {given : List (Segment Value)} {segments : List (Segment Number)} :
    checkFrom ρ (some previous) given = .ok segments ↔
      given = segments.map Segment.values ∧ (∀ segment ∈ segments, segment.IsChecked ρ) ∧
        (∀ segment ∈ segments, previous.lt segment.start = true) ∧ Increasing segments := by
  induction given generalizing previous p segments with
  | nil =>
    rw [checkFrom, pure_eq_ok_iff]
    constructor
    · rintro rfl
      exact ⟨rfl, nofun, nofun, .nil⟩
    · rintro ⟨hgiven, -⟩
      exact (List.map_eq_nil_iff.1 hgiven.symm).symm
  | cons segment given ih =>
    rw [checkFrom_cons_eq_ok_iff]
    constructor
    · rintro ⟨checked, rest, rfl, hchecked, hplace, hrest, rfl⟩
      obtain ⟨q, hq⟩ := Number.exists_toRat?_of_checkFinite hchecked.start
      have hlt := (checkPlace_some_iff hp hq).1 hplace
      -- Each start is compared with the one before it only; the others follow by transitivity.
      obtain ⟨rfl, hall, hbehind, hincreasing⟩ := (ih hq).1 hrest
      refine ⟨rfl, List.forall_mem_cons.2 ⟨hchecked, hall⟩,
        List.forall_mem_cons.2 ⟨hlt, fun later hlater => ?_⟩,
        List.pairwise_cons.2 ⟨hbehind, hincreasing⟩⟩
      obtain ⟨r, hr⟩ := Number.exists_toRat?_of_checkFinite (hall later hlater).start
      exact Number.lt_trans_of_toRat? hp hq hr hlt (hbehind later hlater)
    · rintro ⟨hgiven, hall, hbehind, hincreasing⟩
      obtain ⟨checked, rest, rfl, rfl, rfl⟩ := List.map_eq_cons_iff.1 hgiven.symm
      obtain ⟨hchecked, hall⟩ := List.forall_mem_cons.1 hall
      obtain ⟨hlt, -⟩ := List.forall_mem_cons.1 hbehind
      obtain ⟨hfirst, hincreasing⟩ := List.pairwise_cons.1 hincreasing
      obtain ⟨q, hq⟩ := Number.exists_toRat?_of_checkFinite hchecked.start
      exact ⟨checked, rest, rfl, hchecked, (checkPlace_some_iff hp hq).2 hlt,
        (ih hq).2 ⟨rfl, hall, hfirst, hincreasing⟩, rfl⟩

namespace TempoMap

/-- Segments that make a tempo map. -/
structure IsValid (ρ : Rounding) (segments : List (Segment Number)) : Prop where
  /-- There is a segment, and the first one starts at beat zero. -/
  first : ∃ segment ∈ segments.head?, segment.start.eq (.int 0) = true
  /-- The starts are finite, and the tempos are finite and above zero. -/
  checked : ∀ segment ∈ segments, segment.IsChecked ρ
  /-- The starts increase. -/
  increasing : Increasing segments

/-- The tempo map of segments that has worked out nothing. -/
def fresh (segments : List (Segment Number)) : TempoMap :=
  ⟨segments, segments.map (·.start), none⟩

/-- The check accepts the segments that make a tempo map, and an empty list. -/
theorem checkSegments_eq_ok_iff {given : List (Segment Value)} (hne : given ≠ [])
    {segments : List (Segment Number)} :
    checkSegments ρ given = .ok segments ↔
      given = segments.map Segment.values ∧ IsValid ρ segments := by
  obtain ⟨segment, given, rfl⟩ := List.exists_cons_of_ne_nil hne
  rw [checkSegments, checkFrom_cons_eq_ok_iff]
  constructor
  · rintro ⟨checked, rest, rfl, hchecked, hplace, hrest, rfl⟩
    obtain ⟨q, hq⟩ := Number.exists_toRat?_of_checkFinite hchecked.start
    obtain ⟨rfl, hall, hbehind, hincreasing⟩ := (checkFrom_some_eq_ok_iff hq).1 hrest
    exact ⟨rfl, ⟨checked, rfl, checkPlace_none_iff.1 hplace⟩,
      List.forall_mem_cons.2 ⟨hchecked, hall⟩, List.pairwise_cons.2 ⟨hbehind, hincreasing⟩⟩
  · rintro ⟨hgiven, hvalid⟩
    obtain ⟨checked, rest, rfl, rfl, rfl⟩ := List.map_eq_cons_iff.1 hgiven.symm
    obtain ⟨_, ⟨⟩, hzero⟩ := hvalid.first
    obtain ⟨hchecked, hall⟩ := List.forall_mem_cons.1 hvalid.checked
    obtain ⟨hbehind, hincreasing⟩ := List.pairwise_cons.1 hvalid.increasing
    obtain ⟨q, hq⟩ := Number.exists_toRat?_of_checkFinite hchecked.start
    exact ⟨checked, rest, rfl, hchecked, checkPlace_none_iff.2 hzero,
      (checkFrom_some_eq_ok_iff hq).2 ⟨rfl, hall, hbehind, hincreasing⟩, rfl⟩

/-- The tempo map of segments, if there are any, is that of the ones that the check reads. -/
theorem ofSegments_eq {given : List (Segment Value)} (hne : given ≠ []) :
    ofSegments ρ given = checkSegments ρ given >>= fun segments => .ok (fresh segments) := by
  obtain ⟨segment, given, rfl⟩ := List.exists_cons_of_ne_nil hne
  rfl

/-- There is a tempo map of the segments that make one; it has worked out nothing. -/
theorem ofSegments_eq_ok_iff {given : List (Segment Value)} {map : TempoMap} :
    ofSegments ρ given = .ok map ↔
      ∃ segments, given = segments.map Segment.values ∧ IsValid ρ segments ∧ map = fresh segments := by
  by_cases hne : given = []
  · subst hne
    refine iff_of_false nofun ?_
    rintro ⟨segments, hgiven, hvalid, -⟩
    obtain rfl := List.map_eq_nil_iff.1 hgiven.symm
    obtain ⟨_, ⟨⟩, -⟩ := hvalid.first
  · rw [ofSegments_eq hne, bind_eq_ok]
    constructor
    · rintro ⟨segments, hsegments, h⟩
      obtain rfl := Except.ok.inj h
      obtain ⟨hgiven, hvalid⟩ := (checkSegments_eq_ok_iff hne).1 hsegments
      exact ⟨segments, hgiven, hvalid, rfl⟩
    · rintro ⟨segments, hgiven, hvalid, rfl⟩
      exact ⟨segments, (checkSegments_eq_ok_iff hne).2 ⟨hgiven, hvalid⟩, rfl⟩

end TempoMap

end CueSheet
