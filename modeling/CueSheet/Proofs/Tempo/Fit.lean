import CueSheet.Proofs.Numeric.Clip
import CueSheet.Proofs.Shadow
import CueSheet.Proofs.Tempo.Clock

/-!
# Where times of beats are finite

The time of a beat is a sum of spans, and a span is sixty times a distance divided by a tempo. It is
worked out with the rounding of binary64; what becomes of it is told here by the rounding of the same
precision that never overflows. A span between whole beats is a fault if it is beyond the real
numbers (`SpanReads`), and one between real beats is infinite if sixty times the distance is
(`SpanFits`), even if the time itself would not be. With no such span the time is the unlimited one,
as far as that is below the greatest magnitude (`TempoMap.isTime_iff`).
-/

namespace CueSheet

/-- A quantity is a point in time: a finite number of at least zero. -/
def Number.IsTime (x : Number) : Prop := ∃ q, x.toRat? = some q ∧ 0 ≤ q

/-- A quantity is below the greatest magnitude. -/
def Number.IsBelow (x : Number) : Prop := x.extended.IsBelow

/-- Real numbers of which the second, that of binary64, tracks the first. -/
def Number.Tracks (fits : Prop) (x y : Number) : Prop :=
  ∃ u v, x = .real u ∧ y = .real v ∧ CueSheet.Tracks fits u v

namespace TempoMap

variable {ρ : Rounding} {start beat bpm : Number} {segments : List (Segment Number)}

/-- Sixty times the distance between two beats. -/
def sixtyfold (ρ : Rounding) (start beat : Number) : Except Fault Number := do
  Number.mul ρ (← Number.sub ρ beat start) (.int 60)

/-- A whole number can be divided by a tempo: the quotient, or the number itself if the tempo is
real, is not beyond the real numbers. -/
def WholeReads (d : ℤ) : Number → Prop
  | .int b => (d : ℚ) / b < overflowAt
  | .real _ | .bool _ => (d : ℚ) < overflowAt

/-- The span from one beat to another can be worked out: where sixty times the distance is a whole
number, that can be divided by the tempo. -/
def SpanReads (start beat bpm : Number) : Prop :=
  ∀ d : ℤ, sixtyfold .unlimited start beat = .ok (.int d) → WholeReads d bpm

/-- The span from one beat to another stays finite until it is divided: where sixty times the
distance is a real number, it is below the greatest magnitude. -/
def SpanFits (start beat : Number) : Prop :=
  ∀ x : Extended, sixtyfold .unlimited start beat = .ok (.real x) → x.IsBelow

/-- The starts of all segments have times. -/
def StartsRead : List (Segment Number) → Prop
  | segment :: next :: segments =>
    SpanReads segment.start next.start segment.bpm ∧ StartsRead (next :: segments)
  | _ => True

/-- The spans on the way to a beat stay finite until they are divided. -/
def SpansFit (beat : Number) : List (Segment Number) → Prop
  | [] => True
  | [segment] => SpanFits segment.start beat
  | segment :: next :: segments =>
    if beat.lt next.start then SpanFits segment.start beat
    else SpanFits segment.start next.start ∧ SpansFit beat (next :: segments)

/-- A beat has a time that is finite: all starts have times, the spans on the way to the beat stay
finite until they are divided, and without a greatest magnitude the time would be below it. -/
structure TimeFits (segments : List (Segment Number)) (beat : Number) : Prop where
  /-- All starts have times. -/
  starts : StartsRead segments
  /-- The spans on the way stay finite until they are divided. -/
  spans : SpansFit beat segments
  /-- The sum of the spans is below the greatest magnitude. -/
  below : ∃ seconds, secondsFrom .unlimited beat (.real (.finite 0)) segments = .ok seconds ∧
    seconds.IsBelow

/-! ## One span -/

/-- A span is sixty times the distance, divided by the tempo. -/
theorem span_eq (ρ : Rounding) (start beat bpm : Number) :
    span ρ start beat bpm = sixtyfold ρ start beat >>= fun x => Number.div ρ x bpm := by
  unfold span sixtyfold
  cases Number.sub ρ beat start <;> rfl

/-- Sixty times the distance is a real number if one of the beats is. -/
theorem sixtyfold_of_real {y z : Extended} (hstart : start.toReal ρ = .ok y)
    (hbeat : beat.toReal ρ = .ok z) (hsixty : (Number.int 60).toReal ρ = .ok (.finite 60))
    (hreal : start.whole? = none ∨ beat.whole? = none) :
    sixtyfold ρ start beat = .ok (.real (.mul ρ (.sub ρ z y) (.finite 60))) := by
  have hsub : Number.sub ρ beat start = .ok (.real (.sub ρ z y)) := by
    unfold Number.sub Number.combine
    rcases hreal with hnone | hnone
    · cases hwhole : beat.whole? <;> simp only [hnone, hstart, hbeat] <;> rfl
    · simp only [hnone, hstart, hbeat]
      rfl
  rw [sixtyfold, hsub, ok_bind, Number.real_mul, hsixty]
  rfl

/-- Sixty times the distance of two amounts, the first of which is not behind the second: if both are
whole it is the same whole number under both roundings, and otherwise it clips. -/
theorem sixtyfold_cases {p q : ℚ} (hstart : start.IsAmount) (hbeat : beat.IsAmount)
    (hp : start.toRat? = some p) (hq : beat.toRat? = some q) (h : p ≤ q) :
    (∃ d : ℤ, 0 ≤ d ∧ ∀ ρ, sixtyfold ρ start beat = .ok (.int d)) ∨
      ∃ u x, sixtyfold .unlimited start beat = .ok (.real u) ∧
        sixtyfold .binary64 start beat = .ok (.real x) ∧ Clips u x := by
  -- Whole numbers are subtracted and multiplied as such; one real number makes both of them real.
  by_cases hreal : start.whole? = none ∨ beat.whole? = none
  · obtain ⟨y, hy, hy', hyr⟩ := hstart.exists_toReal hp
    obtain ⟨z, hz, hz', hzr⟩ := hbeat.exists_toReal hq
    obtain ⟨p', hp', hnonneg⟩ := hstart.nonneg
    obtain rfl := Option.some.inj (hp.symm.trans hp')
    have hclips := (Clips.sub_same hzr hyr (nearest_mono hnonneg h)).mul_finite
      (show (1 : ℚ) ≤ 60 by norm_num)
    have hsixty : (Number.int 60).toReal .unlimited = .ok (.finite 60) := by decide +kernel
    exact .inr ⟨_, _, sixtyfold_of_real hy' hz' hsixty hreal,
      sixtyfold_of_real hy hz (Number.toReal_factor (.inl rfl)) hreal, hclips⟩
  · rw [not_or] at hreal
    cases start with
    | bool => cases hstart.numeric
    | real => exact absurd rfl hreal.1
    | int m =>
      cases beat with
      | bool => cases hbeat.numeric
      | real => exact absurd rfl hreal.2
      | int n =>
        obtain rfl := Option.some.inj hp
        obtain rfl := Option.some.inj hq
        have hmn : m ≤ n := by exact_mod_cast h
        exact .inl ⟨(n - m) * 60, by omega, fun _ => rfl⟩

/-- The quotient of two whole numbers above zero is the rounded one, if that is not infinite. -/
theorem divWhole_pos {d b : ℤ} (hd : 0 < d) (hb : 0 < b) :
    Number.divWhole .unlimited d b = .ok (.real (Rounding.unlimited (d / b))) ∧
      Number.divWhole .binary64 d b =
        if overflowAt ≤ (d / b : ℚ) then .error .quotientTooLarge
        else .ok (.real (Rounding.unlimited (d / b))) := by
  have hq : (0 : ℚ) ≤ d / b := by positivity
  have hround := unlimited_of_nonneg hq
  refine ⟨?_, ?_⟩
  · simp [Number.divWhole, hd.ne', hb.ne', hround]
  · rw [Number.divWhole, if_neg hb.ne', if_neg hd.ne', binary64_eq, abs_of_nonneg hq]
    split_ifs
    · rfl
    · rw [hround]

/-- A whole number divided by a whole tempo. Zero is told apart, since the quotient of two whole
numbers takes its sign from them. -/
theorem shadows_div_int_int {d b : ℤ} (hd : 0 ≤ d) (hb : 0 < b) :
    Shadows (WholeReads d (.int b)) (Number.Tracks True) (Number.div .unlimited (.int d) (.int b))
      (Number.div .binary64 (.int d) (.int b)) := by
  rcases hd.eq_or_lt with rfl | hd
  · have hreads : WholeReads 0 (.int b) := by
      rw [WholeReads, Int.cast_zero, zero_div]
      exact overflowAt_pos
    have hzero : ∀ ρ, Number.div ρ (.int 0) (.int b) = .ok (.real (.finite 0)) := by
      intro ρ
      simp [Number.div, Number.whole?, Number.divWhole, hb.ne', hb.le, Extended.zero]
    rw [hzero, hzero]
    refine (Shadows.ok ⟨_, _, rfl, rfl, .of_clips .zero trivial⟩).of_iff ?_
    exact iff_of_true trivial hreads
  · obtain ⟨hunlimited, hbinary⟩ := divWhole_pos hd hb
    have hq : (0 : ℚ) ≤ d / b := by positivity
    refine ⟨_, .real (Rounding.binary64 (d / b)), hunlimited,
      ⟨_, _, rfl, rfl, .of_clips (.round hq) trivial⟩, fun hreads => ?_, fun hnot => ?_⟩
    · refine hbinary.trans ?_
      rw [binary64_eq, abs_of_nonneg hq, if_neg (not_le.2 hreads), if_neg (not_le.2 hreads)]
    · exact ⟨.quotientTooLarge, hbinary.trans (if_pos (not_lt.1 hnot))⟩

/-- A whole number divided by a real tempo. Only reading the whole number as a real one can fail. -/
theorem shadows_div_int_real {d : ℤ} {y : Extended} {r : ℚ} (hd : 0 ≤ d) (hr : y.toRat? = some r)
    (hpositive : 0 < r) :
    Shadows (WholeReads d (.real y)) (Number.Tracks True)
      (Number.div .unlimited (.int d) (.real y)) (Number.div .binary64 (.int d) (.real y)) := by
  have hdq : (0 : ℚ) ≤ d := Int.cast_nonneg hd
  have hdu : (Rounding.unlimited d).toRat? = some (nearest d) := by
    rw [unlimited_of_nonneg hdq]
    rfl
  have hclips := Clips.div_same hdu hr (nearest_nonneg hdq) hpositive
  have hdiv : ∀ ρ, Number.div ρ (.int d) (.real y) =
      (Number.int d).toReal ρ >>= fun z => .ok (.real (.div ρ z y)) := by
    intro ρ
    have hy : (Number.real y).toReal ρ = .ok y := rfl
    have hzero : y.isZero = false := Extended.isZero_eq_false hr hpositive.ne'
    cases hz : (Number.int d).toReal ρ with
    | error => simp [Number.div, Number.whole?, hz, hy]
    | ok => simp [Number.div, Number.whole?, hz, hy, hzero]
  rw [hdiv, hdiv, Number.toReal_int_unlimited, Number.toReal_int, abs_of_nonneg hdq]
  refine ⟨_, _, rfl, ⟨_, _, rfl, rfl, .of_clips hclips trivial⟩, fun hreads => ?_, fun hnot => ?_⟩
  · rw [if_neg (not_le.2 hreads)]
    rfl
  · rw [if_pos (not_lt.1 hnot)]
    exact ⟨.wholeTooLarge, rfl⟩

/-- A whole number divided by a tempo. -/
theorem shadows_div_int {d : ℤ} (hd : 0 ≤ d) (hbpm : bpm.IsAmount)
    (hpositive : bpm.isPositive = true) :
    Shadows (WholeReads d bpm) (Number.Tracks True) (Number.div .unlimited (.int d) bpm)
      (Number.div .binary64 (.int d) bpm) := by
  obtain ⟨r, hr, -⟩ := hbpm.nonneg
  have hrpos := (Number.isPositive_iff hr).1 hpositive
  cases bpm with
  | bool => cases hbpm.numeric
  | int b =>
    obtain rfl := Option.some.inj hr
    exact shadows_div_int_int hd (Int.cast_pos.1 hrpos)
  | real y => exact shadows_div_int_real hd hr hrpos

/-- A span between amounts, of which the first is not behind the second. -/
theorem shadows_span {p q : ℚ} (hstart : start.IsAmount) (hbeat : beat.IsAmount)
    (hp : start.toRat? = some p) (hq : beat.toRat? = some q) (h : p ≤ q) (hbpm : bpm.IsAmount)
    (hpositive : bpm.isPositive = true) :
    Shadows (SpanReads start beat bpm) (Number.Tracks (SpanFits start beat))
      (span .unlimited start beat bpm) (span .binary64 start beat bpm) := by
  rw [span_eq, span_eq]
  rcases sixtyfold_cases hstart hbeat hp hq h with ⟨d, hd, hsixty⟩ | ⟨u, x, hu, hx, hclips⟩
  · -- Two whole beats: the distance is exact, and only the division is left.
    have hreads : WholeReads d bpm ↔ SpanReads start beat bpm := by
      refine ⟨fun hreads d' hd' => ?_, fun hreads => hreads d (hsixty _)⟩
      obtain rfl : d = d' := by simpa using (hsixty .unlimited).symm.trans hd'
      exact hreads
    have hfits : SpanFits start beat ↔ True := by
      refine iff_true_intro fun x hx => ?_
      cases (hsixty .unlimited).symm.trans hx
    rw [hsixty, hsixty, hfits]
    exact (shadows_div_int hd hbpm hpositive).of_iff hreads
  · -- One beat is real: the product is a real number already, and the quotient clips.
    obtain ⟨r, hr, -⟩ := hbpm.nonneg
    have hrpos := (Number.isPositive_iff hr).1 hpositive
    obtain ⟨y, hy, hy', hyr⟩ := hbpm.exists_toReal hr
    have hypos := hbpm.nearest_pos hr hrpos
    have hreads : SpanReads start beat bpm := by
      intro d hd
      cases hu.symm.trans hd
    have hfits : SpanFits start beat ↔ u.IsBelow := by
      refine ⟨fun hfits => hfits u hu, fun hbelow v hv => ?_⟩
      obtain rfl : u = v := by simpa using hu.symm.trans hv
      exact hbelow
    have hzero : y.isZero = false := Extended.isZero_eq_false hyr hypos.ne'
    rw [hu, hx, ok_bind, ok_bind, Number.real_div, Number.real_div, hy, hy', ok_bind, ok_bind,
      hzero, hfits]
    exact (Shadows.ok ⟨_, _, rfl, rfl, Tracks.div hclips hyr hypos⟩).of_iff
      (iff_of_true trivial hreads)

/-- A span to a real number can be worked out. -/
theorem spanReads_real (hstart : start.IsAmount) (x : Extended) :
    SpanReads start (.real x) bpm := by
  intro d hd
  obtain ⟨p, hp, -⟩ := hstart.nonneg
  obtain ⟨y, -, hy, -⟩ := hstart.exists_toReal hp
  have hsixty : (Number.int 60).toReal .unlimited = .ok (.finite 60) := by decide +kernel
  rw [sixtyfold_of_real hy rfl hsixty (.inr rfl)] at hd
  cases hd

/-! ## All spans -/

/-- An offset and a span add up to an offset. -/
theorem shadows_add {fits fits' reads : Prop} {a b : Number} {x y : Except Fault Number}
    (hoffset : Number.Tracks fits a b) (h : Shadows reads (Number.Tracks fits') x y) :
    Shadows reads (Number.Tracks (fits ∧ fits')) (x >>= Number.add .unlimited a)
      (y >>= Number.add .binary64 b) := by
  obtain ⟨u, v, rfl, rfl, hoffset⟩ := hoffset
  refine h.bind_ok ?_
  rintro _ _ ⟨u', v', rfl, rfl, hspan⟩
  exact .ok ⟨_, _, rfl, rfl, hoffset.add hspan⟩

/-- The span from the start of one segment in order to the start of the next one. -/
theorem shadows_next {segment next : Segment Number} (h : Increase (segment :: next :: segments)) :
    Shadows (SpanReads segment.start next.start segment.bpm)
      (Number.Tracks (SpanFits segment.start next.start))
      (span .unlimited segment.start next.start segment.bpm)
      (span .binary64 segment.start next.start segment.bpm) := by
  have hsegment := h.start segment List.mem_cons_self
  have hnext := h.start next (List.mem_cons_of_mem _ List.mem_cons_self)
  obtain ⟨p, hp, -⟩ := hsegment.nonneg
  obtain ⟨q, hq, -⟩ := hnext.nonneg
  have hlt := (List.pairwise_cons.1 h.increasing).1 next List.mem_cons_self
  obtain ⟨hamount, hpositive⟩ := h.bpm segment List.mem_cons_self
  exact shadows_span hsegment hnext hp hq ((Number.lt_iff hp hq).1 hlt).le hamount hpositive

/-- The table of offsets goes on with that of the segments behind the first one. -/
theorem offsetsFrom_cons_cons (ρ : Rounding) (offset : Number) (segment next : Segment Number)
    (segments : List (Segment Number)) :
    offsetsFrom ρ offset (segment :: next :: segments) =
      (span ρ segment.start next.start segment.bpm >>= Number.add ρ offset) >>= fun later =>
        offsetsFrom ρ later (next :: segments) >>= fun rest => .ok (offset :: rest) := by
  rw [bind_assoc]
  rfl

/-- The starts of segments in order have times exactly if the spans between them can be worked out.
-/
theorem shadows_offsetsFrom {fits : Prop} {a b : Number} (h : Increase segments)
    (hoffset : Number.Tracks fits a b) :
    Shadows (StartsRead segments) (fun _ _ => True) (offsetsFrom .unlimited a segments)
      (offsetsFrom .binary64 b segments) := by
  induction segments generalizing fits a b with
  | nil => exact .ok trivial
  | cons segment segments ih =>
    cases segments with
    | nil => exact .ok trivial
    | cons next segments =>
      rw [offsetsFrom_cons_cons, offsetsFrom_cons_cons]
      exact (shadows_add hoffset (shadows_next h)).bind_and fun c d hlater =>
        (ih h.tail hlater).bind_ok fun _ _ _ => .ok (R := fun _ _ => True) trivial

/-- A walk along a segment and those behind it ends in the segment or goes on at the next one. -/
theorem secondsFrom_cons_cons (ρ : Rounding) (beat offset : Number) (segment next : Segment Number)
    (segments : List (Segment Number)) :
    secondsFrom ρ beat offset (segment :: next :: segments) =
      if beat.lt next.start then
        span ρ segment.start beat segment.bpm >>= Number.add ρ offset
      else (span ρ segment.start next.start segment.bpm >>= Number.add ρ offset) >>=
        fun later => secondsFrom ρ beat later (next :: segments) := by
  rw [secondsFrom, bind_assoc]

/-- On segments whose starts have times the time of a beat, a real number that is not in front of the
first of them, tracks the unlimited one as long as the spans on the way fit. -/
theorem shadows_secondsFrom {fits : Prop} {a b : Number} {x : Extended} {q : ℚ}
    (h : Increase segments) (hreads : StartsRead segments) (hbeat : (Number.real x).IsAmount)
    (hx : (Number.real x).toRat? = some q)
    (hfirst : ∀ segment ∈ segments.head?, (Number.real x).lt segment.start = false)
    (hne : segments ≠ []) (hoffset : Number.Tracks fits a b) :
    Shadows True (Number.Tracks (fits ∧ SpansFit (.real x) segments))
      (secondsFrom .unlimited (.real x) a segments)
      (secondsFrom .binary64 (.real x) b segments) := by
  induction segments generalizing fits a b with
  | nil => exact absurd rfl hne
  | cons segment segments ih =>
    have hsegment := h.start segment List.mem_cons_self
    obtain ⟨hamount, hpositive⟩ := h.bpm segment List.mem_cons_self
    obtain ⟨p, hp, -⟩ := hsegment.nonneg
    -- The beat is not in front of the segment, so the rest of the way is no negative span.
    have hle : p ≤ q := by
      rw [← not_lt, ← Number.lt_iff hx hp, hfirst segment rfl]
      exact Bool.false_ne_true
    have hlast := (shadows_add hoffset
      (shadows_span hsegment hbeat hp hx hle hamount hpositive)).of_iff
        (iff_true_intro (spanReads_real hsegment x))
    cases segments with
    | nil => exact hlast
    | cons next segments =>
      rw [secondsFrom_cons_cons, secondsFrom_cons_cons, SpansFit]
      split_ifs with hnext
      · exact hlast
      · refine ((shadows_add hoffset (shadows_next h)).bind_and fun c d hlater =>
          (ih h.tail hreads.2 (by simpa using hnext) (by simp) hlater).imp ?_).of_iff
            (iff_of_true ⟨hreads.1, trivial⟩ trivial)
        intro _ _ htracks
        rwa [and_assoc] at htracks

/-- The time of a beat, a real number of at least zero, is a finite one of at least zero exactly if
it fits. -/
theorem isTime_iff {x : Extended} (horder : InOrder segments) (hbeat : (Number.real x).IsAmount) :
    (∃ seconds, timeOf .binary64 segments (.real x) = .ok seconds ∧ seconds.IsTime) ↔
      TimeFits segments (.real x) := by
  obtain ⟨first, rest, hsegments, hzero⟩ := horder.first
  obtain ⟨q, hx, hq⟩ := hbeat.nonneg
  have hfirst : ∀ segment ∈ segments.head?, (Number.real x).lt segment.start = false := by
    rw [hsegments]
    rintro segment ⟨⟩
    rw [← Bool.not_eq_true, Number.lt_iff hx hzero]
    exact not_lt.2 hq
  have hne : segments ≠ [] := by simp [hsegments]
  have hoffset : Number.Tracks True (.real (.finite 0)) (.real (.finite 0)) :=
    ⟨_, _, rfl, rfl, .of_clips .zero trivial⟩
  have hstarts := shadows_offsetsFrom horder.toIncrease hoffset
  -- The table is worked out first, so a start without a time takes the times of all beats away.
  unfold timeOf computeOffsets
  by_cases hreads : StartsRead segments
  · obtain ⟨_, _, hu, ⟨u, v, rfl, rfl, htracks⟩, hv, -⟩ :=
      shadows_secondsFrom horder.toIncrease hreads hbeat hx hfirst hne hoffset
    obtain ⟨offsets, hoffsets⟩ := not_fails_iff.1 (hstarts.fails_iff.not.2 (not_not.2 hreads))
    have hfinite : (Number.real v).IsTime ↔ v.isFinite = true := by
      rw [Extended.isFinite_iff_toRat?]
      rcases htracks.isPoint with ⟨r, hr, hnonneg⟩ | rfl
      · exact iff_of_true ⟨r, hr, hnonneg⟩ ⟨r, hr⟩
      · exact iff_of_false (by rintro ⟨r, ⟨⟩, -⟩) (by rintro ⟨r, ⟨⟩⟩)
    rw [hoffsets, ok_bind, hv trivial]
    simp only [Except.ok.injEq, exists_eq_left', hfinite, htracks.isFinite_iff, true_and]
    refine ⟨fun ⟨hspans, hbelow⟩ => ⟨hreads, hspans, _, hu, hbelow⟩, fun hfits => ⟨hfits.spans, ?_⟩⟩
    obtain ⟨seconds, hseconds, hbelow⟩ := hfits.below
    obtain rfl := Except.ok.inj (hu.symm.trans hseconds)
    exact hbelow
  · obtain ⟨fault, hfault⟩ := hstarts.fails_iff.2 hreads
    rw [hfault, error_bind]
    exact iff_of_false (by rintro ⟨seconds, ⟨⟩, -⟩) fun hfits => hreads hfits.starts

end TempoMap

end CueSheet
