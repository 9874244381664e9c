import CueSheet.Proofs.Cue.Seconds
import CueSheet.Proofs.Document.Override
import CueSheet.Proofs.Document.Sections
import CueSheet.Proofs.Timeline.Beside

/-!
# Seconds at two tempos

If no cue of a document says anything in beats and no header declares tempo changes, then the
document has its events at the same seconds under every override of the tempo
(`Document.scheduleAlone_inTempo`). Times become beats that are scaled like the tempo; sums,
multiples and the order of beats keep such a scale (`Timeline.keeps_scales`), and a constant tempo
map divides by the tempo again (`TempoMap.answerOf_secondsAt_constant`). All arithmetic is exact
here.
-/

namespace CueSheet

open Validation (beatKeys)

/-! ## Events at another tempo -/

/-- A stored parameter with so many times the beats. -/
def Stored.scaled (r : ℚ) (param : String × Value) : String × Value :=
  match param with
  | (key, .number x) => (key, .number (if key ∈ beatKeys then x.scaled r else x))
  | param => param

/-- A detail of an event, with so many times the beats in the parameters of a cue. -/
def Event.scaledDetail (r : ℚ) (detail : String × Value) : String × Value :=
  match detail with
  | (name, .record params) =>
    (name, .record (if name = "params" then params.map (Stored.scaled r) else params))
  | detail => detail

/-- The event at a tempo so many times as fast: it has so many times the beats, and the same
seconds. -/
def Event.inTempo (r : ℚ) (event : Event) : Event :=
  ⟨event.beats.scaled r, event.seconds, event.kind, event.payload.map (Event.scaledDetail r)⟩

variable {r : ℚ}

/-- Of two parameters on a scale, the second one is the first one scaled. -/
theorem Stored.Scales.eq_scaled {param param' : String × Value} (h : Stored.Scales r param param') :
    param' = Stored.scaled r param := by
  obtain ⟨key, value⟩ := param
  obtain ⟨key', value'⟩ := param'
  obtain rfl : key = key' := h.key
  by_cases hbeats : key ∈ beatKeys
  · obtain ⟨x, x', rfl, rfl, hx⟩ := h.beats hbeats
    rw [Stored.scaled, if_pos hbeats, hx.eq_scaled]
  · obtain rfl : value = value' := h.other hbeats
    cases value <;> simp [Stored.scaled, hbeats]

/-- What happens in two cues on a scale has the same kind, and its details are scaled. -/
theorem Happening.Beside.details_scaled {happening happening' : Happening}
    (h : Happening.Beside (Cue.Beside (Stored.Scales r)) Eq happening happening') :
    happening'.kind = happening.kind ∧
      happening'.details = happening.details.map (Event.scaledDetail r) := by
  cases h with
  | sectionStart _ _ hline | performance _ _ hline | lyric _ _ hline =>
    subst hline
    exact ⟨rfl, rfl⟩
  | @cue _ repetition cue cue' _ _ hcue hline =>
    subst hline
    obtain ⟨name, category, params, args⟩ := cue
    obtain ⟨name', category', params', args'⟩ := cue'
    obtain ⟨rfl, rfl, hparams, rfl⟩ := hcue
    obtain rfl : params' = params.map (Stored.scaled r) :=
      eq_map_of_forall₂ (hparams.imp fun _ _ h => h.eq_scaled)
    refine ⟨rfl, ?_⟩
    cases category <;> cases repetition <;> rfl

/-- Of two events on a scale, the second one is the first one at the other tempo. -/
theorem Timeline.eq_inTempo_of_eventsBeside {event event' : Event}
    (h : EventsBeside (Number.Scales r) (Cue.Beside (Stored.Scales r)) Eq Eq event event') :
    event' = event.inTempo r := by
  obtain ⟨entry, entry', hentry, seconds, _, rfl, rfl, rfl⟩ := h
  obtain ⟨hkind, hdetails⟩ := hentry.happening.details_scaled
  unfold eventAt Event.inTempo
  rw [hentry.beat.eq_scaled, hkind, hdetails, List.map_append, hentry.order]
  rfl

/-! ## Beats on a scale -/

namespace Timeline

variable {E : Fault → Fault → Prop}

/-- The operations of a walk keep a scale. -/
theorem keeps_scales (hr : 0 < r) : Keeps .exact E (Number.Scales r) where
  zero := ⟨0, le_rfl, rfl, by rw [zero_mul]⟩
  isPositive_eq := by
    rintro _ _ ⟨a, -, rfl, rfl⟩
    rw [Bool.eq_iff_iff, Number.isPositive_iff rfl, Number.isPositive_iff rfl]
    exact (mul_pos_iff_of_pos_right hr).symm
  lt_eq := by
    rintro _ _ _ _ ⟨a, -, rfl, rfl⟩ ⟨b, -, rfl, rfl⟩
    rw [Bool.eq_iff_iff, Number.lt_iff rfl rfl, Number.lt_iff rfl rfl]
    exact (mul_lt_mul_iff_of_pos_right hr).symm
  add := by
    rintro _ _ _ _ ⟨a, ha, rfl, rfl⟩ ⟨b, hb, rfl, rfl⟩
    exact .ok ⟨a + b, add_nonneg ha hb, rfl, by rw [add_mul]; rfl⟩
  times := by
    rintro n _ _ ⟨a, ha, rfl, rfl⟩
    rw [Number.natCast_mul_exact n ha, Number.natCast_mul_exact n (mul_nonneg ha hr.le)]
    exact .ok ⟨n * a, mul_nonneg (Nat.cast_nonneg n) ha, rfl, by rw [mul_assoc]⟩
  mul := by
    rintro n _ _ ⟨a, ha, rfl, rfl⟩
    rw [Number.mul_natCast_exact n ha, Number.mul_natCast_exact n (mul_nonneg ha hr.le)]
    exact .ok ⟨a * n, mul_nonneg ha (Nat.cast_nonneg n), rfl, by rw [mul_right_comm]⟩

/-- A real number of at least zero can be used as a number of beats. -/
theorem usable?_finite (ρ : Rounding) {b : ℚ} (hb : 0 ≤ b) :
    usable? ρ (.number (.real (.finite b))) = .ok (some (.real (.finite b))) := by
  have hnegative : (Number.real (.finite b)).isNegative = false := by
    rw [← Bool.not_eq_true, Number.isNegative_iff rfl]
    exact not_lt.2 hb
  unfold usable?
  dsimp only
  rw [hnegative]
  rfl

variable {params params' : Params}

/-- Parameters on a scale hold values on this scale under each key. -/
theorem lookup_scales (h : List.Forall₂ (Stored.Scales r) params params') (key : String) :
    Option.Rel (fun v v' => Stored.Scales r (key, v) (key, v')) (params.lookup key)
      (params'.lookup key) := by
  refine lookup_rel (R := fun key v v' => Stored.Scales r (key, v) (key, v')) (h.imp ?_) key
  rintro ⟨key, v⟩ ⟨key', v'⟩ h
  obtain rfl : key = key' := h.key
  exact ⟨rfl, h⟩

/-- Beats on a scale can be used together. -/
theorem usableParam?_agree (hr : 0 < r) (h : List.Forall₂ (Stored.Scales r) params params')
    {key : String} (hkey : key ∈ beatKeys) :
    Agree E (Option.Rel (Number.Scales r)) (usableParam? .exact params key)
      (usableParam? .exact params' key) := by
  have hlookup := lookup_scales h key
  unfold usableParam?
  generalize params.lookup key = value?, params'.lookup key = value?' at hlookup ⊢
  cases hlookup with
  | none => exact .ok .none
  | some hvalue =>
    obtain ⟨_, _, rfl, rfl, b, hb, rfl, rfl⟩ := hvalue.beats hkey
    dsimp only
    rw [usable?_finite .exact hb, usable?_finite .exact (mul_nonneg hb hr.le)]
    exact .ok (.some ⟨b, hb, rfl, rfl⟩)

/-- Parameters on a scale say the same number of repeats. -/
theorem repeats_eq (limit : ℕ) (h : List.Forall₂ (Stored.Scales r) params params') :
    repeats limit params = repeats limit params' := by
  have hlookup := lookup_scales h "repeat"
  unfold repeats
  generalize params.lookup "repeat" = value?, params'.lookup "repeat" = value?' at hlookup ⊢
  cases hlookup with
  | none => rfl
  | some hvalue =>
    have hkey : "repeat" ∉ beatKeys := by decide
    obtain rfl := hvalue.other hkey
    rfl

/-- Cues on a scale have times on this scale, and happen equally often. -/
theorem timesBeside_scales (hr : 0 < r) (limit : ℕ) {cue cue' : Cue}
    (h : Cue.Beside (Stored.Scales r) cue cue') :
    TimesBeside .exact E (Number.Scales r) limit cue cue' where
  duration := usableParam?_agree hr h.params (by decide)
  start := usableParam?_agree hr h.params (by decide)
  repeats := repeats_eq limit h.params

end Timeline

/-! ## The clock of a constant tempo -/

namespace TempoMap

variable {bpm : Number} {P : ℚ}

/-- A tempo above zero makes a tempo map. -/
theorem isValid_constant (hbpm : bpm.toRat? = some P) (hP : 0 < P) :
    IsValid .exact [⟨.int 0, bpm⟩] where
  first := ⟨_, rfl, rfl⟩
  checked := by
    rw [List.forall_mem_singleton]
    refine ⟨rfl, (Number.isPositive_iff hbpm).2 hP, ?_⟩
    rw [Number.checkFinite, Number.toReal_exact hbpm hP]
    rfl
  increasing := List.pairwise_singleton ..

/-- Without tempo changes, a song is timed against its own tempo. -/
theorem ofSong_constant {song : Song} (hsong : song.bpm = .number bpm)
    (hchanges : song.tempoChanges = []) (hbpm : bpm.toRat? = some P) (hP : 0 < P) :
    ofSong .exact song = .ok (fresh [⟨.int 0, bpm⟩]) := by
  refine ofSegments_eq_ok_iff.2 ⟨_, ?_, isValid_constant hbpm hP, rfl⟩
  rw [Song.segments, Song.declaresStart, hchanges, hsong]
  rfl

/-- From beat zero to a beat, the time is a quotient by the tempo. -/
theorem span_exact (hbpm : bpm.toRat? = some P) (hP : 0 < P) {b : ℚ} (hb : 0 ≤ b) :
    span .exact (.int 0) (.real (.finite b)) bpm = .ok (.real (.finite (b * 60 / P))) := by
  have hsub : Number.sub .exact (.real (.finite b)) (.int 0) = .ok (.real (.finite b)) :=
    congrArg (fun x => Except.ok (Number.real (.finite x))) (add_zero b)
  have hsixty : Number.mul .exact (.real (.finite b)) (.int 60) = .ok (.real (.finite (b * 60))) :=
    Number.real_mul_exact hb rfl (by norm_num)
  rw [span, hsub, ok_bind, hsixty, ok_bind]
  exact Number.real_div_exact (by positivity) (Number.toReal_exact hbpm hP) hP

/-- At a constant tempo, the time of a beat is a quotient by the tempo. -/
theorem answerOf_secondsAt_constant (hbpm : bpm.toRat? = some P) (hP : 0 < P) {b : ℚ} (hb : 0 ≤ b) :
    answerOf (secondsAt .exact (.real (.finite b))) (fresh [⟨.int 0, bpm⟩]) =
      .ok (.real (.finite (b * 60 / P))) := by
  rw [Timeline.answerOf_secondsAt (isValid_constant hbpm hP).ascending ⟨b, rfl, hb⟩]
  unfold timeOf computeOffsets offsetsFrom secondsFrom
  rw [pure_bind, span_exact hbpm hP hb, ok_bind]
  exact congrArg (fun x => Except.ok (Number.real (.finite x))) (zero_add _)

/-- Beats that are scaled like the tempo have the same seconds. -/
theorem answerOf_secondsAt_agree {E : Fault → Fault → Prop} {p q : Number} {Q : ℚ}
    (hp : p.toRat? = some P) (hP : 0 < P) (hq : q.toRat? = some Q) (hQ : 0 < Q)
    {beat beat' : Number} (h : beat.Scales (Q / P) beat') :
    Agree E Eq (answerOf (secondsAt .exact beat) (fresh [⟨.int 0, p⟩]))
      (answerOf (secondsAt .exact beat') (fresh [⟨.int 0, q⟩])) := by
  obtain ⟨b, hb, rfl, rfl⟩ := h
  rw [answerOf_secondsAt_constant hp hP hb, answerOf_secondsAt_constant hq hQ (by positivity)]
  refine .ok ?_
  congr 2
  field_simp

end TempoMap

/-! ## Documents -/

/-- Without a header of tempo changes there are none. -/
theorem Settings.tempoChanges_of_resolve {ρ : Rounding} {config : Config} {headers : Headers}
    {settings : Settings} {diagnostics : List Diagnostic}
    (h : resolve ρ config headers = .ok (settings, diagnostics))
    (hnone : headers.get? .tempoMap = none) : settings.tempoChanges = [] := by
  obtain ⟨hchanges, -⟩ := resolvesTo_of_resolve h
  cases hchanges with
  | absent => rfl
  | present hsome => exact absurd (hnone.symm.trans hsome) nofun

namespace Document

/-- Whether no cue of a text says anything in beats. -/
def isFreeOfBeats (text : List Char) : Bool :=
  (linesOf text).all fun
    | .cue body => (CueBody.head (Token.split body)).rest.all CueBody.isFreeOfBeats
    | _ => true

variable {config : Config} {p q : Tempo} {P Q : ℚ} {text : List Char} {document : Document}

/-- A text that says nothing in beats is read the same at two tempos, but for the beats that are
stored. -/
theorem read_scales (config : Config) (hp : p.val.toRat? = some P) (hP : 0 < P)
    (hq : q.val.toRat? = some Q) (hQ : 0 < Q) (hfree : isFreeOfBeats text = true) :
    Agree Eq
      (Document.Beside (Cue.Beside (Stored.Scales (Q / P))) p.val.normalize q.val.normalize)
      (read .exact (config.withBpm p) text) (read .exact (config.withBpm q) text) := by
  rw [← Number.toRat?_normalize] at hp hq
  refine read_agree_override fun line hline body hbody beatsPerBar => ?_
  subst hbody
  exact CueBody.read_scales hp hP hq hQ (List.all_eq_true.1 hfree _ hline)

/-- Durations in seconds keep their seconds at any tempo. Let no cue of a text say anything in beats
and no header declare tempo changes. If the text can be read under one override of the tempo, then
it can under another one, and both songs have the same events at the same seconds, but for their
beats and for the beats in the parameters of cues, which are scaled like the tempo. -/
theorem scheduleAlone_inTempo (limit : ℕ) (hp : p.val.toRat? = some P) (hq : q.val.toRat? = some Q)
    (hchanges : (headersOf (numberedLines text)).get? .tempoMap = none)
    (hfree : isFreeOfBeats text = true)
    (hread : read .exact (config.withBpm p) text = .ok document) :
    ∃ document' events, read .exact (config.withBpm q) text = .ok document' ∧
      Timeline.scheduleAlone .exact limit document.song = .ok events ∧
      Timeline.scheduleAlone .exact limit document'.song =
        .ok (events.map (Event.inTempo (Q / P))) := by
  have hpositive {tempo : Tempo} {x : ℚ} (hx : tempo.val.toRat? = some x) : 0 < x :=
    (Number.isPositive_iff hx).1 (Number.isPositive_of_isTempo tempo.2)
  have hP := hpositive hp
  have hQ := hpositive hq
  obtain ⟨document', hread', hbeside⟩ := (read_scales config hp hP hq hQ hfree).exists_ok hread
  rw [← Number.toRat?_normalize] at hp hq
  -- Both songs have a constant tempo.
  obtain ⟨settings, _, hresolve, hsong⟩ := settings_of_read hread
  have hnone : document.song.tempoChanges = [] := by
    rw [hsong]
    exact List.map_eq_nil_iff.2 (Settings.tempoChanges_of_resolve hresolve hchanges)
  have hmap := TempoMap.ofSong_constant hbeside.bpm hnone hp hP
  have hbpm' : document'.song.bpm = .number q.val.normalize := by rw [hbeside.song]
  have hnone' : document'.song.tempoChanges = [] := by
    rw [hbeside.song]
    exact hnone
  have hmap' := TempoMap.ofSong_constant hbpm' hnone' hq hQ
  have hr : 0 < Q / P := by positivity
  obtain ⟨events, events', hevents, hevents', hrelated⟩ :=
    (Timeline.schedule_agree (Timeline.keeps_scales hr)
      (fun _ _ h => Timeline.timesBeside_scales hr limit h)
      (TempoMap.isOf_fresh ..) (TempoMap.isOf_fresh ..)
      (fun _ _ => TempoMap.answerOf_secondsAt_agree hp hP hq hQ) hbeside.sections).exists_both
  obtain rfl := eq_map_of_forall₂ (hrelated.imp fun _ _ => Timeline.eq_inTempo_of_eventsBeside)
  refine ⟨document', events, hread', ?_, ?_⟩
  · rw [Timeline.scheduleAlone, hmap, ok_bind, hevents]
  · rw [Timeline.scheduleAlone, hmap', ok_bind, hevents']

/-- A text with times in seconds and in milliseconds, one of them of a cue that repeats. -/
def timedText : List Char :=
  "[Verse]\n<hit duration=1.5s repeat=3 fade_in=250ms>\nla\n<light start=2 duration=4S>\n".toList

/-- A tempo below the standard one. -/
def slowBpm : Tempo := ⟨.int 90, by decide +kernel⟩

/-- The text names no beats, so at the slower tempo its events are those of the standard tempo, on
beats scaled by three quarters. -/
theorem scheduleAlone_inTempo_timedText :
    standardBpm.val.toRat? = some 120 ∧ slowBpm.val.toRat? = some 90 ∧
      (headersOf (numberedLines timedText)).get? .tempoMap = none ∧ isFreeOfBeats timedText = true ∧
      ∃ document document' events,
        read .exact (Config.standard.withBpm standardBpm) timedText = .ok document ∧
        document.song.sections.map (·.items.length) = [3] ∧
        read .exact (Config.standard.withBpm slowBpm) timedText = .ok document' ∧
        Timeline.scheduleAlone .exact 8 document.song = .ok events ∧
        Timeline.scheduleAlone .exact 8 document'.song =
          .ok (events.map (Event.inTempo (90 / 120))) := by
  have hchanges : (headersOf (numberedLines timedText)).get? .tempoMap = none := by decide +kernel
  have hfree : isFreeOfBeats timedText = true := by decide +kernel
  have hyields : yields (read .exact (Config.standard.withBpm standardBpm) timedText)
      (fun document => document.song.sections.map (·.items.length) == [3]) = true := by
    decide +kernel
  obtain ⟨document, hread, hcheck⟩ := exists_of_yields hyields
  obtain ⟨document', events, hread', hevents, hevents'⟩ :=
    scheduleAlone_inTempo (p := standardBpm) (q := slowBpm) 8 rfl rfl hchanges hfree hread
  exact ⟨rfl, rfl, hchanges, hfree, document, document', events, hread, beq_iff_eq.1 hcheck, hread',
    hevents, hevents'⟩

end Document

end CueSheet
