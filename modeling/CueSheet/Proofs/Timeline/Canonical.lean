import CueSheet.Proofs.Timeline.Beside
import CueSheet.Proofs.Timeline.Sorted
import CueSheet.Proofs.Value.Alike

/-!
# The canonical form of a song determines its events

Two songs with one canonical form have the same events up to the numbers of lines
(`Timeline.scheduleAlone_alike_of_toIr`). The canonical form names the segments in effect, so the
tempo maps of both songs are the same or fail alike, and it keeps all of a cue that a walk reads.
What a cue is asked for are the values of single parameters, so their order does not matter either.
-/

namespace CueSheet

/-- Two faults are equal, up to the start that a conflict tells. -/
inductive Fault.Alike : Fault → Fault → Prop where
  /-- A fault is like itself. -/
  | refl (fault : Fault) : Alike fault fault
  /-- The conflicts have the same reason, and the starts at fault are alike. -/
  | conflict (why : Conflict) {start start' : Value} (h : start.Alike start') :
    Alike (.conflict why (some start)) (.conflict why (some start'))

variable {α : Type} {ρ : Rounding}

/-! ## Tempo maps -/

/-- What is done on equal inputs ends alike. -/
theorem Agree.same (x : Except Fault α) : Agree Fault.Alike Eq x x :=
  (Agree.refl fun _ _ => rfl).imp (fun _ _ h => h ▸ .refl _) fun _ _ => id

/-- Alike values are the same quantity, or none of one kind. -/
theorem toNumber_alike (comparison : Char) {v w : Value} (h : v.Alike w) :
    Agree Fault.Alike Eq (v.toNumber comparison) (w.toNumber comparison) := by
  cases h with
  | refl => exact .same _
  | list | record => exact .fault (.refl _)

/-- The tempos of alike segments are checked alike. -/
theorem checkTempo_alike {segment segment' : Segment Value} (h : segment.Alike segment') :
    Agree Fault.Alike Eq (checkTempo ρ segment) (checkTempo ρ segment') := by
  refine (toNumber_alike '>' h.bpm).bind_same fun bpm _ => ?_
  -- A tempo that is refused is shown, and the conflict is at the start of the segment.
  have hrefused (next next' : Unit → Except Fault Number) : Agree Fault.Alike Eq
      (do next (← conflictAt segment.start (.tempo (← bpm.shown))))
      (do next' (← conflictAt segment'.start (.tempo (← bpm.shown)))) :=
    (Agree.same bpm.shown).bind_same fun _ _ => .fault (.conflict _ h.start)
  split_ifs
  · exact hrefused _ _
  · refine (Agree.same (bpm.checkFinite ρ)).bind_same fun isFinite _ => ?_
    dsimp only
    split_ifs
    · exact hrefused _ _
    · exact .same _

/-- Alike starts are checked alike. -/
theorem checkStart_alike {start start' : Value} (h : start.Alike start') :
    Agree Fault.Alike Eq (checkStart ρ start) (checkStart ρ start') := by
  cases h with
  | refl => exact .same _
  | list | record => exact .fault (.refl _)

/-- Alike segments are checked alike. -/
theorem checkFrom_alike {given given' : List (Segment Value)}
    (h : List.Forall₂ Segment.Alike given given') (previous : Option Number) :
    Agree Fault.Alike Eq (checkFrom ρ previous given) (checkFrom ρ previous given') := by
  induction h generalizing previous with
  | nil => exact .same _
  | cons hfirst _ ih =>
    refine (checkTempo_alike hfirst).bind_same fun bpm _ => ?_
    refine (checkStart_alike hfirst.start).bind_same fun start _ => ?_
    refine (Agree.same (checkPlace previous start)).bind_same fun _ _ => ?_
    exact (ih (some start)).bind_same fun segments _ => .same _

/-- Alike segments make the same tempo map, or fail alike. -/
theorem ofSegments_alike {given given' : List (Segment Value)}
    (h : List.Forall₂ Segment.Alike given given') :
    Agree Fault.Alike Eq (TempoMap.ofSegments ρ given) (TempoMap.ofSegments ρ given') := by
  cases h with
  | nil => exact .same _
  | cons hfirst hrest =>
    rw [TempoMap.ofSegments_eq (List.cons_ne_nil _ _),
      TempoMap.ofSegments_eq (List.cons_ne_nil _ _)]
    exact (checkFrom_alike (.cons hfirst hrest) none).bind_same fun _ _ => .same _

namespace Timeline

/-! ## Cues -/

/-- A walk keeps equality of beats. -/
theorem keeps_eq (ρ : Rounding) : Keeps ρ Eq Eq where
  zero := rfl
  isPositive_eq _ _ h := congrArg Number.isPositive h
  lt_eq _ _ _ _ h h' := congrArg₂ Number.lt h h'
  add _ _ _ _ h h' := by
    subst h h'
    exact .refl fun _ _ => rfl
  times _ _ _ h := by
    subst h
    exact .refl fun _ _ => rfl
  mul _ _ _ h := by
    subst h
    exact .refl fun _ _ => rfl

/-- Alike parameters can be used as the same numbers of beats. -/
theorem usableParam?_alike {params params' : Params} {key : String}
    (h : Option.Rel Value.Alike (params.lookup key) (params'.lookup key)) :
    usableParam? ρ params key = usableParam? ρ params' key := by
  unfold usableParam?
  generalize params.lookup key = value at h ⊢
  generalize params'.lookup key = value' at h ⊢
  cases h with
  | none => rfl
  | some h => cases h <;> rfl

/-- Alike parameters ask for the same number of repeats. -/
theorem repeats_alike {params params' : Params} (limit : ℕ)
    (h : Option.Rel Value.Alike (params.lookup "repeat") (params'.lookup "repeat")) :
    repeats limit params = repeats limit params' := by
  unfold repeats
  generalize params.lookup "repeat" = value at h ⊢
  generalize params'.lookup "repeat" = value' at h ⊢
  cases h with
  | none => rfl
  | some h => cases h <;> rfl

/-- Alike cues have the same times. -/
theorem timesBeside_of_alike (limit : ℕ) {cue cue' : Cue} (h : cue.Alike cue') :
    TimesBeside ρ Eq Eq limit cue cue' := by
  refine ⟨?_, ?_, repeats_alike limit (h.params _)⟩
  · rw [usableParam?_alike (h.params _)]
    exact agree_usable_refl
  · rw [usableParam?_alike (h.params _)]
    exact agree_usable_refl

/-! ## Events -/

/-- The details of an event without the number of its line. -/
def withoutLine (payload : List (String × Value)) : List (String × Value) :=
  payload.filter fun detail => detail.1 ≠ "line"

end Timeline

open Timeline (withoutLine)

/-- Two events are equal but for the numbers of lines, and for the order of parameters. -/
structure Event.Alike (event event' : Event) : Prop where
  /-- The beats are the same. -/
  beats : event.beats = event'.beats
  /-- The times are the same. -/
  seconds : event.seconds = event'.seconds
  /-- The kinds are the same. -/
  kind : event.kind = event'.kind
  /-- The details are alike. -/
  payload : Value.Alike (.record (withoutLine event.payload)) (.record (withoutLine event'.payload))

namespace Timeline

/-- Entries beside each other have alike events at the same time. -/
theorem eventAt_alike {entry entry' : Entry}
    (h : Entry.Beside Eq Cue.Alike (fun _ _ => True) entry entry') (seconds : Number) :
    (eventAt entry seconds).Alike (eventAt entry' seconds) := by
  obtain ⟨beat, order, happening⟩ := entry
  obtain ⟨beat', order', happening'⟩ := entry'
  obtain ⟨hbeat, horder, hhappening⟩ := h
  dsimp only at hbeat horder hhappening
  subst hbeat horder
  cases hhappening with
  | sectionStart | performance | lyric => exact ⟨rfl, rfl, rfl, .refl _⟩
  | @cue sectionId repetition c c' line line' hcue =>
    obtain ⟨name, category, params, args⟩ := c
    obtain ⟨name', category', params', args'⟩ := c'
    obtain ⟨hname, hcategory, hparams, hargs⟩ := hcue
    dsimp only at hname hcategory hparams hargs
    subst hname hcategory hargs
    refine ⟨rfl, rfl, rfl, .of_members ?_⟩
    -- Of the details behind the line only the parameters differ.
    exact .cons ⟨rfl, .refl _⟩ (.cons ⟨rfl, .refl _⟩ (.cons ⟨rfl, .refl _⟩ (.cons
      ⟨rfl, .record hparams⟩ (List.forall₂_same.2 fun _ _ => ⟨rfl, .refl _⟩))))

/-- The canonical form of a song determines its events. Songs whose canonical forms are alike can be
scheduled, each against its own tempo map, with the same results or with the same faults: the events
are equal but for the numbers of lines and the order of parameters. -/
theorem scheduleAlone_alike_of_toIr (ρ : Rounding) (limit : ℕ) {song song' : Song} {ir ir' : Value}
    (hir : song.toIr = .ok ir) (hir' : song'.toIr = .ok ir') (h : ir.Alike ir') :
    Agree Fault.Alike (List.Forall₂ Event.Alike) (scheduleAlone ρ limit song)
      (scheduleAlone ρ limit song') := by
  obtain ⟨hsegments, hsections⟩ := Song.alike_of_toIr hir hir' h
  refine (ofSegments_alike hsegments).bind_same fun map hmap => ?_
  obtain ⟨segments, -, -, rfl⟩ := TempoMap.ofSegments_eq_ok_iff.1 hmap
  have hof := TempoMap.isOf_fresh ρ segments
  refine (schedule_agree (keeps_eq ρ) (fun _ _ => timesBeside_of_alike limit) hof hof
    (S := Eq) ?_ hsections).imp ?_ ?_
  · rintro beat _ rfl
    exact .refl fun _ _ => rfl
  · rintro fault _ rfl
    exact .refl fault
  · refine fun events events' hevents => hevents.imp ?_
    rintro _ _ ⟨entry, entry', hentry, seconds, _, rfl, rfl, rfl⟩
    exact eventAt_alike hentry seconds

/-- A song of one section with a lyric and a cue that repeats. -/
def drummed (tempoChanges : List (Segment Value)) (line : ℤ) (params : Params) : Song where
  title := none
  bpm := .int 120
  beatsPerBar := .int 4
  key := none
  version := defaultVersion
  timeSignature := none
  instruments := []
  tempoChanges
  sections := [⟨"verse", "Verse",
    [.lyric "la" (line + 1), .cue ⟨"drum", none, params, []⟩ (line + 2)], line⟩]

/-- The parameters of the cue. -/
def drumParams : Params := [("duration_beats", .int 2), ("repeat", .int 2)]

/-- The tempo of one of two songs is declared; their lines and the order of their parameters differ.
-/
theorem scheduleAlone_alike_of_toIr_drummed : ∃ ir ir',
    (drummed [] 1 drumParams).toIr = .ok ir ∧
      (drummed [⟨.int 0, .int 120⟩] 7 drumParams.reverse).toIr = .ok ir' ∧ ir ≠ ir' ∧ ir.Alike ir' ∧
      ∃ events events', scheduleAlone .binary64 8 (drummed [] 1 drumParams) = .ok events ∧
        scheduleAlone .binary64 8 (drummed [⟨.int 0, .int 120⟩] 7 drumParams.reverse) =
          .ok events' ∧ List.Forall₂ Event.Alike events events' := by
  have hparams : Value.Alike (.record drumParams) (.record drumParams.reverse) := by
    refine .record fun name => ?_
    by_cases hduration : name = "duration_beats"
    · subst hduration
      exact .some (.refl _)
    · by_cases hrepeat : name = "repeat"
      · subst hrepeat
        exact .some (.refl _)
      · have hnone (params : Params) (h : ∀ param ∈ params, param ∈ drumParams) :
            params.lookup name = none := by
          refine List.lookup_eq_none_iff.2 fun param hparam => ?_
          have := h param hparam
          simp only [drumParams, List.mem_cons, List.not_mem_nil, or_false] at this
          rcases this with rfl | rfl <;> simpa
        rw [hnone _ fun _ => id, hnone _ fun _ => List.mem_reverse.1]
        exact .none
  have hcue : Value.Alike
      (.record [("type", .text "cue"), ("name", .text "drum"), ("category", .null),
        ("params", .record drumParams), ("args", .list [])])
      (.record [("type", .text "cue"), ("name", .text "drum"), ("category", .null),
        ("params", .record drumParams.reverse), ("args", .list [])]) :=
    .of_members (.cons ⟨rfl, .refl _⟩ (.cons ⟨rfl, .refl _⟩ (.cons ⟨rfl, .refl _⟩
      (.cons ⟨rfl, hparams⟩ (.cons ⟨rfl, .refl _⟩ .nil)))))
  have hsection : Value.Alike
      (.record [("id", .text "verse"), ("label", .text "Verse"), ("items", .list
        [.record [("type", .text "lyric"), ("text", .text "la")],
          .record [("type", .text "cue"), ("name", .text "drum"), ("category", .null),
            ("params", .record drumParams), ("args", .list [])]])])
      (.record [("id", .text "verse"), ("label", .text "Verse"), ("items", .list
        [.record [("type", .text "lyric"), ("text", .text "la")],
          .record [("type", .text "cue"), ("name", .text "drum"), ("category", .null),
            ("params", .record drumParams.reverse), ("args", .list [])]])]) :=
    .of_members (.cons ⟨rfl, .refl _⟩ (.cons ⟨rfl, .refl _⟩
      (.cons ⟨rfl, .list (.cons (.refl _) (.cons hcue .nil))⟩ .nil)))
  obtain ⟨ir, hir⟩ : ∃ ir, (drummed [] 1 drumParams).toIr = .ok ir := ⟨_, rfl⟩
  obtain ⟨ir', hir'⟩ : ∃ ir', (drummed [⟨.int 0, .int 120⟩] 7 drumParams.reverse).toIr = .ok ir' :=
    ⟨_, rfl⟩
  have halike : ir.Alike ir' := by
    obtain rfl := Except.ok.inj hir
    obtain rfl := Except.ok.inj hir'
    exact .of_members (.cons ⟨rfl, .refl _⟩ (.cons ⟨rfl, .refl _⟩ (.cons ⟨rfl, .refl _⟩
      (.cons ⟨rfl, .refl _⟩ (.cons ⟨rfl, .refl _⟩ (.cons ⟨rfl, .refl _⟩ (.cons ⟨rfl, .refl _⟩
        (.cons ⟨rfl, .refl _⟩ (.cons ⟨rfl, .list (.cons hsection .nil)⟩ .nil)))))))))
  have hne : ir ≠ ir' := by
    rintro rfl
    exact absurd (hir.trans hir'.symm) (by decide +kernel)
  obtain ⟨events, hevents⟩ : ∃ events,
      scheduleAlone .binary64 8 (drummed [] 1 drumParams) = .ok events :=
    exists_of_hasEvents (by decide +kernel)
  obtain ⟨events', hevents', hsame⟩ :=
    (scheduleAlone_alike_of_toIr .binary64 8 hir hir' halike).exists_ok hevents
  exact ⟨ir, ir', hir, hir', hne, halike, events, events', hevents, hevents', hsame⟩

end Timeline

end CueSheet
