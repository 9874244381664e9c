import CueSheet.Proofs.Agree
import CueSheet.Proofs.Lists
import CueSheet.Proofs.Song
import CueSheet.Proofs.Timeline.Schedule

/-!
# Schedules side by side

Two songs whose cues have related times are walked through in step: both walks fail, or the same
happens in both on related beats (`Timeline.walk_agree`). The relation between beats is any that the
operations of the walk keep (`Timeline.Keeps`), and so is the one between faults; if no two faults
are related, nothing fails. Since the beats are in the same order too, both walks are sorted in the
same way, and if each tempo map answers related beats with related times, the events of both songs
are related one by one (`Timeline.schedule_agree`).
-/

namespace CueSheet

/-- The same happens twice, up to cues and lines. -/
inductive Happening.Beside (C : Cue → Cue → Prop) (L : ℤ → ℤ → Prop) :
    Happening → Happening → Prop where
  /-- The same section starts. -/
  | sectionStart (id label : String) {line line' : ℤ} (hline : L line line') :
    Beside C L (.sectionStart id label line) (.sectionStart id label line')
  /-- The same direction is given. -/
  | performance (sectionId text : String) {line line' : ℤ} (hline : L line line') :
    Beside C L (.performance sectionId text line) (.performance sectionId text line')
  /-- The same lyric is sung. -/
  | lyric (sectionId text : String) {line line' : ℤ} (hline : L line line') :
    Beside C L (.lyric sectionId text line) (.lyric sectionId text line')
  /-- A cue is triggered as the same repetition. -/
  | cue (sectionId : String) (repetition : Option ℕ) {cue cue' : Cue} {line line' : ℤ}
    (hcue : C cue cue') (hline : L line line') :
    Beside C L (.cue sectionId cue line repetition) (.cue sectionId cue' line' repetition)

namespace Timeline

/-- The operations of a walk keep a relation between beats. -/
structure Keeps (ρ : Rounding) (E : Fault → Fault → Prop) (B : Number → Number → Prop) : Prop where
  /-- The start is related to itself. -/
  zero : B (.real (.finite 0)) (.real (.finite 0))
  /-- Related beats are above zero together. -/
  isPositive_eq : ∀ x x', B x x' → x.isPositive = x'.isPositive
  /-- Related beats are in the same order. -/
  lt_eq : ∀ x x' y y', B x x' → B y y' → x.lt y = x'.lt y'
  /-- Sums of related beats are related. -/
  add : ∀ x x' y y', B x x' → B y y' → Agree E B (Number.add ρ x y) (Number.add ρ x' y')
  /-- Multiples of related beats are related. -/
  times : ∀ (n : ℕ) x x', B x x' →
    Agree E B (Number.mul ρ (.int n) x) (Number.mul ρ (.int n) x')
  /-- Related beats that are taken several times are related. -/
  mul : ∀ (n : ℕ) x x', B x x' →
    Agree E B (Number.mul ρ x (.int n)) (Number.mul ρ x' (.int n))

/-- Two cues have related times, and happen equally often. -/
structure TimesBeside (ρ : Rounding) (E : Fault → Fault → Prop) (B : Number → Number → Prop)
    (limit : ℕ) (cue cue' : Cue) : Prop where
  /-- The durations that can be used are related. -/
  duration : Agree E (Option.Rel B) (usableParam? ρ cue.params "duration_beats")
    (usableParam? ρ cue'.params "duration_beats")
  /-- The starts that can be used are related. -/
  start : Agree E (Option.Rel B) (usableParam? ρ cue.params "start_beats")
    (usableParam? ρ cue'.params "start_beats")
  /-- The numbers of repeats are the same. -/
  repeats : repeats limit cue.params = repeats limit cue'.params

/-- Two parts of a walk leave related cursors, and the same happens in both on related beats. -/
structure Walk.Beside (B : Number → Number → Prop) (C : Cue → Cue → Prop) (L : ℤ → ℤ → Prop)
    (walk walk' : Walk) : Prop where
  /-- The cursors are related. -/
  cursor : B walk.cursor walk'.cursor
  /-- The same happens on related beats. -/
  happenings : List.Forall₂ (fun x x' => B x.1 x'.1 ∧ Happening.Beside C L x.2 x'.2)
    walk.happenings walk'.happenings

variable {ρ : Rounding} {E : Fault → Fault → Prop} {B : Number → Number → Prop}
  {C : Cue → Cue → Prop} {L : ℤ → ℤ → Prop} {limit : ℕ}

/-- What can be used of a parameter is the same as itself. -/
theorem agree_usable_refl {x : Except Fault (Option Number)} : Agree Eq (Option.Rel Eq) x x :=
  .refl fun a _ => by cases a <;> constructor; rfl

/-! ## The walk -/

/-- Cues with related times last related times. -/
theorem duration_agree (hB : Keeps ρ E B) {cue cue' : Cue} (h : TimesBeside ρ E B limit cue cue') :
    Agree E B (duration ρ cue.params) (duration ρ cue'.params) := by
  refine h.duration.bind fun usable usable' husable => .ok ?_
  cases husable with
  | none => exact hB.zero
  | some hx =>
    rw [Option.filter_some, Option.filter_some, hB.isPositive_eq _ _ hx]
    split_ifs
    · exact hx
    · exact hB.zero

/-- Cues that start and last related times happen on related beats. -/
theorem beatsOf_agree (hB : Keeps ρ E B) {start start' duration duration' : Number}
    (hstart : B start start') (hduration : B duration duration') (times : ℕ) :
    Agree E (List.Forall₂ fun x x' => B x.1 x'.1 ∧ x.2 = x'.2) (beatsOf ρ start duration times)
      (beatsOf ρ start' duration' times) := by
  unfold beatsOf
  rw [hB.isPositive_eq _ _ hduration]
  split_ifs
  · refine .mapM (List.forall₂_same.2 fun index _ => ?_)
    refine (hB.times index _ _ hduration).bind fun shift shift' hshift => ?_
    exact (hB.add _ _ _ _ hstart hshift).bind fun beat beat' hbeat => .ok ⟨hbeat, rfl⟩
  · exact .ok (.cons ⟨hstart, rfl⟩ .nil)

/-- Cues with related times are walked through in step. -/
theorem walkCue_agree (hB : Keeps ρ E B) {cue cue' : Cue} (hcue : C cue cue')
    (htimes : TimesBeside ρ E B limit cue cue') (sectionId : String) {line line' : ℤ}
    (hline : L line line') {cursor cursor' : Number} (hcursor : B cursor cursor') :
    Agree E (Walk.Beside B C L) (walkCue ρ limit sectionId cursor cue line)
      (walkCue ρ limit sectionId cursor' cue' line') := by
  unfold walkCue
  rw [htimes.repeats]
  refine (duration_agree hB htimes).bind fun d d' hd => ?_
  refine htimes.start.bind fun start? start?' hstart => ?_
  -- A cue without a start of its own starts at the cursor.
  have hbeat : B (start?.getD cursor) (start?'.getD cursor') := by
    cases hstart with
    | none => exact hcursor
    | some hx => exact hx
  refine (beatsOf_agree hB hbeat hd _).bind fun beats beats' hbeats => ?_
  have hhappenings : List.Forall₂ (fun x x' => B x.1 x'.1 ∧ Happening.Beside C L x.2 x'.2)
      (beats.map fun beat => (beat.1, Happening.cue sectionId cue line beat.2))
      (beats'.map fun beat => (beat.1, Happening.cue sectionId cue' line' beat.2)) := by
    rw [List.forall₂_map_left_iff, List.forall₂_map_right_iff]
    refine hbeats.imp ?_
    rintro ⟨beat, index⟩ ⟨beat', index'⟩ ⟨hbeat, rfl⟩
    exact ⟨hbeat, .cue sectionId index hcue hline⟩
  -- Only such a cue moves the cursor.
  cases hstart with
  | some => exact .ok ⟨hcursor, hhappenings⟩
  | none =>
    refine (hB.mul _ _ _ hd).bind fun advance advance' hadvance => ?_
    exact (hB.add _ _ _ _ hcursor hadvance).bind fun next next' hnext => .ok ⟨hnext, hhappenings⟩

/-- Items are walked through in step. -/
theorem walkItem_agree (hB : Keeps ρ E B) (hC : ∀ c c', C c c' → TimesBeside ρ E B limit c c')
    (sectionId : String) {item item' : Item} (h : Item.Beside C L item item')
    {cursor cursor' : Number} (hcursor : B cursor cursor') :
    Agree E (Walk.Beside B C L) (walkItem ρ limit sectionId cursor item)
      (walkItem ρ limit sectionId cursor' item') := by
  cases h with
  | performance text hline =>
    exact .ok ⟨hcursor, .cons ⟨hcursor, .performance sectionId text hline⟩ .nil⟩
  | lyric text hline => exact .ok ⟨hcursor, .cons ⟨hcursor, .lyric sectionId text hline⟩ .nil⟩
  | cue hcue hline => exact walkCue_agree hB hcue (hC _ _ hcue) sectionId hline hcursor

/-- Parts of walks that are beside each other go on with parts that are. -/
theorem Walk.Beside.append {first first' second second' : Walk} (h : Walk.Beside B C L first first')
    (h' : Walk.Beside B C L second second') :
    Walk.Beside B C L (first.append second) (first'.append second') :=
  ⟨h'.cursor, List.rel_append h.happenings h'.happenings⟩

/-- Lists of items are walked through in step. -/
theorem walkItems_agree (hB : Keeps ρ E B) (hC : ∀ c c', C c c' → TimesBeside ρ E B limit c c')
    (sectionId : String) {items items' : List Item}
    (h : List.Forall₂ (Item.Beside C L) items items')
    {cursor cursor' : Number} (hcursor : B cursor cursor') :
    Agree E (Walk.Beside B C L) (walkItems ρ limit sectionId cursor items)
      (walkItems ρ limit sectionId cursor' items') := by
  induction h generalizing cursor cursor' with
  | nil => exact .ok ⟨hcursor, .nil⟩
  | cons hitem _ ih =>
    refine (walkItem_agree hB hC sectionId hitem hcursor).bind fun first first' hfirst => ?_
    exact (ih hfirst.cursor).bind fun rest rest' hrest => .ok (hfirst.append hrest)

/-- Sections are walked through in step. -/
theorem walkSections_agree (hB : Keeps ρ E B) (hC : ∀ c c', C c c' → TimesBeside ρ E B limit c c')
    {parts parts' : List Section} (h : List.Forall₂ (Section.Beside C L) parts parts')
    {cursor cursor' : Number} (hcursor : B cursor cursor') :
    Agree E (Walk.Beside B C L) (walkSections ρ limit cursor parts)
      (walkSections ρ limit cursor' parts') := by
  induction h generalizing cursor cursor' with
  | nil => exact .ok ⟨hcursor, .nil⟩
  | @cons part part' parts parts' hpart _ ih =>
    unfold walkSections
    rw [← hpart.id, ← hpart.label]
    refine (walkItems_agree hB hC part.id hpart.items hcursor).bind fun items items' hitems => ?_
    have hfirst : Walk.Beside B C L
        ⟨items.cursor, (cursor, .sectionStart part.id part.label part.line) :: items.happenings⟩
        ⟨items'.cursor,
          (cursor', .sectionStart part.id part.label part'.line) :: items'.happenings⟩ :=
      ⟨hitems.cursor, .cons ⟨hcursor, .sectionStart _ _ hpart.line⟩ hitems.happenings⟩
    exact (ih hitems.cursor).bind fun rest rest' hrest => .ok (hfirst.append hrest)

/-- Songs are walked through in step. -/
theorem walk_agree (hB : Keeps ρ E B) (hC : ∀ c c', C c c' → TimesBeside ρ E B limit c c')
    {song song' : Song} (h : List.Forall₂ (Section.Beside C L) song.sections song'.sections) :
    Agree E (Walk.Beside B C L) (walk ρ limit song) (walk ρ limit song') :=
  walkSections_agree hB hC h hB.zero

/-! ## Sorted entries -/

/-- Two entries have the same place in their walks, and the same happens in both on related beats.
-/
structure Entry.Beside (B : Number → Number → Prop) (C : Cue → Cue → Prop) (L : ℤ → ℤ → Prop)
    (entry entry' : Entry) : Prop where
  /-- The beats are related. -/
  beat : B entry.beat entry'.beat
  /-- The places are the same. -/
  order : entry.order = entry'.order
  /-- The same happens. -/
  happening : Happening.Beside C L entry.happening entry'.happening

/-- Walks beside each other have entries beside each other. -/
theorem entries_beside {walk walk' : Walk} (h : Walk.Beside B C L walk walk') :
    List.Forall₂ (Entry.Beside B C L) (entries walk) (entries walk') := by
  unfold entries
  rw [List.forall₂_map_left_iff, List.forall₂_map_right_iff]
  refine (forall₂_zipIdx h.happenings 0).imp ?_
  rintro ⟨⟨beat, happening⟩, order⟩ ⟨⟨beat', happening'⟩, order'⟩ ⟨⟨hbeat, hhappening⟩, rfl⟩
  exact ⟨hbeat, rfl, hhappening⟩

/-- Entries beside each other are sorted in the same way. -/
theorem sorted_beside (hB : Keeps ρ E B) {entries entries' : List Entry}
    (h : List.Forall₂ (Entry.Beside B C L) entries entries') :
    List.Forall₂ (Entry.Beside B C L) (sorted entries) (sorted entries') :=
  forall₂_mergeSort h fun _ _ _ _ hfirst hsecond => by
    rw [hB.lt_eq _ _ _ _ hsecond.beat hfirst.beat]

/-! ## Events -/

/-- Two events come from entries beside each other, and their times are related. -/
def EventsBeside (B : Number → Number → Prop) (C : Cue → Cue → Prop) (L : ℤ → ℤ → Prop)
    (S : Number → Number → Prop) (event event' : Event) : Prop :=
  ∃ entry entry' : Entry, Entry.Beside B C L entry entry' ∧ ∃ seconds seconds',
    S seconds seconds' ∧ event = eventAt entry seconds ∧ event' = eventAt entry' seconds'

/-- Songs beside each other have the same events on related beats, if their tempo maps have related
times for related beats. -/
theorem schedule_agree {S : Number → Number → Prop} (hB : Keeps ρ E B)
    (hC : ∀ c c', C c c' → TimesBeside ρ E B limit c c')
    {segments segments' : List (Segment Number)} {map map' : TempoMap}
    (hmap : TempoMap.IsOf ρ segments map)
    (hmap' : TempoMap.IsOf ρ segments' map')
    (htimes : ∀ beat beat', B beat beat' → Agree E S
      (TempoMap.answerOf (TempoMap.secondsAt ρ beat) (TempoMap.fresh segments))
      (TempoMap.answerOf (TempoMap.secondsAt ρ beat') (TempoMap.fresh segments')))
    {song song' : Song} (h : List.Forall₂ (Section.Beside C L) song.sections song'.sections) :
    Agree E (List.Forall₂ (EventsBeside B C L S)) (schedule ρ limit map song)
      (schedule ρ limit map' song') := by
  refine (walk_agree hB hC h).bind fun walk walk' hwalk => ?_
  rw [run_times hmap, run_times hmap']
  refine .mapM ((sorted_beside hB (entries_beside hwalk)).imp fun entry entry' hentry => ?_)
  exact (htimes _ _ hentry.beat).bind fun seconds seconds' hseconds =>
    .ok ⟨entry, entry', hentry, seconds, seconds', hseconds, rfl, rfl⟩

end Timeline

end CueSheet
