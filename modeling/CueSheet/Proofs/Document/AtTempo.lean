import CueSheet.Proofs.Cue.Origin
import CueSheet.Proofs.Document.Content
import CueSheet.Proofs.Document.Override
import CueSheet.Proofs.Document.Sections
import CueSheet.Proofs.Ir

/-!
# What an override of the tempo reaches

A document that is read under two overrides `p` and `q` of the tempo is the same but for its tempo
and for the parameters that come from times in seconds or in milliseconds, which are multiplied by
`q / p` (`Document.toIr_atTempo`). The two readings go through the same states
(`read_agree_override`), so their songs have the same groups of lines; what a line says at one tempo
is what it says at the other one, up to the cue that its body is read as (`Says.atTempo`). All
arithmetic is exact here.
-/

namespace CueSheet

open Document (NumberedLine numbered numberedLines)

/-- The body of the cue that a line is. -/
def Line.body? : Line → Option (List Char)
  | .cue body => some body
  | _ => none

/-- The body of the cue on the line with a number; empty if there is none. -/
def Document.bodyOn (text : List Char) (number : Int) : List Char :=
  (((numberedLines text).lookup number).bind Line.body?).getD []

/-- An item of a text at a tempo so many times as fast. -/
def Item.atTempo (text : List Char) (r : ℚ) : Item → Item
  | .cue c line => .cue (c.atTempo (Document.bodyOn text line) r) line
  | item => item

/-- A section of a text at a tempo so many times as fast. -/
def Section.atTempo (text : List Char) (r : ℚ) (part : Section) : Section :=
  { part with items := part.items.map (Item.atTempo text r) }

/-- The canonical form of a song at a tempo, with sections that are in canonical form already. The
tempo is part of the tempo map if the song declares no tempo change at beat zero. -/
def Song.irAt (song : Song) (bpm : Number) (sections : List Value) : Value :=
  .record [
    ("mmsl_version", .text song.version),
    ("title", .ofText? song.title),
    ("bpm", .number bpm),
    ("beatsPerBar", song.beatsPerBar),
    ("key", .ofText? song.key),
    ("timeSignature", .ofText? song.timeSignature),
    ("instruments", .ofTexts song.instruments),
    ("tempoMap", .list ((if song.declaresStart then song.tempoChanges
      else ⟨.int 0, .number bpm⟩ :: song.tempoChanges).map Segment.toIr)),
    ("sections", .list sections)]

/-- The canonical form of a song is that at its own tempo, with the canonical forms of its sections.
-/
theorem Song.exists_irAt {song : Song} {bpm : Number} (hbpm : song.bpm = .number bpm)
    (h : ¬Fails song.toIr) :
    ∃ sections, song.sections.mapM Section.toIr = .ok sections ∧
      song.toIr = .ok (song.irAt bpm sections) := by
  obtain ⟨ir, hir⟩ := not_fails_iff.1 h
  obtain ⟨sections, hsections, hrecord⟩ := bind_eq_ok.1 hir
  obtain rfl := pure_eq_ok_iff.1 hrecord
  refine ⟨sections, hsections, ?_⟩
  rw [hir, irAt, ← hbpm]
  rfl

namespace Document

variable {ρ : Rounding} {config : Config} {bpm beatsPerBar : Value} {line : NumberedLine}
  {items : List Item} {text : List Char} {document : Document}

/-! ## Numbers of lines -/

/-- Lines are numbered upwards. -/
theorem first_le_of_mem_numbered {first : Int} {lines : List Line}
    (h : line ∈ numbered first lines) : first ≤ line.1 := by
  induction lines generalizing first with
  | nil => cases h
  | cons head lines ih =>
    rcases List.mem_cons.1 h with rfl | h
    · exact le_rfl
    · have := ih h
      omega

/-- Each line is found under its number. -/
theorem lookup_of_mem_numbered {first : Int} {lines : List Line}
    (h : line ∈ numbered first lines) : (numbered first lines).lookup line.1 = some line.2 := by
  induction lines generalizing first with
  | nil => cases h
  | cons head lines ih =>
    rw [numbered, List.lookup_cons]
    rcases List.mem_cons.1 h with rfl | h
    · rw [beq_self_eq_true]
    · have hlater := first_le_of_mem_numbered h
      rw [beq_eq_false_iff_ne.2 (by omega)]
      exact ih h

/-- The body of a cue is found on its line. -/
theorem bodyOn_of_mem {number : Int} {body : List Char}
    (h : (number, .cue body) ∈ numberedLines text) : bodyOn text number = body := by
  have hlookup : (numberedLines text).lookup number = some (.cue body) := lookup_of_mem_numbered h
  rw [bodyOn, hlookup]
  rfl

/-! ## What lines say -/

/-- What a line says can stand in a document. -/
theorem Says.isProper (h : Says ρ bpm beatsPerBar line items) :
    ∀ item ∈ items, item.isProper = true := by
  cases h <;> simp [Item.isProper]

/-- The items of a song that is read can stand in a document, so the song has a canonical form. -/
theorem not_fails_toIr_of_read (h : read ρ config text = .ok document) :
    ¬Fails document.song.toIr := by
  refine Song.not_fails_toIr fun part hpart item hitem => ?_
  obtain ⟨group, -, hholds⟩ := exists_of_mem_right (holds_of_read h) hpart
  obtain ⟨said, hsaid, hitems⟩ := hholds.items
  obtain ⟨saidHere, hsaidHere, hitem⟩ := List.mem_flatten.1 (hitems ▸ hitem)
  obtain ⟨line, -, hsays⟩ := exists_of_mem_right hsaid hsaidHere
  exact hsays.isProper item hitem

variable {p q : Number} {P Q : ℚ}

/-- What a line says at one tempo is what it says at another one, up to what is in seconds. -/
theorem Says.atTempo {items' : List Item} (hp : p.toRat? = some P) (hP : 0 < P)
    (hq : q.toRat? = some Q) (hQ : 0 < Q) (hline : line ∈ numberedLines text)
    (h : Says .exact (.number p) beatsPerBar line items)
    (h' : Says .exact (.number q) beatsPerBar line items') :
    items' = items.map (Item.atTempo text (Q / P)) := by
  cases h with
  | performanceLyric | performance | lyric =>
    cases h'
    rfl
  | cue number body said hread =>
    cases h' with
    | cue _ _ said' hread' =>
      obtain rfl := (CueBody.read_atTempo hp hP hq hQ body).related hread hread'
      rw [List.map_singleton, Item.atTempo, bodyOn_of_mem hline]

/-- A group whose lines are among those of a text has the same items at two tempos, up to what is in
seconds. -/
theorem Holds.atTempo {group : Group} {part part' : Section} (hp : p.toRat? = some P) (hP : 0 < P)
    (hq : q.toRat? = some Q) (hQ : 0 < Q) (hlines : group.content ⊆ numberedLines text)
    (h : Holds .exact (.number p) beatsPerBar group part)
    (h' : Holds .exact (.number q) beatsPerBar group part') (hid : part.id = part'.id) :
    part' = part.atTempo text (Q / P) := by
  obtain ⟨said, hsaid, hitems⟩ := h.items
  obtain ⟨said', hsaid', hitems'⟩ := h'.items
  have hcontent : List.Forall₂ (fun line line' => line ∈ numberedLines text ∧ line' = line)
      group.content group.content := List.forall₂_same.2 fun _ hline => ⟨hlines hline, rfl⟩
  have hrelated : List.Forall₂ (fun items items' : List Item =>
      items' = items.map (Item.atTempo text (Q / P))) said said' := by
    refine forall₂_of_beside (fun items line items' line' hsays hsays' hsame => ?_) hsaid.flip
      hsaid'.flip hcontent
    obtain ⟨hline, rfl⟩ := hsame
    exact Says.atTempo hp hP hq hQ hline hsays hsays'
  have hall : part'.items = part.items.map (Item.atTempo text (Q / P)) := by
    rw [hitems, hitems', eq_map_of_forall₂ hrelated, List.map_flatten]
  calc part'
    _ = ⟨part'.id, part'.label, part'.items, part'.line⟩ := rfl
    _ = part.atTempo text (Q / P) := by
      rw [← hid, h'.label, ← h.label, h'.line, ← h.line, hall]
      rfl

/-- Sections that hold the same groups at two tempos are the same, up to what is in seconds, if
their identifiers are. -/
theorem sections_atTempo {found : List Group} {parts parts' : List Section}
    (hp : p.toRat? = some P) (hP : 0 < P) (hq : q.toRat? = some Q) (hQ : 0 < Q)
    (hfound : ∀ group ∈ found, group.content ⊆ numberedLines text)
    (h : List.Forall₂ (Holds .exact (.number p) beatsPerBar) found parts)
    (h' : List.Forall₂ (Holds .exact (.number q) beatsPerBar) found parts')
    (hids : List.Forall₂ (fun part part' : Section => part.id = part'.id) parts parts') :
    parts' = parts.map (Section.atTempo text (Q / P)) := by
  have hgroups : List.Forall₂ (fun group group' : Group =>
      group.content ⊆ numberedLines text ∧ group' = group) found found :=
    List.forall₂_same.2 fun group hgroup => ⟨hfound group hgroup, rfl⟩
  have hparts : List.Forall₂ (fun part part' : Section =>
      part.id = part'.id → part' = part.atTempo text (Q / P)) parts parts' := by
    refine forall₂_of_beside (fun part group part' group' hpart hpart' hsame hid => ?_) h.flip
      h'.flip hgroups
    obtain ⟨hlines, rfl⟩ := hsame
    exact Holds.atTempo hp hP hq hQ hlines hpart hpart' hid
  exact eq_map_of_forall₂ (List.Forall₂.mp (fun _ _ hpart hid => hpart hid) hparts hids)

/-- A document that can be read under one override of the tempo can be read under another one, with
the same diagnostics, and the two songs are the same but for the tempo and for what comes from times
in seconds or in milliseconds. -/
theorem read_atTempo {p q : Tempo} (hp : p.val.toRat? = some P) (hq : q.val.toRat? = some Q)
    (hread : read .exact (config.withBpm p) text = .ok document) :
    ∃ document', read .exact (config.withBpm q) text = .ok document' ∧
      document'.diagnostics = document.diagnostics ∧
      document.song.bpm = .number p.val.normalize ∧
      document'.song = { document.song with
        bpm := .number q.val.normalize
        sections := document.song.sections.map (Section.atTempo text (Q / P)) } := by
  have hP : 0 < P := (Number.isPositive_iff hp).1 (Number.isPositive_of_isTempo p.2)
  have hQ : 0 < Q := (Number.isPositive_iff hq).1 (Number.isPositive_of_isTempo q.2)
  rw [← Number.toRat?_normalize] at hp hq
  -- How the cues are related is told by the lines, so nothing is asked of them here.
  have hagree : Agree Eq
      (Document.Beside (fun _ _ => True) p.val.normalize q.val.normalize)
      (read .exact (config.withBpm p) text) (read .exact (config.withBpm q) text) := by
    refine read_agree_override fun line _ body _ beatsPerBar => ?_
    refine (CueBody.read_atTempo hp hP hq hQ body).mono fun said said' h => ?_
    exact ⟨trivial, by rw [h]⟩
  obtain ⟨document', hread', hbeside⟩ := hagree.exists_ok hread
  have hbpm' : document'.song.bpm = .number q.val.normalize := by rw [hbeside.song]
  have hbeats : document'.song.beatsPerBar = document.song.beatsPerBar := by rw [hbeside.song]
  have hholds := holds_of_read hread
  have hholds' := holds_of_read hread'
  rw [hbeside.bpm] at hholds
  rw [hbpm', hbeats] at hholds'
  have hlines : ∀ line ∈ numberedLines text, line.2.IsWellFormed := fun line hline =>
    isWellFormed_of_mem_linesOf (mem_of_mem_numbered hline)
  have hsections := sections_atTempo hp hP hq hQ
    (fun group hgroup => (of_mem_groups hlines (List.mem_of_mem_filter hgroup)).2) hholds hholds'
    (hbeside.sections.imp fun _ _ hpart => hpart.id)
  refine ⟨document', hread', hbeside.diagnostics.symm, hbeside.bpm, ?_⟩
  rw [← hsections]
  exact hbeside.song

/-- An override of the tempo reaches only what is written in seconds. If a text can be read under
one override of the tempo, then it can under another one, with the same diagnostics. The canonical
forms of the two songs have the same fields but for the tempo, for the tempo of the entry at beat
zero of the tempo map if the song declares none there, and for the sections; and these are the same
but for the parameters that come from times in milliseconds or in seconds, named or not, which are
scaled like the tempo. -/
theorem toIr_atTempo {p q : Tempo} (hp : p.val.toRat? = some P) (hq : q.val.toRat? = some Q)
    (hread : read .exact (config.withBpm p) text = .ok document) :
    ∃ document' sections sections', read .exact (config.withBpm q) text = .ok document' ∧
      document'.diagnostics = document.diagnostics ∧
      document.song.toIr = .ok (document.song.irAt p.val.normalize sections) ∧
      document'.song.toIr = .ok (document.song.irAt q.val.normalize sections') ∧
      document.song.sections.mapM Section.toIr = .ok sections ∧
      (document.song.sections.map (Section.atTempo text (Q / P))).mapM Section.toIr =
        .ok sections' := by
  obtain ⟨document', hread', hdiagnostics, hbpm, hsong⟩ := read_atTempo hp hq hread
  obtain ⟨sections, hsections, hir⟩ := Song.exists_irAt hbpm (not_fails_toIr_of_read hread)
  have hbpm' : document'.song.bpm = .number q.val.normalize := by rw [hsong]
  obtain ⟨sections', hsections', hir'⟩ := Song.exists_irAt hbpm' (not_fails_toIr_of_read hread')
  rw [hsong] at hsections' hir'
  refine ⟨document', sections, sections', hread', hdiagnostics, hir, ?_, hsections, hsections'⟩
  rw [hsong]
  exact hir'

/-- A text with times in every unit and in none, two of them under keys that are taken. -/
def mixedText : List Char :=
  ("[Verse]\n<hit duration=2s fade_in=500MS start=4>\n" ++
    "<light duration=1bar start_beat=3 start=9>\n" ++
    "<sweep duration=3b duration=2s fade_out=\"2s\">").toList

/-- The parameters of the cues of a song in order. -/
def cueParams (song : Song) : List Params :=
  song.sections.flatMap fun part => part.items.filterMap fun
    | .cue c _ => some c.params
    | _ => none

/-- The parameters of the cues of `mixedText` at the standard tempo. -/
def mixedParams : List Params := [
  [("duration_beats", .number (.real (.finite 4))), ("fade_in_beats", .number (.real (.finite 1))),
    ("start_beats", .number (.real (.finite 8)))],
  [("duration_beats", .number (.real (.finite 4))), ("start_beats", .number (.real (.finite 3)))],
  [("duration_beats", .number (.real (.finite 3))), ("fade_out", .text "2s")]]

/-- Half the standard tempo. -/
def halfBpm : Tempo := ⟨.int 60, by decide +kernel⟩

/-- At half the tempo the text is read with the same reports, and what it says in seconds comes to
half the beats in its canonical form. -/
theorem toIr_atTempo_mixedText :
    standardBpm.val.toRat? = some 120 ∧ halfBpm.val.toRat? = some 60 ∧
      ∃ document document' sections sections',
        read .exact (Config.standard.withBpm standardBpm) mixedText = .ok document ∧
        cueParams document.song = mixedParams ∧
        read .exact (Config.standard.withBpm halfBpm) mixedText = .ok document' ∧
        document'.diagnostics = document.diagnostics ∧
        document.song.toIr = .ok (document.song.irAt (.int 120) sections) ∧
        document'.song.toIr = .ok (document.song.irAt (.int 60) sections') ∧
        document.song.sections.mapM Section.toIr = .ok sections ∧
        (document.song.sections.map (Section.atTempo mixedText (60 / 120))).mapM Section.toIr =
          .ok sections' := by
  have hyields : yields (read .exact (Config.standard.withBpm standardBpm) mixedText)
      (fun document => cueParams document.song == mixedParams) = true := by decide +kernel
  obtain ⟨document, hread, hcheck⟩ := exists_of_yields hyields
  obtain ⟨document', sections, sections', hread', hrest⟩ :=
    toIr_atTempo (p := standardBpm) (q := halfBpm) rfl rfl hread
  exact ⟨rfl, rfl, document, document', sections, sections', hread, beq_iff_eq.1 hcheck, hread',
    hrest⟩

end Document

end CueSheet
