import CueSheet.Proofs.Cue.Plain
import CueSheet.Proofs.Document.Sections
import CueSheet.Proofs.Header.Sound

/-!
# The songs that documents are read to

The tempo, the beats in a bar and the tempo changes of a song may be any values, and so may the
parameters of its cues. A song that is read from a document is sound (`isSound_of_read`): where a
quantity is meant there is one that makes sense, and the items can stand in a document.
-/

namespace CueSheet

/-- An item can stand in a document. -/
def Item.IsPlain : Item → Prop
  | .performance .. | .lyric .. => True
  | .cue c _ => c.IsPlain
  | .raw _ => False

/-- What can stand in a document is an item. -/
theorem Item.IsPlain.isProper {item : Item} (h : item.IsPlain) : item.isProper = true := by
  cases item with
  | performance | lyric | cue => rfl
  | raw => exact h.elim

/-- A tempo change is a pair of amounts. -/
def Segment.IsSound (segment : Segment Value) : Prop :=
  ∃ start bpm : Number, segment = ⟨.number start, .number bpm⟩ ∧ start.IsAmount ∧ bpm.IsAmount

/-- A song makes sense. -/
structure Song.IsSound (song : Song) : Prop where
  /-- The tempo is a quantity that is finite, above zero and kept. -/
  bpm : ∃ bpm : Number, song.bpm = .number bpm ∧ bpm.isTempo = true ∧ bpm.IsKept
  /-- A bar has a whole number of beats, at least one. -/
  beatsPerBar : ∃ beats : ℕ, song.beatsPerBar = .int beats ∧ 0 < beats
  /-- The tempo changes are pairs of amounts. -/
  changes : ∀ segment ∈ song.tempoChanges, segment.IsSound
  /-- The items can stand in a document. -/
  items : ∀ part ∈ song.sections, ∀ item ∈ part.items, item.IsPlain

namespace Document

variable {config : Config} {text : List Char} {document : Document}

/-- What a line says can stand in a document. -/
theorem Says.isPlain {bpm : Number} {beatsPerBar : ℕ} {line : NumberedLine} {items : List Item}
    (h : Says .binary64 (.number bpm) (.int beatsPerBar) line items) :
    ∀ item ∈ items, item.IsPlain := by
  cases h with
  | performanceLyric | performance | lyric => simp [Item.IsPlain]
  | cue number body read hread =>
    intro item hitem
    obtain rfl := List.mem_singleton.1 hitem
    exact Cue.isPlain_of_read hread

/-- What holds of all items that each of some lines says holds of all items that the lines say. -/
theorem of_said {ρ : Rounding} {bpm beatsPerBar : Value} {P : Item → Prop}
    {content : List NumberedLine} {said : List (List Item)}
    (htells : ∀ line ∈ content, ∀ items, Says ρ bpm beatsPerBar line items → ∀ item ∈ items, P item)
    (h : List.Forall₂ (Says ρ bpm beatsPerBar) content said) : ∀ item ∈ said.flatten, P item := by
  intro item hitem
  obtain ⟨items, hitems, hitem⟩ := List.mem_flatten.1 hitem
  obtain ⟨line, hline, hsays⟩ := exists_of_mem_right h hitems
  exact htells line hline items hsays item hitem

/-- What holds of all items that the lines of groups say holds of the items of the sections that hold
the groups. -/
theorem items_of_holds {ρ : Rounding} {bpm beatsPerBar : Value} {P : Item → Prop}
    {found : List Group} {parts : List Section}
    (htells : ∀ group ∈ found, ∀ line ∈ group.content, ∀ items,
      Says ρ bpm beatsPerBar line items → ∀ item ∈ items, P item)
    (h : List.Forall₂ (Holds ρ bpm beatsPerBar) found parts) :
    ∀ part ∈ parts, ∀ item ∈ part.items, P item := by
  intro part hpart
  obtain ⟨group, hgroup, hholds⟩ := exists_of_mem_right h hpart
  obtain ⟨said, hsaid, hitems⟩ := hholds.items
  rw [hitems]
  exact of_said (htells group hgroup) hsaid

/-- The settings of a song are sound. -/
theorem isSound_of_read (hconfig : config.IsKept) (h : read .binary64 config text = .ok document) :
    document.song.IsSound := by
  obtain ⟨settings, resolved, hresolve, hsong⟩ := settings_of_read h
  have hsound := Settings.isSound_of_resolve hconfig hresolve
  have hholds := holds_of_read h
  have hbpm : document.song.bpm = .number settings.bpm := by rw [hsong]; rfl
  have hbeats : document.song.beatsPerBar = .int settings.beatsPerBar := by rw [hsong]; rfl
  have hchanges : document.song.tempoChanges = settings.tempoChanges.map (·.map .number) := by
    rw [hsong]; rfl
  rw [hbpm, hbeats] at hholds
  refine ⟨⟨settings.bpm, hbpm, hsound.bpm, hsound.kept⟩, ⟨settings.beatsPerBar, hbeats,
    hsound.beatsPerBar⟩, ?_, items_of_holds (fun _ _ _ _ _ => Says.isPlain) hholds⟩
  intro segment hsegment
  rw [hchanges] at hsegment
  obtain ⟨change, hchange, rfl⟩ := List.mem_map.1 hsegment
  obtain ⟨hstart, hbpm⟩ := hsound.changes change hchange
  exact ⟨change.start, change.bpm, rfl, hstart, hbpm⟩

end Document

end CueSheet
