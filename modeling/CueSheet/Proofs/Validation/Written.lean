import CueSheet.Proofs.Ir
import CueSheet.Proofs.Validation.Song

/-!
# Songs without an error are written as JSON

Strict JSON has no infinite and no undefined numbers. Such numbers are refused in different places:
the tempo and the number of beats in a bar by the checks of the song as a whole, those of segments by
the check of the tempo map, and those of parameters by the rules for their keys. Together the checks
cover every quantity in the canonical form, so a song that is validated without an error is written
(`exists_writeDocument_of_areWarnings`), as long as its whole numbers are not too long for that.
-/

namespace CueSheet

open Document (AreWarnings)

/-- What a song holds may stand in a document, with no key twice in a cue. Tempo changes may be any
values. -/
structure Song.IsPlain (song : Song) : Prop where
  /-- The tempo has no more digits than are written. -/
  bpm : ∀ x, song.bpm = .number x → x.IsWritable
  /-- The number of beats in a bar has no more digits than are written. -/
  beatsPerBar : ∀ x, song.beatsPerBar = .number x → x.IsWritable
  /-- The items can stand in a document. -/
  items : ∀ part ∈ song.sections, ∀ item ∈ part.items, item.IsPlain
  /-- The keys of a cue are different. -/
  keys : ∀ part ∈ song.sections, ∀ cue line, .cue cue line ∈ part.items →
    (cue.params.map (·.1)).Nodup

variable {config : Config} {names : Option Namespace} {song : Song}

/-- A quantity that is found to be finite is written in strict JSON: whole numbers that can be compared
with real numbers have few digits. -/
theorem Number.isStrict_of_checkFinite {x : Number} (h : x.checkFinite .binary64 = .ok true) :
    x.IsStrict := by
  obtain ⟨y, hy, -⟩ := bind_eq_ok.1 h
  exact ⟨isFinite_iff.2 (exists_toRat?_of_checkFinite h),
    isWritable_of_not_fails_toReal (not_fails_iff.2 ⟨y, hy⟩)⟩

/-- The quantities of the segments that make a tempo map are written. -/
theorem TempoMap.IsValid.isStrict {segments : List (Segment Number)}
    (h : TempoMap.IsValid .binary64 segments) {x : Number}
    (hx : x ∈ (segments.map Segment.values).flatMap Segment.numbers) : x.IsStrict := by
  rw [List.flatMap_map, List.mem_flatMap] at hx
  obtain ⟨segment, hsegment, hx⟩ := hx
  have hchecked := h.checked segment hsegment
  obtain rfl | rfl : x = segment.start ∨ x = segment.bpm := by
    simpa [Segment.numbers, Segment.values, Segment.map] using hx
  · exact Number.isStrict_of_checkFinite hchecked.start
  · exact Number.isStrict_of_checkFinite hchecked.bpm

/-- The quantities of an item that passes are written. -/
theorem Item.Passes.isStrict {item : Item} (h : item.Passes config names) (hplain : item.IsPlain)
    (hkeys : ∀ cue line, item = .cue cue line → (cue.params.map (·.1)).Nodup) {x : Number}
    (hx : x ∈ item.numbers) : x.IsStrict := by
  cases item with
  | performance | lyric | raw => cases hx
  | cue cue line =>
    obtain ⟨⟨key, value⟩, hmem, hx⟩ := List.mem_flatMap.1 hx
    have hvalue : value.IsPlain := hplain _ hmem
    cases value with
    | null | list | record => exact hvalue.elim
    | text s => cases hx
    | number y =>
      obtain rfl := List.mem_singleton.1 hx
      exact ⟨Validation.isFinite_of_letsPass (hkeys cue line rfl) (Validation.passes_cue_iff.1 h) hmem,
        hvalue.writable⟩

/-- The quantities in the canonical form of a song that is validated without an error are written. -/
theorem Song.IsPlain.isStrict (hplain : song.IsPlain)
    (h : ∃ diagnostics, validate .binary64 config names song = .ok diagnostics ∧
      AreWarnings diagnostics) {ir : Value} (hir : song.toIr = .ok ir) {x : Number}
    (hx : x ∈ ir.numbers) : x.IsStrict := by
  obtain ⟨hbpm, hbeats, hpasses⟩ := exists_validate_iff_passes.1 h
  rw [Song.numbers_of_toIr hir] at hx
  simp only [List.mem_append, or_assoc] at hx
  -- In order: the tempo, the beats of a bar, the segments in effect, and the items.
  rcases hx with hx | hx | hx | hx
  · obtain ⟨q, ⟨y, hvalue, -, hq⟩, -⟩ := Validation.isTempo_iff.1 hbpm
    rw [hvalue] at hx
    obtain rfl := List.mem_singleton.1 hx
    exact ⟨Number.isFinite_iff.2 ⟨q, hq⟩, hplain.bpm x hvalue⟩
  · obtain ⟨n, hvalue, -⟩ := Validation.isCount_iff.1 hbeats
    rw [hvalue] at hx
    obtain rfl := List.mem_singleton.1 hx
    exact ⟨rfl, hplain.beatsPerBar _ hvalue⟩
  · obtain ⟨segments, hsegments, hvalid⟩ := hpasses.segments
    rw [hsegments] at hx
    exact hvalid.isStrict hx
  · obtain ⟨part, hpart, hx⟩ := List.mem_flatMap.1 hx
    obtain ⟨item, hitem, hx⟩ := List.mem_flatMap.1 hx
    refine (hpasses.items part hpart item hitem).isStrict (hplain.items part hpart item hitem) ?_ hx
    rintro cue line rfl
    exact hplain.keys part hpart cue line hitem

/-- A song that is validated without an error has a canonical form without infinite and undefined
numbers, and the canonical form is written as JSON. -/
theorem exists_writeDocument_of_areWarnings (hplain : song.IsPlain) {diagnostics : List Diagnostic}
    (h : validate .binary64 config names song = .ok diagnostics) (hok : AreWarnings diagnostics) :
    ∃ ir text, song.toIr = .ok ir ∧ (∀ x ∈ ir.numbers, x.isFinite = true) ∧
      Json.writeDocument ir = .ok text := by
  have hproper : ¬Fails song.toIr :=
    Song.not_fails_toIr fun part hpart item hitem => (hplain.items part hpart item hitem).isProper
  obtain ⟨ir, hir⟩ := not_fails_iff.1 hproper
  have hstrict : ∀ x ∈ ir.numbers, x.IsStrict := fun x hx => hplain.isStrict ⟨_, h, hok⟩ hir hx
  have hwritten : ¬Fails (Json.writeDocument ir) := by
    rw [Json.fails_writeDocument_iff]
    rintro ⟨x, hx, hlax⟩
    exact hlax (hstrict x hx)
  obtain ⟨text, htext⟩ := not_fails_iff.1 hwritten
  exact ⟨ir, text, hir, fun x hx => (hstrict x hx).finite, htext⟩

/-- The song with the bells can stand in a document. -/
theorem isPlain_bellSong : bellSong.IsPlain := by
  have hhalf : (Extended.finite (1 / 2)).IsBinary64 := by
    have hrounded : Rounding.binary64 (1 / 2) = .finite (1 / 2) := by decide +kernel
    exact hrounded ▸ isBinary64_binary64 (1 / 2)
  have hcue : ringingBells.IsPlain := by
    intro param hparam
    simp only [ringingBells, List.mem_cons, List.not_mem_nil, or_false] at hparam
    rcases hparam with rfl | rfl | rfl | rfl | rfl | rfl
    · exact ⟨Number.isWritable_int_iff.2 (by decide +kernel), nofun⟩
    · exact Number.isPlain_real hhalf
    · trivial
    · exact ⟨Number.isWritable_int_iff.2 (by decide +kernel), nofun⟩
    · trivial
    · exact ⟨Number.isWritable_int_iff.2 (by decide +kernel), nofun⟩
  refine ⟨fun x hx => ?_, fun x hx => ?_, fun part hpart item hitem => ?_,
    fun part hpart cue line hitem => ?_⟩
  · obtain rfl := Value.number.inj hx
    exact Number.isWritable_int_iff.2 (by decide +kernel)
  · obtain rfl := Value.number.inj hx
    exact Number.isWritable_int_iff.2 (by decide +kernel)
  · obtain rfl := List.mem_singleton.1 hpart
    obtain rfl | rfl : item = .lyric "la" 2 ∨ item = .cue ringingBells 3 := by simpa using hitem
    · trivial
    · exact hcue
  · obtain rfl := List.mem_singleton.1 hpart
    obtain ⟨rfl, -⟩ : cue = ringingBells ∧ line = 3 := by simpa using hitem
    decide +kernel

/-- Nothing is reported on the song, so its canonical form is written as a document. -/
theorem exists_writeDocument_of_areWarnings_bellSong :
    bellSong.IsPlain ∧ validate .binary64 .standard none bellSong = .ok [] ∧
      ∃ ir text, bellSong.toIr = .ok ir ∧ (∀ x ∈ ir.numbers, x.isFinite = true) ∧
        Json.writeDocument ir = .ok text := by
  have h : validate .binary64 .standard none bellSong = .ok [] := by decide +kernel
  exact ⟨isPlain_bellSong, h,
    exists_writeDocument_of_areWarnings isPlain_bellSong h Document.areWarnings_nil⟩

end CueSheet
