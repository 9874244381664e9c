import CueSheet.Ir
import CueSheet.Proofs.Json.Written
import CueSheet.Proofs.Lists

/-!
# The canonical form of a song

A song has a canonical form exactly if all of its items can stand in a document
(`Song.fails_toIr_iff`). The quantities in the canonical form are those of the tempo and the number
of beats in a bar, of the segments in effect and of the parameters (`Song.numbers_of_toIr`).
-/

namespace CueSheet

/-- Parts that are gathered from related elements are the same if the parts of related elements are.
-/
theorem flatMap_eq_of_forall₂ {α β γ : Type} {f : α → List γ} {g : β → List γ} {xs : List α}
    {ys : List β} (h : List.Forall₂ (fun x y => f x = g y) xs ys) :
    xs.flatMap f = ys.flatMap g := by
  induction h with
  | nil => rfl
  | cons hfirst _ ih => rw [List.flatMap_cons, List.flatMap_cons, hfirst, ih]

/-- An item has no canonical form exactly if it is none. -/
theorem Item.fails_toIr_iff {item : Item} : Fails item.toIr ↔ item.isProper = false := by
  cases item with
  | performance | lyric | cue => exact iff_of_false (not_fails_pure _) nofun
  | raw => exact iff_of_true (fails_throw _) rfl

/-- A section has no canonical form exactly if one of its items has none. -/
theorem Section.fails_toIr_iff {part : Section} :
    Fails part.toIr ↔ ∃ item ∈ part.items, item.isProper = false := by
  rw [Section.toIr, fails_bind_of_total fun _ _ => not_fails_pure _, fails_mapM_iff]
  simp only [Item.fails_toIr_iff]

/-- A song has no canonical form exactly if one of its items has none. -/
theorem Song.fails_toIr_iff {song : Song} :
    Fails song.toIr ↔ ∃ part ∈ song.sections, ∃ item ∈ part.items, item.isProper = false := by
  rw [Song.toIr, fails_bind_of_total fun _ _ => not_fails_pure _, fails_mapM_iff]
  simp only [Section.fails_toIr_iff]

/-- A song whose items can stand in a document has a canonical form. -/
theorem Song.not_fails_toIr {song : Song}
    (h : ∀ part ∈ song.sections, ∀ item ∈ part.items, item.isProper = true) : ¬Fails song.toIr := by
  rw [Song.fails_toIr_iff]
  rintro ⟨part, hpart, item, hitem, himproper⟩
  rw [h part hpart item hitem] at himproper
  cases himproper

/-! ## Quantities -/

/-- The quantities among the parameters of an item. -/
def Item.numbers : Item → List Number
  | .cue c _ => c.params.flatMap fun param => param.2.numbers
  | .performance .. | .lyric .. | .raw _ => []

/-- The quantities of a segment. -/
def Segment.numbers (segment : Segment Value) : List Number :=
  segment.start.numbers ++ segment.bpm.numbers

/-- The quantities in the canonical form of a segment are those of the segment. -/
theorem Segment.numbers_toIr (segment : Segment Value) : segment.toIr.numbers = segment.numbers := by
  simp [Segment.toIr, Segment.numbers]

/-- The quantities in the canonical form of an item are those among its parameters. -/
theorem Item.numbers_of_toIr {item : Item} {ir : Value} (h : item.toIr = .ok ir) :
    ir.numbers = item.numbers := by
  cases item with
  | raw => cases h
  | performance | lyric | cue =>
    obtain rfl := pure_eq_ok_iff.1 h
    simp [Item.numbers]

/-- The quantities in the canonical form of a section are those of its items. -/
theorem Section.numbers_of_toIr {part : Section} {ir : Value} (h : part.toIr = .ok ir) :
    ir.numbers = part.items.flatMap Item.numbers := by
  obtain ⟨items, hitems, h⟩ := bind_eq_ok.1 h
  obtain rfl := pure_eq_ok_iff.1 h
  have hnumbers : items.flatMap Value.numbers = part.items.flatMap Item.numbers :=
    flatMap_eq_of_forall₂ ((mapM_eq_ok_iff.1 hitems).flip.imp fun _ _ => Item.numbers_of_toIr)
  simp [hnumbers]

/-- The quantities in the canonical form of a song are those of its tempo and its number of beats in a
bar, of its segments in effect and of its items. -/
theorem Song.numbers_of_toIr {song : Song} {ir : Value} (h : song.toIr = .ok ir) :
    ir.numbers = song.bpm.numbers ++ song.beatsPerBar.numbers ++
      song.segments.flatMap Segment.numbers ++
      song.sections.flatMap fun part => part.items.flatMap Item.numbers := by
  obtain ⟨parts, hparts, h⟩ := bind_eq_ok.1 h
  obtain rfl := pure_eq_ok_iff.1 h
  have hnumbers : parts.flatMap Value.numbers =
      song.sections.flatMap fun part => part.items.flatMap Item.numbers :=
    flatMap_eq_of_forall₂ ((mapM_eq_ok_iff.1 hparts).flip.imp fun _ _ => Section.numbers_of_toIr)
  have hsegments : (song.segments.map Segment.toIr).flatMap Value.numbers =
      song.segments.flatMap Segment.numbers := by
    rw [List.flatMap_map]
    exact List.flatMap_congr fun segment _ => segment.numbers_toIr
  simp [hnumbers, hsegments]

end CueSheet
