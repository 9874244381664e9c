import CueSheet.Tempo.Segment

/-!
# The canonical form

The canonical form of a song is a record with a fixed order of fields, so that equal songs are equal
documents in writing. Line numbers are not part of it. Its tempo map holds the segments
that are in effect, whether or not the song declares one at beat zero.
-/

namespace CueSheet

/-- A tempo segment in the canonical form. -/
def Segment.toIr (segment : Segment Value) : Value :=
  .record [("startBeat", segment.start), ("bpm", segment.bpm)]

/-- An item in the canonical form; a fault if it is none. -/
def Item.toIr : Item → Except Fault Value
  | .performance text _ => return .record [("type", .text "performance"), ("text", .text text)]
  | .lyric text _ => return .record [("type", .text "lyric"), ("text", .text text)]
  | .cue c _ => return .record [
      ("type", .text "cue"),
      ("name", .text c.name),
      ("category", .ofText? c.category),
      ("params", .record c.params),
      ("args", .ofTexts c.args)]
  | .raw text => throw (.notItem text)

/-- A section in the canonical form. -/
def Section.toIr (part : Section) : Except Fault Value :=
  return .record [
    ("id", .text part.id),
    ("label", .text part.label),
    ("items", .list (← part.items.mapM Item.toIr))]

/-- A song in the canonical form. -/
def Song.toIr (song : Song) : Except Fault Value :=
  return .record [
    ("mmsl_version", .text song.version),
    ("title", .ofText? song.title),
    ("bpm", song.bpm),
    ("beatsPerBar", song.beatsPerBar),
    ("key", .ofText? song.key),
    ("timeSignature", .ofText? song.timeSignature),
    ("instruments", .ofTexts song.instruments),
    ("tempoMap", .list (song.segments.map Segment.toIr)),
    ("sections", .list (← song.sections.mapM Section.toIr))]

end CueSheet
