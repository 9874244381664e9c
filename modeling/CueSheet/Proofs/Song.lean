import Mathlib.Data.List.Forall2
import CueSheet.Song

/-!
# Songs side by side

Two songs are compared part by part: their cues by one relation, the numbers of their lines by
another, and everything else has to be the same.
-/

namespace CueSheet

variable (C : Cue → Cue → Prop) (L : Int → Int → Prop)

/-- Two items are of one kind and say the same, up to their cues and their lines. -/
inductive Item.Beside : Item → Item → Prop where
  /-- Both are the same direction. -/
  | performance (text : String) {line line' : Int} (hline : L line line') :
    Beside (.performance text line) (.performance text line')
  /-- Both are the same lyric. -/
  | lyric (text : String) {line line' : Int} (hline : L line line') :
    Beside (.lyric text line) (.lyric text line')
  /-- Both are cues. -/
  | cue {cue cue' : Cue} {line line' : Int} (hcue : C cue cue') (hline : L line line') :
    Beside (.cue cue line) (.cue cue' line')

/-- Two sections say the same, up to their cues and their lines. -/
structure Section.Beside (part part' : Section) : Prop where
  /-- The identifiers are the same. -/
  id : part.id = part'.id
  /-- The labels are the same. -/
  label : part.label = part'.label
  /-- The lines are related. -/
  line : L part.line part'.line
  /-- The items stand beside each other. -/
  items : List.Forall₂ (Item.Beside C L) part.items part'.items

end CueSheet
