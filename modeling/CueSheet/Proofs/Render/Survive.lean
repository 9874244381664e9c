import CueSheet.Proofs.Cue.Parameter
import CueSheet.Proofs.Numeric.Overflow
import CueSheet.Line
import CueSheet.Process

/-!
# What survives being written

A song that is written as a document and read again is not always the song that it was. A number next
to a power of ten is no number where numbers are read, and a whole number of very many digits is not
written at all. A lyric after a performance direction gets a line of its own, on which it may be read
as something else. The name of a cue without a category may be read as a category. A key with an
odd number of quotes opens a quote that takes in what is written behind it. `Song.Survives` says that
none of this happens.
-/

namespace CueSheet

/-- Whether a quantity is written next to a power of ten. -/
def Number.isScientific : Number → Bool
  | .real x => x.write.contains 'e'
  | .int _ | .bool _ => false

/-- A time in beats survives: it is not written next to a power of ten, and a whole number of beats is
one of binary64. -/
def Value.SurvivesAsTime (value : Value) : Prop :=
  ∀ x, value = .number x →
    x.normalize.isScientific = false ∧ ∀ n : ℤ, x = .int n → Rounding.binary64 n = .finite n

/-- A value that is no time survives: it can be written, and not next to a power of ten. -/
def Value.SurvivesAsIs (value : Value) : Prop :=
  ¬value.IsStuck ∧ ∀ x, value = .number x → x.isScientific = false

/-- A parameter survives, its key aside. -/
def SurvivesParam (param : String × Value) : Prop :=
  if param.1 ∈ Validation.beatKeys then param.2.SurvivesAsTime else param.2.SurvivesAsIs

/-- A cue survives. -/
structure Cue.Survives (cue : Cue) : Prop where
  /-- A category word that stands as a name has something with an equals sign behind it. -/
  head : cue.category = none → isCategory cue.name = true → cue.params = [] →
    ∃ arg ∈ cue.args.head?, '=' ∈ arg.toList
  /-- The parameters survive. -/
  params : ∀ param ∈ cue.params, SurvivesParam param
  /-- The arguments can be written. -/
  args : ∀ arg ∈ cue.args, ¬IsOverlong arg.toList
  /-- No key opens a quote. -/
  quotes : ∀ param ∈ cue.params, Token.hasLoneQuote param.1.toList = false

/-- An item survives. -/
def Item.Survives : Item → Prop
  | .performance .. => True
  | .lyric text _ => ∃ malformed, Line.ofText text.toList = .lyric text malformed
  | .cue c _ => c.Survives
  | .raw _ => False

/-- A song survives under a configuration. -/
structure Song.Survives (config : Config) (song : Song) : Prop where
  /-- It is written in no more lines than are accepted. -/
  lines : ∀ text, Render.song song = .ok text → excessLines? config text.toList = none
  /-- The tempo is not written next to a power of ten. -/
  bpm : ∀ x, song.bpm = .number x → x.isScientific = false
  /-- The number of beats in a bar can be read as a real number. -/
  beatsPerBar : ∀ n : ℤ, song.beatsPerBar = .int n → (n : ℚ) < overflowAt
  /-- No number of a tempo change is written next to a power of ten. -/
  tempoChanges : ∀ segment ∈ song.tempoChanges, ∀ x,
    segment.start = .number x ∨ segment.bpm = .number x → x.normalize.isScientific = false
  /-- The items survive. -/
  items : ∀ part ∈ song.sections, ∀ item ∈ part.items, item.Survives

/-! ## Numbers that survive -/

namespace Number

variable {x : Number}

/-- A quantity that is not written next to a power of ten is written without the letter of one. -/
theorem not_mem_of_isScientific {text : List Char} (hnumeric : x.isNumeric = true)
    (h : x.isScientific = false) (hwrite : x.write = .ok text) : 'e' ∉ text := by
  cases x with
  | bool => cases hnumeric
  | real y =>
    obtain rfl := Except.ok.inj hwrite
    simpa [isScientific] using h
  | int n =>
    obtain ⟨-, rfl⟩ := writeInt_eq_ok_iff.1 hwrite
    have hdigits : 'e' ∉ natDigits n.natAbs := fun hmem =>
      absurd (isDigit_of_mem_natDigits hmem) (by decide)
    split_ifs
    · exact fun hmem => hdigits ((List.mem_cons.1 hmem).resolve_left (by decide))
    · exact hdigits

/-- A number that can stand in a document can be written without the fraction of a whole real
number. -/
theorem IsPlain.exists_write_normalize (h : x.IsPlain) : ∃ text, x.normalize.write = .ok text := by
  rw [← not_fails_iff]
  cases x with
  | int | bool => exact h.writable.not_fails_write
  | real y =>
    have hkept : (real y).IsKept := h.binary64 y rfl
    exact hkept.normalize.isWritable.not_fails_write

end Number

/-- A number is written without the fraction of a whole real number. -/
theorem Render.number_eq (x : Number) : Render.number x = x.normalize.shown := by
  cases x <;> rfl

end CueSheet
