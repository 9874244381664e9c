import CueSheet.Proofs.Render.Cue

/-!
# Cues that are read back as they are

A cue that is written and read again keeps what it says, up to the kind of the numbers of its stored
times. `Cue.IsLegible` says what a cue looks like that keeps all of it: its name could not be a
category, its keys are in lower case and none of them stands for a time in writing, its values are
written in full, and its stored times are real numbers. Such a cue is accepted and survives
(`Cue.IsLegible.isAccepted`, `Cue.IsLegible.survives`), and nothing is left of what could differ
(`Cue.IsLegible.eq_of_readsBack`). So its line is read as the cue itself at any tempo, and nothing
is reported (`Render.read_cue_of_isLegible`).
-/

namespace CueSheet

open Text (isBlank lower)

/-- A text has no quotes, brackets or line feeds, and no more characters than a number that is read
has digits. -/
structure IsLegibleText (text : List Char) : Prop where
  /-- It has no quotes, brackets or line feeds. -/
  chars : IsCueText text
  /-- It is too short for a whole number of too many digits. -/
  short : text.length ≤ digitLimit

instance (text : List Char) : Decidable (IsLegibleText text) :=
  decidable_of_iff (IsCueText text ∧ text.length ≤ digitLimit)
    ⟨fun h => ⟨h.1, h.2⟩, fun h => ⟨h.chars, h.short⟩⟩

/-- A character means nothing in the body of a cue. -/
def IsBareChar (c : Char) : Prop :=
  isBlank c = false ∧ c ≠ '"' ∧ c ≠ '=' ∧ c ≠ '<' ∧ c ≠ '>'

instance (c : Char) : Decidable (IsBareChar c) := inferInstanceAs (Decidable (_ ∧ _))

/-- A key is in lower case, has no character that means something in a cue, and is none that times
are written under. -/
structure IsLegibleKey (key : String) : Prop where
  /-- It is not empty. -/
  ne_nil : key.toList ≠ []
  /-- It is in lower case. -/
  low : lower key.toList = key.toList
  /-- It has no blanks, quotes, equals signs or brackets. -/
  chars : ∀ c ∈ key.toList, IsBareChar c
  /-- It is none that times are written under. -/
  untimed : TimingKey.ofName? key = none

instance (key : String) : Decidable (IsLegibleKey key) :=
  have : Decidable (∀ c ∈ key.toList, IsBareChar c) := List.decidableBAll _ _
  decidable_of_iff (key.toList ≠ [] ∧ lower key.toList = key.toList ∧
      (∀ c ∈ key.toList, IsBareChar c) ∧ TimingKey.ofName? key = none)
    ⟨fun h => ⟨h.1, h.2.1, h.2.2.1, h.2.2.2⟩, fun h => ⟨h.ne_nil, h.low, h.chars, h.untimed⟩⟩

/-- A value is written in full: a truth value, a whole number with no more digits than are written,
a finite real number that is not written next to a power of ten, or a legible text. -/
def Value.IsLegible : Value → Prop
  | .number (.bool _) => True
  | .number (.int n) => n.natAbs < 10 ^ digitLimit
  | .number (.real x) =>
    x.IsBinary64 ∧ x.isFinite = true ∧ (Number.real x).isScientific = false
  | .text s => IsLegibleText s.toList
  | .null | .list _ | .record _ => False

/-- A value is a real number of at least zero that is whole or not written next to a power of ten.
-/
def Value.IsLegibleTime (value : Value) : Prop :=
  ∃ q, value = .number (.real (.finite q)) ∧ (Extended.finite q).IsBinary64 ∧ 0 ≤ q ∧
    (q.den = 1 ∨ (Number.real (.finite q)).isScientific = false)

/-- A parameter is a stored time, or has a legible key and value. -/
structure IsLegibleParam (param : String × Value) : Prop where
  /-- A stored time is legible as one. -/
  time : param.1 ∈ Validation.beatKeys → param.2.IsLegibleTime
  /-- Any other key is legible. -/
  key : param.1 ∉ Validation.beatKeys → IsLegibleKey param.1
  /-- Any other value is legible. -/
  value : param.1 ∉ Validation.beatKeys → param.2.IsLegible

/-- A cue is legible. -/
structure Cue.IsLegible (cue : Cue) : Prop where
  /-- The name is one. -/
  name : Validation.IsName cue.name.toList
  /-- The category is a category word. -/
  category : ∀ category ∈ cue.category, category ∈ categories
  /-- Without a category the name is no category word. -/
  head : cue.category = none → isCategory cue.name = false
  /-- The keys are different. -/
  keys : (cue.params.map (·.1)).Nodup
  /-- The parameters are legible. -/
  params : ∀ param ∈ cue.params, IsLegibleParam param
  /-- The arguments are legible. -/
  args : ∀ arg ∈ cue.args, IsLegibleText arg.toList

/-! ## Texts and keys -/

/-- A whole number of too many digits is longer than the digits that are read. -/
theorem IsOverlong.lt_length {text : List Char} (h : IsOverlong text) :
    digitLimit < text.length := by
  obtain ⟨sign, digits, feed, rfl, -, -, hlength, -⟩ := h
  rw [List.length_append, List.length_append]
  omega

/-- A legible text is no whole number of too many digits. -/
theorem IsLegibleText.not_isOverlong {text : List Char} (h : IsLegibleText text) :
    ¬IsOverlong text := fun hover => absurd hover.lt_length (not_lt.2 h.short)

/-- A legible key is a key as cues hold it, and opens no quote. -/
theorem IsLegibleKey.isCueKey {key : String} (h : IsLegibleKey key) :
    IsCueKey key.toList ∧ Token.hasLoneQuote key.toList = false := by
  have hquote : '"' ∉ key.toList := fun hmem => (h.chars _ hmem).2.1 rfl
  refine ⟨⟨h.ne_nil, fun hhead => hquote (List.mem_of_mem_head? hhead), h.low, ⟨false, ?_⟩,
    fun c hc => ?_⟩, ?_⟩
  · exact Token.readOver_bare false fun c hc => ⟨(h.chars c hc).2.1, (h.chars c hc).1⟩
  · obtain ⟨hblank, -, hequals, hopen, hclose⟩ := h.chars c hc
    refine ⟨⟨hopen, hclose, ?_⟩, hequals⟩
    rintro rfl
    exact absurd hblank (by decide)
  · rw [Token.hasLoneQuote, List.count_eq_zero.2 hquote]
    rfl

/-- A key under which times are stored is a key as cues hold it, opens no quote, and is none that
times are written under. -/
theorem isCueKey_of_mem_beatKeys {key : String} (h : key ∈ Validation.beatKeys) :
    IsCueKey key.toList ∧ Token.hasLoneQuote key.toList = false ∧ TimingKey.ofName? key = none := by
  obtain ⟨⟨stored, written⟩, hmem, rfl⟩ := List.mem_map.1 h
  obtain ⟨timingKey, -, rfl⟩ := stored_of_writtenAs hmem
  have hstored : Token.hasLoneQuote timingKey.stored.toList = false ∧
      TimingKey.ofName? timingKey.stored = none := by
    cases timingKey <;> decide
  exact ⟨isCueKey_stored timingKey, hstored⟩

/-! ## Values -/

/-- A value that is written in full can stand in a document. -/
theorem Value.IsLegible.isPlain {value : Value} (h : value.IsLegible) : value.IsPlain := by
  cases value with
  | null | list | record => exact h.elim
  | text => trivial
  | number x =>
    cases x with
    | bool b => exact Number.isPlain_bool b
    | real x => exact Number.isPlain_real h.1
    | int n =>
      refine ⟨fun m hm => ?_, nofun⟩
      obtain rfl := Number.int.inj hm
      exact h

/-- A value that is written in full survives. -/
theorem Value.IsLegible.survivesAsIs {value : Value} (h : value.IsLegible) :
    value.SurvivesAsIs := by
  cases value with
  | null | list | record => exact h.elim
  | text s => exact ⟨h.not_isOverlong, nofun⟩
  | number x =>
    refine ⟨id, fun y hy => ?_⟩
    obtain rfl := Value.number.inj hy
    cases x with
    | bool | int => rfl
    | real x => exact h.2.2

/-- A stored time that is whole or not written next to a power of ten survives. -/
theorem Value.IsLegibleTime.survivesAsTime {value : Value} (h : value.IsLegibleTime) :
    value.SurvivesAsTime := by
  obtain ⟨q, rfl, -, -, hwritten⟩ := h
  intro x hx
  obtain rfl := Value.number.inj hx
  refine ⟨?_, nofun⟩
  -- A whole number is written without its fraction, and so without a power of ten.
  unfold Number.normalize
  dsimp only [Extended.toRat?]
  split_ifs with hwhole
  · rfl
  · exact hwritten.resolve_left hwhole

/-! ## Cues -/

namespace IsLegibleParam

variable {param : String × Value}

/-- A legible parameter is one that the validator accepts. -/
theorem isAcceptedParam (h : IsLegibleParam param) : IsAcceptedParam param := by
  by_cases hkey : param.1 ∈ Validation.beatKeys
  · obtain ⟨hcueKey, -, huntimed⟩ := isCueKey_of_mem_beatKeys hkey
    obtain ⟨q, hvalue, hbinary, hq, -⟩ := h.time hkey
    refine ⟨⟨hcueKey, ?_, ?_⟩, ?_, huntimed, fun _ => ⟨_, q, hvalue, rfl, rfl, hq⟩⟩
    · rw [hvalue]
      exact Number.isPlain_real hbinary
    · rw [hvalue]
      nofun
    · rw [hvalue]
      rintro x hx
      rw [← Value.number.inj hx]
      rfl
  · have hvalue := h.value hkey
    refine ⟨⟨(h.key hkey).isCueKey.1, hvalue.isPlain, fun s hs => ?_⟩, fun x hx => ?_,
      (h.key hkey).untimed, fun hmem => absurd hmem hkey⟩
    · rw [hs] at hvalue
      exact hvalue.chars
    · rw [hx] at hvalue
      cases x with
      | bool | int => rfl
      | real x => exact hvalue.2.1

/-- A legible parameter survives, and its key opens no quote. -/
theorem survivesParam (h : IsLegibleParam param) :
    SurvivesParam param ∧ Token.hasLoneQuote param.1.toList = false := by
  unfold SurvivesParam
  split_ifs with hkey
  · exact ⟨(h.time hkey).survivesAsTime, (isCueKey_of_mem_beatKeys hkey).2.1⟩
  · exact ⟨(h.value hkey).survivesAsIs, (h.key hkey).isCueKey.2⟩

/-- What a legible parameter is read back as is the parameter. -/
theorem eq_of_readsBack {read : String × Value} (h : IsLegibleParam param)
    (hback : ReadsBack param read) : param = read := by
  refine Prod.ext hback.key.symm ?_
  by_cases hkey : param.1 ∈ Validation.beatKeys
  · -- A stored time is read as a real number with its quantity, and it is one.
    obtain ⟨q, hvalue, -⟩ := h.time hkey
    obtain ⟨x, r, hx, -, hr, -, hread⟩ := hback.time hkey
    obtain rfl := Value.number.inj (hvalue.symm.trans hx)
    rw [hvalue, hread, Option.some.inj hr]
  · exact (hback.value hkey).symm

end IsLegibleParam

namespace Cue.IsLegible

variable {cue : Cue}

/-- A legible cue is one that the validator accepts. -/
theorem isAccepted (h : cue.IsLegible) : cue.IsAccepted where
  name_ne_nil := h.name.isNameChar.1
  name := h.name.isNameChar.2
  category := h.category
  keys := h.keys
  params param hparam := (h.params param hparam).isAcceptedParam
  args arg harg := (h.args arg harg).chars

/-- A legible cue survives. -/
theorem survives (h : cue.IsLegible) : cue.Survives where
  head hcategory hname := absurd hname (by simp [h.head hcategory])
  params param hparam := (h.params param hparam).survivesParam.1
  args arg harg := (h.args arg harg).not_isOverlong
  quotes param hparam := (h.params param hparam).survivesParam.2

/-- What a legible cue is read back as is the cue. -/
theorem eq_of_readsBack {read : Cue} (h : cue.IsLegible) (hback : cue.ReadsBack read) :
    cue = read := by
  have hparams : cue.params = read.params := by
    rw [← List.forall₂_eq_eq_eq]
    exact forall₂_of_mem hback.params fun param read hparam hread =>
      (h.params param hparam).eq_of_readsBack hread
  obtain ⟨name, category, params, args⟩ := cue
  obtain ⟨hname, hcategory, -, hargs⟩ := hback
  dsimp only at *
  rw [← hname, ← hcategory, hparams, ← hargs]

end Cue.IsLegible

/-- A legible cue is written as a line that is read as a cue, and what stands between its brackets
is read as just the cue that was written, at any tempo and number of beats in a bar, without a
report. -/
theorem Render.read_cue_of_isLegible {cue : Cue} {bpm : Number} (beatsPerBar : Value)
    (h : cue.IsLegible) (hbpm : bpm.isPositive = true) :
    ∃ line body, Render.cue cue = .ok line ∧ Line.ofText line.toList = .cue body ∧
      CueBody.read .binary64 (.number bpm) beatsPerBar body = .ok ⟨cue, []⟩ := by
  obtain ⟨body, read, hwritten, hbody, hread, hback⟩ :=
    read_cue beatsPerBar h.isAccepted h.survives hbpm
  obtain rfl := h.eq_of_readsBack hback
  refine ⟨_, body, hwritten, ?_, hread⟩
  rw [String.toList_ofList, hbody.ofText_line]

/-- A cue with a whole number of beats, a text that looks like a number, a number below zero, and
arguments that look like a parameter and like nothing is read back as it is. -/
theorem Render.read_cue_of_isLegible_rain :
    let cue : Cue := ⟨"rain", some "sfx", [("duration_beats", .number (.real (.finite 8))),
      ("take", .text "12"), ("gain", .number (.real (.finite (-3 / 2))))], ["a=b", ""]⟩
    cue.IsLegible ∧ (Number.int 120).isPositive = true ∧
      ∃ line body, Render.cue cue = .ok line ∧ Line.ofText line.toList = .cue body ∧
        CueBody.read .binary64 (.number (.int 120)) (.int 4) body = .ok ⟨cue, []⟩ := by
  intro cue
  have hnumber {q : Rat} (h : Rounding.binary64 q = .finite q) : (Extended.finite q).IsBinary64 :=
    h ▸ isBinary64_binary64 q
  have hplain (key : String) (h : key ∉ Validation.beatKeys) (hkey : IsLegibleKey key)
      (value : Value) (hvalue : value.IsLegible) : IsLegibleParam (key, value) :=
    ⟨fun hmem => absurd hmem h, fun _ => hkey, fun _ => hvalue⟩
  have hstored : "duration_beats" ∈ Validation.beatKeys := by decide
  have htime : IsLegibleParam ("duration_beats", .number (.real (.finite 8))) :=
    ⟨fun _ => ⟨8, rfl, hnumber (by decide +kernel), by decide, .inl rfl⟩,
      fun h => absurd hstored h, fun h => absurd hstored h⟩
  have htext : IsLegibleText "12".toList := by decide +kernel
  have htake : IsLegibleParam ("take", .text "12") :=
    hplain "take" (by decide) (by decide +kernel) _ htext
  have hgain : IsLegibleParam ("gain", .number (.real (.finite (-3 / 2)))) :=
    hplain "gain" (by decide) (by decide +kernel) _
      ⟨hnumber (by decide +kernel), rfl, by decide +kernel⟩
  have hcue : cue.IsLegible := by
    refine ⟨⟨'r', "ain".toList, by decide, by decide, List.all_eq_true.1 (by decide)⟩, by decide,
      nofun, by decide, ?_, ?_⟩
    · exact List.forall_mem_cons.2 ⟨htime, List.forall_mem_cons.2
        ⟨htake, List.forall_mem_singleton.2 hgain⟩⟩
    · exact List.forall_mem_cons.2
        ⟨by decide +kernel, List.forall_mem_singleton.2 (by decide +kernel)⟩
  exact ⟨hcue, by decide, Render.read_cue_of_isLegible (.int 4) hcue (by decide)⟩

end CueSheet
