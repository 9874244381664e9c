import CueSheet.Command.Run
import CueSheet.Proofs.Config
import CueSheet.Proofs.Cue.Plain

/-!
# The settings of a command

Options and variables of the environment are read to quantities that can stand in a document. What
makes settings of them is a library, of which no more is needed than `Config.Validation.Spec` says: a
quantity without a field is the standard one, and a field of the declared type is taken as it is. So
the settings have tempos that can meet real numbers, and counts that are bounded
(`Config.isBounded_of_fromEnvironment`).
-/

namespace CueSheet

/-! ## Entered numbers -/

namespace Entry

/-- Digits times a power of ten are read to a binary64 number. -/
theorem isBinary64_scaled (digits : List ℕ) (power : ℤ) : (scaled digits power).IsBinary64 := by
  unfold scaled
  dsimp only
  split_ifs
  · exact isBinary64_binary64 0
  · trivial
  · exact isBinary64_binary64 _

/-- A text without sign is read to a binary64 number. -/
theorem isBinary64_of_magnitude? {text : List Char} {x : Extended}
    (h : magnitude? text = some x) : x.IsBinary64 := by
  unfold magnitude? at h
  dsimp only at h
  split_ifs at h
  · obtain rfl := Option.some.inj h
    trivial
  · obtain rfl := Option.some.inj h
    trivial
  · obtain ⟨power, -, rfl⟩ := Option.map_eq_some_iff.1 h
    exact isBinary64_scaled _ _

/-- An entered real number is one of binary64. -/
theorem isBinary64_of_real? {text : List Char} {x : Extended} (h : real? text = some x) :
    x.IsBinary64 := by
  obtain ⟨plain, -, h⟩ := Option.bind_eq_some_iff.1 h
  obtain ⟨y, hy, rfl⟩ := Option.map_eq_some_iff.1 h
  have hbinary := isBinary64_of_magnitude? hy
  have hsigned (negative : Bool) : (if negative then y.neg else y).IsBinary64 := by
    cases negative
    · exact hbinary
    · exact hbinary.neg
  exact hsigned _

/-- An entered whole number has no more digits than are written. -/
theorem isPlain_of_whole? {text : List Char} {n : ℤ} (h : whole? text = some (.ok n)) :
    (Number.int n).IsPlain := by
  unfold whole? at h
  dsimp only at h
  split at h
  · cases h
  · cases h
  · split at h
    · cases h
    · next hread =>
      split at h
      · cases h
      · obtain rfl := Except.ok.inj (Option.some.inj h)
        exact Number.isPlain_signed (lt_of_readDigits hread) _

end Entry

/-! ## Validation of fields -/

namespace Config

/-- The quantities of the settings, each with the kind of values that it is declared with. -/
def quantityKinds : List (String × Kind) := [
  ("default_bpm", .real), ("default_beats_per_bar", .whole), ("bpm", .real),
  ("beats_per_bar", .whole), ("max_lines", .whole), ("max_repeat", .whole)]

/-- The quantities of settings under the names of their fields; one that is not set is null. -/
def quantities (config : Config) : List (String × Value) := [
  ("default_bpm", .number config.defaultBpm.val),
  ("default_beats_per_bar", .int config.defaultBeatsPerBar.val),
  ("bpm", (config.bpm.map fun tempo => .number tempo.val).getD .null),
  ("beats_per_bar", .ofInt? (config.beatsPerBar.map fun count => (count.val : ℤ))),
  ("max_lines", .ofInt? (config.maxLines.map fun count => (count.val : ℤ))),
  ("max_repeat", .int config.maxRepeat.val)]

/-- What is needed of what makes settings of fields. Nothing is asked about fields that it refuses,
nor about what it converts to the declared kind. -/
structure Validation.Spec (validate : Validation) : Prop where
  /-- A quantity without a field is the standard one. -/
  standard : ∀ fields config, validate fields = .ok config →
    ∀ quantity ∈ quantityKinds, fields.lookup quantity.1 = none →
      config.quantities.lookup quantity.1 = Config.standard.quantities.lookup quantity.1
  /-- A field of the declared kind is taken as it is. -/
  given : ∀ fields config, validate fields = .ok config →
    ∀ quantity ∈ quantityKinds, ∀ value, fields.lookup quantity.1 = some value →
      value.kind = quantity.2 → config.quantities.lookup quantity.1 = some value

/-- A value can stand in a document, and is of the kind that a quantity of the name is declared
with. -/
structure IsEntered (name : String) (value : Value) : Prop where
  /-- The value can stand in a document. -/
  plain : value.IsPlain
  /-- The value is of the declared kind. -/
  kind : ∀ kind, (name, kind) ∈ quantityKinds → value.kind = kind

/-- The standard quantities can meet real numbers. -/
theorem isKept_of_mem_standard {name : String} {x : Number}
    (h : (name, .number x) ∈ Config.standard.quantities) : x.IsKept := by
  have hkept (n : ℕ) (hn : n ≤ 10000) : (Number.int n).IsKept := by
    have hlimit : (10000 : ℚ) < overflowAt := by decide +kernel
    show |((n : ℤ) : ℚ)| < overflowAt
    rw [Int.cast_natCast, Nat.abs_cast]
    exact lt_of_le_of_lt (by exact_mod_cast hn) hlimit
  have hquantities : Config.standard.quantities = [
      ("default_bpm", .int 120), ("default_beats_per_bar", .int 4), ("bpm", .null),
      ("beats_per_bar", .null), ("max_lines", .int 10000), ("max_repeat", .int 1000)] := rfl
  rw [hquantities] at h
  simp only [List.mem_cons, Prod.mk.injEq, Value.number.injEq, Value.int, reduceCtorEq, and_false,
    List.not_mem_nil, or_false, false_or] at h
  rcases h with ⟨-, rfl⟩ | ⟨-, rfl⟩ | ⟨-, rfl⟩ | ⟨-, rfl⟩
  · exact hkept 120 (by decide)
  · exact hkept 4 (by decide)
  · exact hkept 10000 (by decide)
  · exact hkept 1000 (by decide)

section Validated

variable {validate : Validation} {fields : List (String × Value)} {config : Config}
  (hvalidate : validate.Spec) (hfields : ∀ field ∈ fields, IsEntered field.1 field.2)
  (h : validate fields = .ok config)

include hvalidate hfields h

/-- Each quantity of validated settings is one that was entered, or the standard one. -/
theorem quantity_cases {name : String} {kind : Kind} (hname : (name, kind) ∈ quantityKinds)
    {value : Value} (hvalue : config.quantities.lookup name = some value) :
    IsEntered name value ∨ Config.standard.quantities.lookup name = some value := by
  cases hfield : fields.lookup name with
  | none => exact .inr ((hvalidate.standard fields config h _ hname hfield).symm.trans hvalue)
  | some given =>
    have hentered : IsEntered name given := hfields _ (mem_of_lookup hfield)
    have htaken := hvalidate.given fields config h _ hname given hfield (hentered.kind kind hname)
    obtain rfl := Option.some.inj (htaken.symm.trans hvalue)
    exact .inl hentered

/-- A tempo of validated settings can meet real numbers. -/
theorem isKept_of_validate (name : String) (hname : (name, .real) ∈ quantityKinds) {x : Number}
    (hx : config.quantities.lookup name = some (.number x)) : x.IsKept := by
  rcases quantity_cases hvalidate hfields h hname hx with hentered | hstandard
  · have hkind : x.kind = .real := hentered.kind _ hname
    cases x with
    | real y => exact hentered.plain.binary64 y rfl
    | int | bool => cases hkind
  · exact isKept_of_mem_standard (mem_of_lookup hstandard)

/-- A count of validated settings has no more digits than are written. -/
theorem lt_of_validate (name : String) (hname : (name, .whole) ∈ quantityKinds) {n : ℕ}
    (hn : config.quantities.lookup name = some (.int n)) : n < 10 ^ digitLimit := by
  have hwritable : (Number.int n).IsWritable := by
    rcases quantity_cases hvalidate hfields h hname hn with hentered | hstandard
    · exact hentered.plain.writable
    · exact (isKept_of_mem_standard (mem_of_lookup hstandard)).isWritable
  simpa using Number.isWritable_int_iff.1 hwritable

/-- Validated settings are kept and bounded. -/
theorem isBounded_of_validate : config.IsKept ∧ config.IsBounded := by
  have hkept := isKept_of_validate hvalidate hfields h
  have hlt := lt_of_validate hvalidate hfields h
  refine ⟨⟨?_, fun tempo htempo => ?_⟩, ⟨?_, fun count hcount => ?_, ?_⟩⟩
  · exact hkept "default_bpm" (by decide) rfl
  · refine hkept "bpm" (by decide) ?_
    simp [quantities, List.lookup_cons, Option.mem_def.1 htempo]
  · exact hlt "default_beats_per_bar" (by decide) rfl
  · refine hlt "beats_per_bar" (by decide) ?_
    simp [quantities, List.lookup_cons, Option.mem_def.1 hcount, Value.ofInt?]
  · cases hlines : config.maxLines with
    | some limit =>
      refine ⟨limit, rfl, hlt "max_lines" (by decide) ?_⟩
      simp [quantities, List.lookup_cons, hlines, Value.ofInt?]
    | none =>
      -- Nothing that is entered is null, and there is a standard number of lines.
      have hname : ("max_lines", Kind.whole) ∈ quantityKinds := by decide
      have hnull : config.quantities.lookup "max_lines" = some .null := by
        simp [quantities, List.lookup_cons, hlines, Value.ofInt?]
      rcases quantity_cases hvalidate hfields h hname hnull with hentered | hstandard
      · exact hentered.plain.elim
      · cases hstandard

end Validated

end Config

/-! ## Variables of the environment and options -/

namespace Config

variable {environment : Environment} {fields : List (String × Value)}

/-- What holds of all that the text of a variable is read to holds of its field. -/
theorem forall_environmentField {P : String × Value → Prop} {name field : String}
    {read : String → Except ConfigFault Value}
    (hread : ∀ text value, read text = .ok value → P (field, value))
    (h : environmentField environment name field read = .ok fields) : ∀ field ∈ fields, P field := by
  unfold environmentField at h
  split at h
  · obtain rfl := pure_eq_ok_iff.1 h
    nofun
  · obtain rfl := pure_eq_ok_iff.1 h
    nofun
  · obtain ⟨value, hvalue, h⟩ := bind_eq_ok.1 h
    obtain rfl := pure_eq_ok_iff.1 h
    exact List.forall_mem_singleton.2 (hread _ _ hvalue)

/-- A variable that is a whole number enters a whole number. -/
theorem isEntered_of_environmentInt {name text : String} {value : Value}
    (hname : ∀ kind, (name, kind) ∈ quantityKinds → kind = .whole)
    (h : environmentInt text = .ok value) : IsEntered name value := by
  unfold environmentInt at h
  split at h
  · cases h
  · cases h
  · next n hn =>
    obtain rfl := Except.ok.inj h
    exact ⟨Entry.isPlain_of_whole? hn, fun kind hkind => (hname kind hkind).symm⟩

/-- A variable that is a real number enters a real number. -/
theorem isEntered_of_environmentReal {name text : String} {value : Value}
    (hname : ∀ kind, (name, kind) ∈ quantityKinds → kind = .real)
    (h : environmentReal text = .ok value) : IsEntered name value := by
  unfold environmentReal at h
  split at h
  · cases h
  · next x hx =>
    obtain rfl := Except.ok.inj h
    exact ⟨Number.isPlain_real (Entry.isBinary64_of_real? hx),
      fun kind hkind => (hname kind hkind).symm⟩

/-- The fields that an environment gives are entered. -/
theorem isEntered_of_environmentFields (h : environmentFields environment = .ok fields) :
    ∀ field ∈ fields, IsEntered field.1 field.2 := by
  obtain ⟨bpm, hbpm, h⟩ := bind_eq_ok.1 h
  obtain ⟨maxLines, hmaxLines, h⟩ := bind_eq_ok.1 h
  obtain ⟨maxRepeat, hmaxRepeat, h⟩ := bind_eq_ok.1 h
  obtain ⟨catalog, hcatalog, h⟩ := bind_eq_ok.1 h
  obtain rfl := pure_eq_ok_iff.1 h
  simp only [List.forall_mem_append, List.forall_mem_cons]
  refine ⟨⟨⟨⟨⟨Number.isPlain_bool _, ?_⟩, isEntered_of_environmentReal ?_ hbpm, nofun⟩,
    forall_environmentField (fun _ _ => isEntered_of_environmentInt ?_) hmaxLines⟩,
    forall_environmentField (fun _ _ => isEntered_of_environmentInt ?_) hmaxRepeat⟩,
    forall_environmentField (fun text value hvalue => ?_) hcatalog⟩
  · simp [quantityKinds]
  · simp [quantityKinds]
  · simp [quantityKinds]
  · simp [quantityKinds]
  · obtain rfl := pure_eq_ok_iff.1 hvalue
    exact ⟨trivial, by simp [quantityKinds]⟩

end Config

namespace Command

/-- The options of an invocation are of the types that they are declared with: real numbers are those
of binary64, and whole numbers have no more digits than are read. -/
structure Invocation.IsEntered (invocation : Invocation) : Prop where
  /-- The tempo. -/
  bpm : ∀ x ∈ invocation.bpm, x.IsBinary64
  /-- The number of beats in a bar. -/
  beatsPerBar : ∀ count ∈ invocation.beatsPerBar, count.val < 10 ^ digitLimit
  /-- The greatest number of lines. -/
  maxLines : ∀ count ∈ invocation.maxLines, count.val < 10 ^ digitLimit
  /-- The greatest number of repeats of a cue. -/
  maxRepeat : ∀ count ∈ invocation.maxRepeat, count.val < 10 ^ digitLimit

/-- A count that is given is entered if it has no more digits than are read. -/
theorem Invocation.isEntered_ofCount? {name : String}
    (hname : ∀ kind, (name, kind) ∈ Config.quantityKinds → kind = .whole) {count : Option Count}
    (h : ∀ n ∈ count, n.val < 10 ^ digitLimit)
    (hgiven : Config.isGiven (name, ofCount? count) = true) :
    Config.IsEntered name (ofCount? count) := by
  cases count with
  | none => cases hgiven
  | some n =>
    exact ⟨Number.isPlain_signed (h n rfl) false, fun kind hkind => (hname kind hkind).symm⟩

/-- The fields that options give are entered, unless they are null. -/
theorem Invocation.IsEntered.overrides {invocation : Invocation} (h : invocation.IsEntered) :
    ∀ field ∈ invocation.overrides, Config.isGiven field = true →
      Config.IsEntered field.1 field.2 := by
  obtain ⟨_, _, _, strict, bpm, beatsPerBar, catalogPath, maxLines, maxRepeat, _⟩ := invocation
  simp only [Invocation.overrides, List.forall_mem_cons]
  refine ⟨fun hgiven => ?_, fun hgiven => ?_, isEntered_ofCount? ?_ h.beatsPerBar, fun hgiven => ?_,
    isEntered_ofCount? ?_ h.maxLines, isEntered_ofCount? ?_ h.maxRepeat, nofun⟩
  · cases strict with
    | false => cases hgiven
    | true => exact ⟨Number.isPlain_bool true, by simp [Config.quantityKinds]⟩
  · cases bpm with
    | none => cases hgiven
    | some x =>
      refine ⟨Number.isPlain_real (h.bpm x rfl), fun kind hkind => ?_⟩
      have hkind : kind = .real := by simpa [Config.quantityKinds] using hkind
      exact hkind.symm
  · simp [Config.quantityKinds]
  · cases catalogPath with
    | none => cases hgiven
    | some path => exact ⟨trivial, by simp [Config.quantityKinds]⟩
  · simp [Config.quantityKinds]
  · simp [Config.quantityKinds]

/-- What is needed of the libraries of a command. -/
structure Libraries.Spec (libraries : Libraries) : Prop where
  /-- What is needed of what makes settings of fields. -/
  validate : libraries.validate.Spec
  /-- A text without the character that starts a command to a terminal is printed as it is. -/
  echo : ∀ text, '\x1b' ∉ text.toList → libraries.echo text = text

end Command

/-- The settings that an environment and options give are kept and bounded. -/
theorem Config.isBounded_of_fromEnvironment {validate : Validation} (hvalidate : validate.Spec)
    {environment : Environment} {invocation : Command.Invocation} (hentered : invocation.IsEntered)
    {config : Config}
    (h : fromEnvironment validate environment invocation.overrides = .ok config) :
    config.IsKept ∧ config.IsBounded := by
  obtain ⟨fields, hfields, h⟩ := bind_eq_ok.1 h
  obtain ⟨found, hfound, hfields⟩ := bind_eq_ok.1 hfields
  obtain rfl := pure_eq_ok_iff.1 hfields
  split at h
  · next given hgiven =>
    obtain rfl := pure_eq_ok_iff.1 h
    have hoverrides : ∀ field ∈ invocation.overrides.filter isGiven,
        IsEntered field.1 field.2 := fun field hfield =>
      hentered.overrides field (List.mem_filter.1 hfield).1 (List.mem_filter.1 hfield).2
    exact isBounded_of_validate hvalidate
      (List.forall_mem_append.2 ⟨hoverrides, isEntered_of_environmentFields hfound⟩) hgiven
  · cases h

end CueSheet
