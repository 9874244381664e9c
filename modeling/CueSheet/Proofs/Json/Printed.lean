import CueSheet.Json.Written
import CueSheet.Proofs.Numeric.Written

/-!
# Controls in written JSON

A string in JSON has escapes for all controls below the space, and what else is written has none but
the line feeds that an indented document is laid out with (`Json.isPrinted_of_writeAt`). So a value
written on one line stands on one line, whatever its texts hold, and no document holds a character
that a terminal takes for the start of a command (`Json.notMem_of_writeDocument`).
-/

namespace CueSheet.Json

/-- A text holds no control below the space. -/
def HasNoControl (text : List Char) : Prop := ∀ c ∈ text, 0x20 ≤ c.toNat

instance (text : List Char) : Decidable (HasNoControl text) := List.decidableBAll _ text

/-- A document of a style may hold a character: it is no control below the space, or a line feed that
the style lays out with. -/
def Style.Allows (style : Style) (c : Char) : Prop := 0x20 ≤ c.toNat ∨ style = .indented ∧ c = '\n'

/-- A text holds only what a document of a style may hold. -/
def IsPrinted (style : Style) (text : List Char) : Prop := ∀ c ∈ text, style.Allows c

variable {style : Style}

@[simp] theorem isPrinted_nil : IsPrinted style [] := nofun

@[simp] theorem isPrinted_cons_iff {c : Char} {text : List Char} :
    IsPrinted style (c :: text) ↔ style.Allows c ∧ IsPrinted style text := List.forall_mem_cons

@[simp] theorem isPrinted_append_iff {text text' : List Char} :
    IsPrinted style (text ++ text') ↔ IsPrinted style text ∧ IsPrinted style text' :=
  List.forall_mem_append

/-- A text without controls may stand in every document. -/
theorem HasNoControl.isPrinted {text : List Char} (h : HasNoControl text) : IsPrinted style text :=
  fun c hc => .inl (h c hc)

/-- On one line, nothing is a control. -/
theorem isPrinted_oneLine_iff {text : List Char} : IsPrinted .oneLine text ↔ HasNoControl text :=
  forall₂_congr fun _ _ => or_iff_left nofun

/-- A control other than the line feed stands in no document. -/
theorem IsPrinted.notMem {text : List Char} (h : IsPrinted style text) {c : Char}
    (hcontrol : c.toNat < 0x20) (hfeed : c ≠ '\n') : c ∉ text := by
  intro hc
  rcases h c hc with hle | ⟨-, rfl⟩
  · omega
  · exact hfeed rfl

/-- A character that may stand in a written number is no control. -/
theorem isPrinted_of_isNumeralChar {text : List Char} (h : ∀ c ∈ text, isNumeralChar c = true) :
    IsPrinted style text := by
  have hcontrol : HasNoControl text := fun c hc =>
    of_isNumeralChar (P := fun c => 0x20 ≤ c.toNat) (by decide) (h c hc)
  exact hcontrol.isPrinted

/-- What goes around the items at a level is blanks and line feeds. -/
theorem isPrinted_lineBreak (level : ℕ) : IsPrinted style (style.lineBreak level) := by
  cases style with
  | oneLine => exact isPrinted_nil
  | indented =>
    refine isPrinted_cons_iff.2 ⟨.inr ⟨rfl, rfl⟩, fun c hc => ?_⟩
    obtain rfl := List.eq_of_mem_replicate hc
    exact .inl (by decide)

/-- What goes between two items at a level is printed. -/
theorem isPrinted_separator (level : ℕ) : IsPrinted style (style.separator level) := by
  cases style with
  | oneLine =>
    have hseparator : HasNoControl [',', ' '] := by decide
    exact hseparator.isPrinted
  | indented => exact isPrinted_cons_iff.2 ⟨.inl (by decide), isPrinted_lineBreak level⟩

/-- A character inside a string is written without controls. -/
theorem isPrinted_escapeChar (c : Char) : IsPrinted style (escapeChar c) := by
  have hnumbered : ∀ n < 0x20, HasNoControl (Text.hex 4 n) := by decide
  suffices hescaped : HasNoControl (escapeChar c) from hescaped.isPrinted
  unfold escapeChar
  split_ifs with hmark _ _ _ _ _ hcontrol
  · rcases hmark with rfl | rfl <;> decide
  · decide
  · decide
  · decide
  · decide
  · decide
  · exact List.forall_mem_cons.2 ⟨by decide,
      List.forall_mem_cons.2 ⟨by decide, hnumbered _ hcontrol⟩⟩
  · exact List.forall_mem_singleton.2 (not_lt.1 hcontrol)

/-- A string is written without controls. -/
theorem isPrinted_writeString (s : String) : IsPrinted style (writeString s) := by
  have hquote : IsPrinted style ['"'] := List.forall_mem_singleton.2 (.inl (by decide))
  refine isPrinted_append_iff.2 ⟨isPrinted_append_iff.2 ⟨hquote, fun c hc => ?_⟩, hquote⟩
  obtain ⟨d, -, hc⟩ := List.mem_flatMap.1 hc
  exact isPrinted_escapeChar d c hc

mutual

/-- A value is written without controls, but for line feeds of its style. -/
theorem isPrinted_of_writeAt {level : ℕ} {value : Value} {text : List Char}
    (h : writeAt style level value = .ok text) : IsPrinted style text := by
  match value with
  | .null =>
    obtain rfl := Except.ok.inj h
    exact HasNoControl.isPrinted (by decide)
  | .number (.bool b) =>
    obtain rfl := Except.ok.inj h
    exact HasNoControl.isPrinted (by cases b <;> decide)
  | .number (.int n) =>
    exact isPrinted_of_isNumeralChar fun c hc =>
      Number.isNumeralChar_of_mem_write (x := .int n) h rfl hc
  | .number (.real x) =>
    unfold writeAt writeReal at h
    split_ifs at h
    exact isPrinted_of_isNumeralChar fun c hc =>
      Number.isNumeralChar_of_mem_write (x := .real x) h rfl hc
  | .text s =>
    obtain rfl := Except.ok.inj h
    exact isPrinted_writeString s
  | .list [] =>
    obtain rfl := Except.ok.inj h
    exact HasNoControl.isPrinted (by decide)
  | .list (item :: items) =>
    rw [writeAt] at h
    obtain ⟨first, hfirst, h⟩ := bind_eq_ok.1 h
    obtain ⟨rest, hrest, h⟩ := bind_eq_ok.1 h
    obtain rfl := pure_eq_ok_iff.1 h
    simp [Style.Allows, isPrinted_lineBreak, isPrinted_of_writeAt hfirst,
      isPrinted_of_writeItems hrest]
  | .record [] =>
    obtain rfl := Except.ok.inj h
    exact HasNoControl.isPrinted (by decide)
  | .record ((name, value) :: members) =>
    rw [writeAt] at h
    obtain ⟨first, hfirst, h⟩ := bind_eq_ok.1 h
    obtain ⟨rest, hrest, h⟩ := bind_eq_ok.1 h
    obtain rfl := pure_eq_ok_iff.1 h
    simp [Style.Allows, isPrinted_lineBreak, isPrinted_writeString, isPrinted_of_writeAt hfirst,
      isPrinted_of_writeMembers hrest]

/-- Items are written without controls, but for line feeds of the style. -/
theorem isPrinted_of_writeItems {level : ℕ} {items : List Value} {text : List Char}
    (h : writeItems style level items = .ok text) : IsPrinted style text := by
  match items with
  | [] =>
    obtain rfl := Except.ok.inj h
    exact isPrinted_nil
  | item :: items =>
    rw [writeItems] at h
    obtain ⟨first, hfirst, h⟩ := bind_eq_ok.1 h
    obtain ⟨rest, hrest, h⟩ := bind_eq_ok.1 h
    obtain rfl := pure_eq_ok_iff.1 h
    simp [isPrinted_separator, isPrinted_of_writeAt hfirst, isPrinted_of_writeItems hrest]

/-- Members are written without controls, but for line feeds of the style. -/
theorem isPrinted_of_writeMembers {level : ℕ} {members : List (String × Value)}
    {text : List Char} (h : writeMembers style level members = .ok text) : IsPrinted style text := by
  match members with
  | [] =>
    obtain rfl := Except.ok.inj h
    exact isPrinted_nil
  | (name, value) :: members =>
    rw [writeMembers] at h
    obtain ⟨first, hfirst, h⟩ := bind_eq_ok.1 h
    obtain ⟨rest, hrest, h⟩ := bind_eq_ok.1 h
    obtain rfl := pure_eq_ok_iff.1 h
    simp [Style.Allows, isPrinted_separator, isPrinted_writeString, isPrinted_of_writeAt hfirst,
      isPrinted_of_writeMembers hrest]

end

/-- A document holds no control but line feeds. -/
theorem notMem_of_writeDocument {value : Value} {document : String}
    (h : writeDocument value = .ok document) {c : Char} (hcontrol : c.toNat < 0x20)
    (hfeed : c ≠ '\n') : c ∉ document.toList := by
  obtain ⟨text, htext, h⟩ := bind_eq_ok.1 h
  obtain rfl := pure_eq_ok_iff.1 h
  rw [String.toList_ofList]
  have hprinted : IsPrinted .indented (text ++ ['\n']) := isPrinted_append_iff.2
    ⟨isPrinted_of_writeAt htext, List.forall_mem_singleton.2 (.inr ⟨rfl, rfl⟩)⟩
  exact hprinted.notMem hcontrol hfeed

end CueSheet.Json
